/-! Reading bytes as UTF-8.  `Utf8.parts` cuts any list of bytes into characters and faulty parts,
where a faulty part is the longest run of bytes that starts a character and cannot be finished.
Lossy reading writes one replacement character for each faulty part; strict reading stops at the
first. -/

namespace SchemaQuery.Text.Utf8

/-- A stretch of bytes: a character, bytes that cannot be part of one, or a character cut off by the
end of the bytes. -/
inductive Part
  | char (c : Char) (size : Nat)
  | faulty (size : Nat)
  | cutOff (size : Nat)
deriving DecidableEq

def Part.size : Part → Nat
  | .char _ size | .faulty size | .cutOff size => size

/-- A character that has been started: the value of the bytes read, how many were read, how many are
still to come, and the range that the next one has to lie in. -/
structure Pending where
  value : Nat
  read : Nat
  missing : Nat
  low : Nat
  high : Nat
deriving DecidableEq

/-- The reading after one byte where a character may start. -/
def start (b : Nat) : Part ⊕ Pending :=
  if b ≤ 0x7F then .inl (.char (Char.ofNat b) 1)
  else if 0xC2 ≤ b && b ≤ 0xDF then .inr ⟨b - 0xC0, 1, 1, 0x80, 0xBF⟩
  else if b == 0xE0 then .inr ⟨0, 1, 2, 0xA0, 0xBF⟩
  else if b == 0xED then .inr ⟨0xD, 1, 2, 0x80, 0x9F⟩
  else if 0xE1 ≤ b && b ≤ 0xEF then .inr ⟨b - 0xE0, 1, 2, 0x80, 0xBF⟩
  else if b == 0xF0 then .inr ⟨0, 1, 3, 0x90, 0xBF⟩
  else if 0xF1 ≤ b && b ≤ 0xF3 then .inr ⟨b - 0xF0, 1, 3, 0x80, 0xBF⟩
  else if b == 0xF4 then .inr ⟨4, 1, 3, 0x80, 0x8F⟩
  else .inl (.faulty 1)

/-- The character after a byte in the expected range: finished, or one byte further. -/
def Pending.push (p : Pending) (b : Nat) : Part ⊕ Pending :=
  let value := p.value * 64 + (b - 0x80)
  if p.missing ≤ 1 then .inl (.char (Char.ofNat value) (p.read + 1))
  else .inr ⟨value, p.read + 1, p.missing - 1, 0x80, 0xBF⟩

/-- The parts of the bytes, given the character that is still unfinished. -/
def partsFrom : Option Pending → List UInt8 → List Part
  | none, [] => []
  | some p, [] => [.cutOff p.read]
  | none, b :: rest =>
    match start b.toNat with
    | .inl part => part :: partsFrom none rest
    | .inr p => partsFrom (some p) rest
  | some p, b :: rest =>
    if p.low ≤ b.toNat && b.toNat ≤ p.high then
      match p.push b.toNat with
      | .inl part => part :: partsFrom none rest
      | .inr next => partsFrom (some next) rest
    else
      match start b.toNat with
      | .inl part => .faulty p.read :: part :: partsFrom none rest
      | .inr next => .faulty p.read :: partsFrom (some next) rest

def parts (bytes : List UInt8) : List Part := partsFrom none bytes

/-- The character that stands for a part; U+FFFD for one that is no character. -/
def Part.toChar : Part → Char
  | .char c _ => c
  | .faulty _ | .cutOff _ => '\uFFFD'

/-- The text of bytes, with U+FFFD for each part that is no character. -/
def decodeLossy (bytes : List UInt8) : String := String.ofList ((parts bytes).map Part.toChar)

/-- Where bytes stop being UTF-8: the position of the first faulty part, and its length unless the
end of the bytes cuts it off. -/
structure Fault where
  position : Nat
  length : Option Nat
deriving DecidableEq

/-- The text of parts that are all characters, or the first fault after `position`. -/
def ofParts (position : Nat) : List Part → Except Fault (List Char)
  | [] => .ok []
  | .char c size :: rest => (ofParts (position + size) rest).map (c :: ·)
  | .faulty size :: _ => .error ⟨position, some size⟩
  | .cutOff _ :: _ => .error ⟨position, none⟩

def decode (bytes : List UInt8) : Except Fault String :=
  (ofParts 0 (parts bytes)).map String.ofList

end SchemaQuery.Text.Utf8
