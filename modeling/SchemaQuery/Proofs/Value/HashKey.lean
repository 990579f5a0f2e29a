import Mathlib.Data.List.Forall2
import Mathlib.Logic.Function.Basic
import SchemaQuery.Proofs.Value

/-! Values as keys of hash sets.  The bytes that a value is hashed by can be read back as far as
values are told apart at all, and so two values have the same bytes just when they are the same.  A
hash set, which looks for a value only where the hash of its bytes points, then finds a value
wherever a search through all values does. -/

namespace SchemaQuery.Value

variable {v w : Value} {values others : List Value}

/-! ### Reading the bytes back -/

/-- The word of some bytes, the lowest first. -/
def wordOf (bytes : List UInt8) : UInt64 :=
  UInt64.ofNat (bytes.foldr (fun b n => b.toNat + 256 * n) 0)

/-- So many bytes of a number make up the number, less what the higher ones hold. -/
theorem foldr_bytes (n count : Nat) :
    ((List.range count).map fun place => UInt8.ofNat (n / Nat.pow 256 place)).foldr
    (fun b n => b.toNat + 256 * n) 0 = n % Nat.pow 256 count := by
  induction count generalizing n with
  | zero => simp [Nat.mod_one]
  | succ count ih =>
    -- the bytes above the lowest are those of the number without it
    have hshift (place : Nat) : n / 256 / Nat.pow 256 place = n / Nat.pow 256 (place + 1) := by
      rw [Nat.div_div_eq_div_mul, Nat.pow_eq, Nat.pow_eq, Nat.pow_succ']
    have hrest := ih (n / 256)
    simp only [hshift] at hrest
    have hpow : Nat.pow 256 (count + 1) = 256 * Nat.pow 256 count := Nat.pow_succ'
    rw [List.range_succ_eq_map, List.map_cons, List.map_map, List.foldr_cons, hpow,
      Nat.mod_mul, ← hrest]
    simp [Function.comp_def]

theorem wordOf_wordBytes (word : UInt64) : wordOf (wordBytes word) = word := by
  have hword : word.toNat < Nat.pow 256 8 := word.toNat_lt
  rw [wordOf, wordBytes, foldr_bytes, Nat.mod_eq_of_lt hword, UInt64.ofNat_toNat]

theorem length_wordBytes (word : UInt64) : (wordBytes word).length = 8 := by
  rw [wordBytes, List.length_map, List.length_range]

theorem toList_loop (bytes : ByteArray) (i : Nat) (read : List UInt8) :
    ByteArray.toList.loop bytes i read = read.reverse ++ bytes.data.toList.drop i := by
  fun_induction ByteArray.toList.loop bytes i read with
  | case1 i read hi ih =>
    have hlength : i < bytes.data.toList.length := hi
    have hbyte : bytes.get! i = bytes.data.toList[i] := getElem!_pos bytes.data i hi
    rw [ih, List.reverse_cons, List.append_assoc, List.drop_eq_getElem_cons hlength, hbyte]
    rfl
  | case2 i read hi =>
    have hlength : bytes.data.toList.length ≤ i := Nat.le_of_not_lt hi
    rw [List.drop_of_length_le hlength, List.append_nil]

theorem toByteArray_toList (bytes : ByteArray) : bytes.toList.toByteArray = bytes := by
  have hlist : bytes.toList = bytes.data.toList := toList_loop bytes 0 []
  rw [hlist, ByteArray.ext_iff, ← Array.toList_inj, List.toList_data_toByteArray]

theorem fromUTF8?_toUTF8 (s : String) : String.fromUTF8? s.toUTF8 = some s := dif_pos s.isValidUTF8

/-- The value that some bytes stand for, a whole number that is not negative as an unsigned one. -/
def ofHashBytes? : List UInt8 → Option Value
  | [0] => some .null
  | [1, b] => some (.bool (b == 1))
  | 2 :: word => some (.uint (wordOf word))
  | 3 :: word => some (.int (wordOf word).toInt64)
  | 4 :: word => some (.float ⟨wordOf word⟩)
  | 5 :: content => (String.fromUTF8? content.dropLast.toByteArray).map .text
  | 6 :: content => some (.bytes (content.drop 8))
  | _ => none

theorem ofHashBytes?_hashBytes (v : Value) : ofHashBytes? v.hashBytes = some v.unsigned := by
  cases v with
  | null => rfl
  | bool b => cases b <;> rfl
  | int n =>
    rw [hashBytes, unsigned]
    split
    · rw [ofHashBytes?, wordOf_wordBytes]
    · rw [ofHashBytes?, wordOf_wordBytes, Int64.toInt64_toUInt64]
  | uint n =>
    rw [hashBytes, ofHashBytes?, wordOf_wordBytes]
    rfl
  | float x =>
    rw [hashBytes, ofHashBytes?, wordOf_wordBytes]
    rfl
  | text s =>
    rw [hashBytes, List.cons_append, ofHashBytes?, List.dropLast_concat, toByteArray_toList,
      fromUTF8?_toUTF8]
    rfl
  | bytes data =>
    rw [hashBytes, List.cons_append, ofHashBytes?, List.drop_left' (length_wordBytes _)]
    rfl

/-- A whole number that is not negative is hashed alike however it is kept. -/
theorem hashBytes_unsigned (v : Value) : v.unsigned.hashBytes = v.hashBytes := by
  cases v with
  | int n =>
    rw [unsigned]
    split
    · next hn => rw [hashBytes, hashBytes, if_pos hn]
    · rfl
  | _ => rfl

/-- Values are hashed by the same bytes just when they are the same. -/
theorem hashBytes_eq_iff : v.hashBytes = w.hashBytes ↔ v.same w = true := by
  rw [same_iff]
  constructor
  · intro h
    have hread : some v.unsigned = some w.unsigned := by
      rw [← ofHashBytes?_hashBytes, ← ofHashBytes?_hashBytes, h]
    exact Option.some.inj hread
  · intro h
    rw [← hashBytes_unsigned v, h, hashBytes_unsigned]

/-! ### Which values are the same -/

/-- The whole number that a value is. -/
def wholeNumber? : Value → Option Int
  | .int n => some n.toInt
  | .uint n => some n.toNat
  | _ => none

theorem wholeNumber?_unsigned (v : Value) : v.unsigned.wholeNumber? = v.wholeNumber? := by
  cases v with
  | int n =>
    rw [unsigned]
    split
    · next hn => exact congrArg some (toInt_toUInt64 hn)
    · rfl
  | _ => rfl

theorem unsigned_of_wholeNumber?_eq_none (h : v.wholeNumber? = none) : v.unsigned = v := by
  cases v with
  | int n => cases h
  | _ => rfl

theorem same_of_wholeNumber? {n : Int} (hv : v.wholeNumber? = some n)
    (hw : w.wholeNumber? = some n) : v.same w = true := by
  have heq : v.wholeNumber? = w.wholeNumber? := hv.trans hw.symm
  cases v with
  | int a =>
    cases w with
    | int b => exact beq_iff_eq.mpr (Int64.toInt_inj.mp (Option.some.inj heq))
    | uint b => exact beq_iff_eq.mpr (Option.some.inj heq)
    | _ => cases heq
  | uint a =>
    cases w with
    | int b => exact beq_iff_eq.mpr (Option.some.inj heq).symm
    | uint b =>
      have hnat : (a.toNat : Int) = b.toNat := Option.some.inj heq
      exact beq_iff_eq.mpr (UInt64.toNat_inj.mp (by exact_mod_cast hnat))
    | _ => cases heq
  | _ => cases hv

/-- Values are the same when they are equal, or are one whole number in two ways. -/
theorem same_iff_wholeNumber? :
    v.same w = true ↔ v = w ∨ ∃ n, v.wholeNumber? = some n ∧ w.wholeNumber? = some n := by
  constructor
  · intro h
    have hunsigned : v.unsigned = w.unsigned := same_iff.mp h
    have hwhole : v.wholeNumber? = w.wholeNumber? := by
      rw [← wholeNumber?_unsigned v, hunsigned, wholeNumber?_unsigned]
    cases hv : v.wholeNumber? with
    | none =>
      rw [unsigned_of_wholeNumber?_eq_none hv,
        unsigned_of_wholeNumber?_eq_none (hwhole.symm.trans hv)] at hunsigned
      exact .inl hunsigned
    | some n => exact .inr ⟨n, rfl, hwhole.symm.trans hv⟩
  · rintro (rfl | ⟨n, hv, hw⟩)
    · exact same_iff.mpr rfl
    · exact same_of_wholeNumber? hv hw

theorem equivalence_same : Equivalence fun v w : Value => v.same w = true where
  refl _ := same_iff.mpr rfl
  symm h := same_iff.mpr (same_iff.mp h).symm
  trans h h' := same_iff.mpr ((same_iff.mp h).trans (same_iff.mp h'))

/-! ### Hash sets -/

theorem isIn_of_same (h : v.same w = true) : v.isIn values = w.isIn values := by
  rw [Bool.eq_iff_iff, isIn_iff, isIn_iff, same_iff.mp h]

/-- A search does not tell apart values that are the same, neither the one that it is for nor those
that it passes. -/
theorem isIn_of_forall₂ (h : v.same w = true)
    (hvalues : List.Forall₂ (fun x y => x.same y = true) values others) :
    v.isIn values = w.isIn others := by
  rw [isIn_of_same h, Bool.eq_iff_iff]
  induction hvalues with
  | nil => rfl
  | @cons x y values others hxy _ ih =>
    have hfirst : w.same x = true ↔ w.same y = true := by rw [same_iff, same_iff, same_iff.mp hxy]
    rw [isIn_cons, isIn_cons, hfirst, ih]

/-- A hash set: the values kept at each place, for a hash that gives the place of bytes. -/
structure HashSet (place : List UInt8 → Nat) where
  kept : Nat → List Value

namespace HashSet

variable {place : List UInt8 → Nat} {set : HashSet place}

def empty : HashSet place := ⟨fun _ => []⟩

/-- Looks for a value at the place of its bytes. -/
def contains (set : HashSet place) (v : Value) : Bool := v.isIn (set.kept (place v.hashBytes))

/-- The set with one more value, unless it is found. -/
def insert (set : HashSet place) (v : Value) : HashSet place :=
  if set.contains v then set
  else ⟨Function.update set.kept (place v.hashBytes) (v :: set.kept (place v.hashBytes))⟩

def ofList (place : List UInt8 → Nat) (values : List Value) : HashSet place :=
  values.foldl insert empty

theorem contains_of_same (h : v.same w = true) : set.contains v = set.contains w := by
  rw [contains, contains, hashBytes_eq_iff.mpr h, isIn_of_same h]

theorem contains_insert :
    (set.insert w).contains v = true ↔ v.same w = true ∨ set.contains v = true := by
  rw [insert]
  split
  · next hfound =>
    have hsame : v.same w = true → set.contains v = true :=
      fun h => (contains_of_same h).trans hfound
    exact ⟨.inr, fun h => h.elim hsame id⟩
  · rw [contains, contains]
    dsimp only
    by_cases hplace : place v.hashBytes = place w.hashBytes
    · rw [hplace, Function.update_self, isIn_cons]
    · -- values at two places have different bytes
      have hdiffer : v.same w ≠ true := fun h => hplace (by rw [hashBytes_eq_iff.mpr h])
      rw [Function.update_of_ne hplace]
      exact ⟨.inr, fun h => h.resolve_left hdiffer⟩

theorem contains_foldl_insert : (values.foldl insert set).contains v = true ↔
    v.isIn values = true ∨ set.contains v = true := by
  induction values generalizing set with
  | nil => simp [isIn]
  | cons w values ih => rw [List.foldl_cons, ih, contains_insert, isIn_cons, or_left_comm, or_assoc]

/-- A look at one place finds what a search through all values would find. -/
theorem contains_ofList : (ofList place values).contains v = v.isIn values := by
  have hempty : (empty : HashSet place).contains v = false := rfl
  rw [Bool.eq_iff_iff, ofList, contains_foldl_insert, hempty, or_iff_left Bool.false_ne_true]

end HashSet

/-- Values can key hash sets.  Being the same is an equivalence, for whole numbers that of being one
number, and two values are hashed by the same bytes just when they are the same.  So a set that
finds values by their hashes, whatever the hash is, finds those that a search would find, and to
neither does it matter how a whole number is kept. -/
theorem hashKey_sound :
    (Equivalence fun v w : Value => v.same w = true) ∧
    (∀ v w : Value, v.same w = true ↔
      v = w ∨ ∃ n, v.wholeNumber? = some n ∧ w.wholeNumber? = some n) ∧
    (∀ v w : Value, v.hashBytes = w.hashBytes ↔ v.same w = true) ∧
    (∀ (place : List UInt8 → Nat) (v : Value) (values : List Value),
      (HashSet.ofList place values).contains v = v.isIn values) ∧
    ∀ (v w : Value) (values others : List Value), v.same w = true →
      List.Forall₂ (fun x y => x.same y = true) values others → v.isIn values = w.isIn others :=
  ⟨equivalence_same, fun _ _ => same_iff_wholeNumber?, fun _ _ => hashBytes_eq_iff,
    fun _ _ _ => HashSet.contains_ofList, fun _ _ _ _ => isIn_of_forall₂⟩

/-- A set of numbers that are read as signed and as unsigned ones, at the bounds of both. -/
theorem hashKey_sound_bounds :
    let signed : List Value := [.int 0, .text "7", .int (-1), .int 9223372036854775807]
    let unsigned : List Value := [.uint 0, .text "7", .int (-1), .uint 9223372036854775807]
    List.Forall₂ (fun x y => x.same y = true) signed unsigned ∧
      (∀ v ∈ signed, v.isIn unsigned = true) ∧ (uint 18446744073709551615).isIn signed = false ∧
      (int 0).isIn signed = (uint 0).isIn unsigned := by
  intro signed unsigned
  have hsame : List.Forall₂ (fun x y => x.same y = true) signed unsigned := by decide
  exact ⟨hsame, by decide, by decide, hashKey_sound.2.2.2.2 _ _ _ _ (by decide) hsame⟩

end SchemaQuery.Value
