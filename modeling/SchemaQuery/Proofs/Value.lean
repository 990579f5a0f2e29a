import Mathlib.Tactic.Common
import SchemaQuery.Value

/-! When values are the same.  Whole numbers are compared as numbers; every other value is the same
as itself alone.  So a list of values holds a value exactly when it does so after repeated values
are left out. -/

namespace SchemaQuery.Value

variable {v w : Value} {values kept more : List Value}

/-- The value with a whole number that is not negative kept as an unsigned one. -/
def unsigned : Value → Value
  | .int n => if 0 ≤ n then .uint n.toUInt64 else .int n
  | v => v

theorem toInt_toUInt64 {n : Int64} (h : 0 ≤ n) : (n.toUInt64.toNat : Int) = n.toInt := by
  have hn : 0 ≤ n.toInt := Int64.le_iff_toInt_le.mp h
  rw [Int64.toNat_toUInt64_of_le h, Int64.toNatClampNeg, Int.toNat_of_nonneg hn]

theorem toInt_eq_iff {n : Int64} {m : UInt64} :
    n.toInt = (m.toNat : Int) ↔ 0 ≤ n ∧ n.toUInt64 = m := by
  constructor
  · intro h
    have hn : 0 ≤ n := Int64.le_iff_toInt_le.mpr (by rw [h]; exact Int.natCast_nonneg _)
    refine ⟨hn, UInt64.toNat_inj.mp ?_⟩
    have heq := (toInt_toUInt64 hn).trans h
    exact_mod_cast heq
  · rintro ⟨hn, rfl⟩
    exact (toInt_toUInt64 hn).symm

theorem unsigned_int_inj {n m : Int64} : (int n).unsigned = (int m).unsigned ↔ n = m := by
  refine ⟨fun h => ?_, fun h => by rw [h]⟩
  simp only [unsigned] at h
  split at h <;> split at h
  · next hn hm =>
    rw [← Int64.toInt_inj, ← toInt_toUInt64 hn, ← toInt_toUInt64 hm, uint.inj h]
  · cases h
  · cases h
  · exact int.inj h

theorem unsigned_int_eq_uint_iff {n : Int64} {m : UInt64} :
    (int n).unsigned = uint m ↔ n.toInt = (m.toNat : Int) := by
  rw [toInt_eq_iff, unsigned]
  split
  · next hn => simp [hn]
  · next hn => simp [hn]

theorem unsigned_int_cases (n : Int64) :
    (∃ m, (int n).unsigned = uint m) ∨ (int n).unsigned = int n := by
  rw [unsigned]
  split
  · exact .inl ⟨_, rfl⟩
  · exact .inr rfl

/-- Two values are the same when they are equal as far as kinds of whole numbers do not count. -/
theorem same_iff : v.same w = true ↔ v.unsigned = w.unsigned := by
  have huint : ∀ (n : Int64) (m : UInt64),
      (n.toInt == (m.toNat : Int)) = true ↔ (int n).unsigned = uint m := fun n m => by
    rw [beq_iff_eq, unsigned_int_eq_uint_iff]
  cases v with
  | int n =>
    cases w with
    | int m => exact beq_iff_eq.trans unsigned_int_inj.symm
    | uint m => exact huint n m
    | _ =>
      refine iff_of_false Bool.false_ne_true fun heq => ?_
      obtain ⟨k, h⟩ | h := unsigned_int_cases n
      · cases h.symm.trans heq
      · cases h.symm.trans heq
  | uint n =>
    cases w with
    | int m => exact (huint m n).trans eq_comm
    | _ => simp [same, unsigned]
  | _ =>
    cases w with
    | int m =>
      refine iff_of_false Bool.false_ne_true fun heq => ?_
      obtain ⟨k, h⟩ | h := unsigned_int_cases m
      · cases heq.trans h
      · cases heq.trans h
    | _ => simp [same, unsigned]

/-! ### Values that are written alike -/

def isFloat : Value → Bool
  | .float _ => true
  | _ => false

/-- The value with a truth value as the number one or zero. -/
def number : Value → Value
  | .bool b => .int (if b then 1 else 0)
  | v => v

/-- The value up to the sort that its number is kept in. -/
def plain (v : Value) : Value := v.number.unsigned

/-! ### Lists of values -/

theorem isIn_iff : v.isIn values = true ↔ ∃ w ∈ values, v.unsigned = w.unsigned := by
  simp [isIn, same_iff]

theorem isIn_cons : v.isIn (w :: values) = true ↔ v.same w = true ∨ v.isIn values = true := by
  rw [isIn, List.any_cons, Bool.or_eq_true]
  rfl

theorem isIn_append :
    v.isIn (values ++ more) = true ↔ v.isIn values = true ∨ v.isIn more = true := by
  rw [isIn, List.any_append, Bool.or_eq_true]
  rfl

theorem isIn_foldl_distinct : v.isIn (values.foldl
    (fun kept w => if w.isIn kept then kept else kept ++ [w]) kept) = true ↔
      v.isIn (kept ++ values) = true := by
  induction values generalizing kept with
  | nil => rw [List.foldl_nil, List.append_nil]
  | cons w rest ih =>
    rw [List.foldl_cons, ih]
    split
    · next hw =>
      obtain ⟨x, hx, hsame⟩ := isIn_iff.mp hw
      have hfirst : v.isIn [w] = true → v.isIn kept = true := by
        rw [isIn_iff, isIn_iff]
        rintro ⟨y, hy, hv⟩
        rw [List.mem_singleton.mp hy] at hv
        exact ⟨x, hx, hv.trans hsame⟩
      rw [List.append_cons, isIn_append, isIn_append, isIn_append]
      exact ⟨fun h => h.imp_left .inl, fun h => h.imp_left fun h => h.elim id hfirst⟩
    · rw [List.append_assoc, List.singleton_append]

/-- Leaving out repeated values changes nothing for look-ups. -/
theorem isIn_distinct : v.isIn (distinct values) = v.isIn values := by
  rw [Bool.eq_iff_iff, distinct, isIn_foldl_distinct, List.nil_append]

end SchemaQuery.Value
