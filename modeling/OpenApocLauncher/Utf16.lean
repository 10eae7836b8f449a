import Mathlib.Data.List.Lex
import Mathlib.Data.Nat.Basic

/-! Strings as their UTF-16 code units, in the order of `String.compareTo`. -/

namespace Utf16

def units (c : Char) : List Nat :=
  if c.toNat < 0x10000 then [c.toNat]
  else [0xD800 + (c.toNat - 0x10000) / 0x400, 0xDC00 + (c.toNat - 0x10000) % 0x400]

def codeUnits (text : String) : List Nat := text.toList.flatMap units

def compareUnits : List Nat → List Nat → Int
  | x :: xs, y :: ys => if x = y then compareUnits xs ys else (x : Int) - y
  | xs, ys => (xs.length : Int) - ys.length

def compareTo (text other : String) : Int := compareUnits (codeUnits text) (codeUnits other)

theorem toNat_bounds (c : Char) : c.toNat < 0xD800 ∨ 0xDFFF < c.toNat ∧ c.toNat < 0x110000 := c.valid

/-- No character's code units begin another's. -/
theorem units_append_inj {c d : Char} {xs ys : List Nat} (h : units c ++ xs = units d ++ ys) :
    c = d ∧ xs = ys := by
  have hc := toNat_bounds c
  have hd := toNat_bounds d
  have same (equal : c.toNat = d.toNat) : c = d := Char.toNat_inj.mp equal
  unfold units at h
  split at h
  next small =>
    split at h
    next small' =>
      simp only [List.cons_append, List.nil_append, List.cons.injEq] at h
      exact ⟨same h.1, h.2⟩
    next large =>
      simp only [List.cons_append, List.nil_append, List.cons.injEq] at h
      omega
  next large =>
    split at h
    next small =>
      simp only [List.cons_append, List.nil_append, List.cons.injEq] at h
      omega
    next large' =>
      simp only [List.cons_append, List.nil_append, List.cons.injEq] at h
      exact ⟨same (by omega), h.2.2⟩

theorem units_ne_nil (c : Char) : units c ≠ [] := by
  unfold units
  split
  next => simp
  next => simp

theorem flatMap_units_inj {cs ds : List Char} (h : cs.flatMap units = ds.flatMap units) : cs = ds := by
  induction cs generalizing ds with
  | nil =>
    cases ds with
    | nil => rfl
    | cons d ds => simp [units_ne_nil] at h
  | cons c cs ih =>
    cases ds with
    | nil => simp [units_ne_nil] at h
    | cons d ds =>
      rw [List.flatMap_cons, List.flatMap_cons] at h
      obtain ⟨rfl, rest⟩ := units_append_inj h
      rw [ih rest]

theorem codeUnits_injective : Function.Injective codeUnits := fun _ _ h =>
  String.toList_inj.mp (flatMap_units_inj h)

theorem compareUnits_eq_zero_iff (xs ys : List Nat) : compareUnits xs ys = 0 ↔ xs = ys := by
  induction xs generalizing ys with
  | nil =>
    cases ys with
    | nil => simp [compareUnits]
    | cons y ys =>
      simp only [compareUnits, List.length_nil, List.length_cons, reduceCtorEq, iff_false]
      omega
  | cons x xs ih =>
    cases ys with
    | nil =>
      simp only [compareUnits, List.length_nil, List.length_cons, reduceCtorEq, iff_false]
      omega
    | cons y ys =>
      rw [compareUnits, List.cons.injEq]
      split
      next same => rw [ih, and_iff_right same]
      next differ =>
        rw [iff_false_right (fun h => differ h.1)]
        omega

theorem compareUnits_neg_iff (xs ys : List Nat) : compareUnits xs ys < 0 ↔ xs < ys := by
  induction xs generalizing ys with
  | nil =>
    cases ys with
    | nil => simp [compareUnits]
    | cons y ys =>
      simp only [compareUnits, List.length_nil, List.length_cons, List.nil_lt_cons, iff_true]
      omega
  | cons x xs ih =>
    cases ys with
    | nil =>
      simp only [compareUnits, List.length_nil, List.length_cons, List.not_lt_nil, iff_false]
      omega
    | cons y ys =>
      rw [compareUnits, List.cons_lt_cons_iff]
      split
      next same => simp [ih, same]
      next differ =>
        simp only [differ, false_and, or_false]
        omega

theorem compareUnits_nonpos_iff (xs ys : List Nat) : compareUnits xs ys ≤ 0 ↔ xs ≤ ys := by
  have split : xs ≤ ys ↔ xs < ys ∨ xs = ys := le_iff_lt_or_eq
  rw [split, ← compareUnits_neg_iff, ← compareUnits_eq_zero_iff]
  omega

theorem compareTo_eq_zero_iff (text other : String) : compareTo text other = 0 ↔ text = other := by
  rw [compareTo, compareUnits_eq_zero_iff]
  exact codeUnits_injective.eq_iff

theorem compareTo_nonpos_iff (text other : String) :
    compareTo text other ≤ 0 ↔ codeUnits text ≤ codeUnits other :=
  compareUnits_nonpos_iff _ _

/-- Characters beyond the basic plane sort below the last ones in it. -/
example : compareTo "😀" "Ａ" < 0 ∧ "Ａ" < "😀" := by decide

end Utf16
