import Mathlib.Data.List.Forall2

/-! Regular expressions over tests of single letters, matched by derivatives. -/

inductive Regex (α : Type)
  | empty
  | epsilon
  | one (test : α → Bool)
  | seq (first second : Regex α)
  | alt (left right : Regex α)
  | star (item : Regex α)

namespace Regex

variable {α : Type}

inductive Matches : Regex α → List α → Prop
  | epsilon : Matches .epsilon []
  | one {test : α → Bool} {c : α} (h : test c = true) : Matches (.one test) [c]
  | seq {r s : Regex α} {xs ys : List α} (first : Matches r xs) (second : Matches s ys) :
      Matches (.seq r s) (xs ++ ys)
  | altLeft {r s : Regex α} {xs : List α} (left : Matches r xs) : Matches (.alt r s) xs
  | altRight {r s : Regex α} {xs : List α} (right : Matches s xs) : Matches (.alt r s) xs
  | starNil {r : Regex α} : Matches (.star r) []
  | starCons {r : Regex α} {xs ys : List α} (item : Matches r xs) (rest : Matches (.star r) ys) :
      Matches (.star r) (xs ++ ys)

def nullable : Regex α → Bool
  | empty => false
  | epsilon => true
  | one _ => false
  | seq r s => r.nullable && s.nullable
  | alt r s => r.nullable || s.nullable
  | star _ => true

/-- What is left to match after a first letter. -/
def deriv : Regex α → α → Regex α
  | empty, _ => empty
  | epsilon, _ => empty
  | one test, c => if test c then epsilon else empty
  | seq r s, c =>
    if r.nullable then alt (seq (r.deriv c) s) (s.deriv c) else seq (r.deriv c) s
  | alt r s, c => alt (r.deriv c) (s.deriv c)
  | star r, c => seq (r.deriv c) (star r)

def accepts : Regex α → List α → Bool
  | r, [] => r.nullable
  | r, c :: cs => (r.deriv c).accepts cs

theorem matches_seq_iff {r s : Regex α} {cs : List α} :
    Matches (.seq r s) cs ↔ ∃ xs ys, cs = xs ++ ys ∧ Matches r xs ∧ Matches s ys := by
  constructor
  · intro h
    cases h with
    | seq first second => exact ⟨_, _, rfl, first, second⟩
  · rintro ⟨xs, ys, rfl, first, second⟩
    exact .seq first second

theorem matches_alt_iff {r s : Regex α} {cs : List α} :
    Matches (.alt r s) cs ↔ Matches r cs ∨ Matches s cs := by
  constructor
  · intro h
    cases h with
    | altLeft left => exact Or.inl left
    | altRight right => exact Or.inr right
  · rintro (left | right)
    · exact .altLeft left
    · exact .altRight right

theorem matches_one_iff {test : α → Bool} {cs : List α} :
    Matches (.one test) cs ↔ ∃ c, cs = [c] ∧ test c = true := by
  constructor
  · intro h
    cases h with
    | one h => exact ⟨_, rfl, h⟩
  · rintro ⟨c, rfl, h⟩
    exact .one h

/-- A repetition that matches a first letter begins with an item that does. -/
theorem matches_star_cons_iff {r : Regex α} {c : α} {cs : List α} :
    Matches (.star r) (c :: cs) ↔
      ∃ xs ys, cs = xs ++ ys ∧ Matches r (c :: xs) ∧ Matches (.star r) ys := by
  constructor
  · intro h
    generalize whole : Regex.star r = s at h
    generalize letters : c :: cs = l at h
    induction h with
    | starNil => simp at letters
    | @starCons _ xs ys item rest _ ih =>
      cases Regex.star.inj whole
      cases xs with
      | nil => exact ih rfl letters
      | cons d xs =>
        obtain ⟨rfl, rfl⟩ := List.cons.inj letters
        exact ⟨xs, ys, rfl, item, rest⟩
    | _ => cases whole
  · rintro ⟨xs, ys, rfl, item, rest⟩
    exact .starCons item rest

theorem nullable_iff (r : Regex α) : r.nullable = true ↔ Matches r [] := by
  induction r with
  | empty =>
    constructor
    · intro h
      simp [nullable] at h
    · intro h
      cases h
  | epsilon => exact iff_of_true rfl .epsilon
  | one test => simp [nullable, matches_one_iff]
  | seq r s ihr ihs =>
    rw [nullable, Bool.and_eq_true, ihr, ihs, matches_seq_iff]
    constructor
    · rintro ⟨first, second⟩
      exact ⟨[], [], rfl, first, second⟩
    · rintro ⟨xs, ys, none, first, second⟩
      obtain ⟨rfl, rfl⟩ := List.append_eq_nil_iff.mp none.symm
      exact ⟨first, second⟩
  | alt r s ihr ihs => rw [nullable, Bool.or_eq_true, ihr, ihs, matches_alt_iff]
  | star r => exact iff_of_true rfl .starNil

theorem matches_deriv_iff (r : Regex α) (c : α) (cs : List α) :
    Matches (r.deriv c) cs ↔ Matches r (c :: cs) := by
  induction r generalizing cs with
  | empty =>
    constructor
    · intro h
      cases h
    · intro h
      cases h
  | epsilon =>
    constructor
    · intro h
      cases h
    · intro h
      cases h
  | one test =>
    rw [deriv, matches_one_iff]
    split
    next pass =>
      constructor
      · intro h
        cases h
        exact ⟨c, rfl, pass⟩
      · rintro ⟨d, same, _⟩
        cases same
        exact .epsilon
    next fail =>
      constructor
      · intro h
        cases h
      · rintro ⟨d, same, pass⟩
        cases same
        exact absurd pass fail
  | seq r s ihr ihs =>
    have later : Matches (.seq (r.deriv c) s) cs ↔
        ∃ xs ys, cs = xs ++ ys ∧ Matches r (c :: xs) ∧ Matches s ys := by
      rw [matches_seq_iff]
      simp only [ihr]
    have whole : Matches (.seq r s) (c :: cs) ↔
        Matches (.seq (r.deriv c) s) cs ∨ Matches r [] ∧ Matches s (c :: cs) := by
      rw [later, matches_seq_iff]
      constructor
      · rintro ⟨xs, ys, split, first, second⟩
        cases xs with
        | nil => exact Or.inr ⟨first, split ▸ second⟩
        | cons d xs =>
          obtain ⟨rfl, rfl⟩ := List.cons.inj split
          exact Or.inl ⟨xs, ys, rfl, first, second⟩
      · rintro (⟨xs, ys, rfl, first, second⟩ | ⟨first, second⟩)
        · exact ⟨c :: xs, ys, rfl, first, second⟩
        · exact ⟨[], c :: cs, rfl, first, second⟩
    rw [deriv, whole, ← nullable_iff]
    cases r.nullable with
    | true =>
      rw [if_pos rfl, matches_alt_iff, ihs]
      simp
    | false => simp
  | alt r s ihr ihs => rw [deriv, matches_alt_iff, matches_alt_iff, ihr, ihs]
  | star r ih =>
    rw [deriv, matches_seq_iff, matches_star_cons_iff]
    simp only [ih]

/-- The matcher accepts exactly the words of the expression. -/
theorem accepts_iff (r : Regex α) (cs : List α) : r.accepts cs = true ↔ Matches r cs := by
  induction cs generalizing r with
  | nil => exact r.nullable_iff
  | cons c cs ih => rw [accepts, ih, matches_deriv_iff]

theorem matches_star_one_iff {test : α → Bool} {cs : List α} :
    Matches (.star (.one test)) cs ↔ ∀ c ∈ cs, test c = true := by
  induction cs with
  | nil => exact iff_of_true .starNil (by simp)
  | cons c cs ih =>
    rw [matches_star_cons_iff, List.forall_mem_cons, ← ih]
    constructor
    · rintro ⟨xs, ys, rfl, item, rest⟩
      obtain ⟨d, same, pass⟩ := matches_one_iff.mp item
      obtain ⟨rfl, rfl⟩ := List.cons.inj same
      exact ⟨pass, rest⟩
    · rintro ⟨pass, rest⟩
      exact ⟨[], cs, rfl, .one pass, rest⟩

/-- An expression that tests one letter after the other. -/
def word (tests : List (α → Bool)) : Regex α := tests.foldr (fun test rest => .seq (.one test) rest) .epsilon

theorem matches_word_iff {tests : List (α → Bool)} {cs : List α} :
    Matches (word tests) cs ↔ List.Forall₂ (fun test c => test c = true) tests cs := by
  induction tests generalizing cs with
  | nil =>
    rw [List.forall₂_nil_left_iff]
    constructor
    · intro h
      cases h
      rfl
    · rintro rfl
      exact .epsilon
  | cons test tests ih =>
    change Matches (.seq (.one test) (word tests)) cs ↔ _
    rw [matches_seq_iff, List.forall₂_cons_left_iff]
    constructor
    · rintro ⟨xs, ys, rfl, first, rest⟩
      obtain ⟨c, rfl, pass⟩ := matches_one_iff.mp first
      exact ⟨c, ys, pass, ih.mp rest, rfl⟩
    · rintro ⟨c, ys, pass, rest, rfl⟩
      exact ⟨[c], ys, rfl, .one pass, ih.mpr rest⟩

end Regex
