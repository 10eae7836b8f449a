import Mathlib.Data.List.Infix
import Mathlib.Data.List.TakeWhile

/-! Suffixes of strings and keys joined from two strings by a separator. -/

namespace Text

def endsWith (text suffix : String) : Bool := suffix.toList.isSuffixOf text.toList

def dropEnd (text : String) (count : Nat) : String :=
  String.ofList (text.toList.take (text.toList.length - count))

theorem endsWith_iff {text suffix : String} :
    endsWith text suffix = true ↔ ∃ init, text = init ++ suffix := by
  rw [endsWith, List.isSuffixOf_iff_suffix]
  constructor
  · rintro ⟨init, h⟩
    refine ⟨String.ofList init, String.toList_inj.mp ?_⟩
    rw [String.toList_append, String.toList_ofList, h]
  · rintro ⟨init, rfl⟩
    exact ⟨init.toList, String.toList_append.symm⟩

@[simp] theorem endsWith_append (init suffix : String) : endsWith (init ++ suffix) suffix = true :=
  endsWith_iff.mpr ⟨init, rfl⟩

@[simp] theorem dropEnd_append (init suffix : String) :
    dropEnd (init ++ suffix) suffix.length = init := by
  simp [dropEnd, ← String.length_toList]

theorem append_separator_inj {α : Type} {sep : α} {left right left' right' : List α}
    (h : sep ∉ right) (h' : sep ∉ right') (same : left ++ sep :: right = left' ++ sep :: right') :
    left = left' ∧ right = right' := by
  rcases List.append_eq_append_iff.mp same with ⟨middle, hl, hr⟩ | ⟨middle, hl, hr⟩
  · cases middle with
    | nil => simp_all
    | cons c middle =>
      have tail := (List.cons.inj hr).2
      exact absurd (by simp [tail]) h
  · cases middle with
    | nil => simp_all
    | cons c middle =>
      have tail := (List.cons.inj hr).2
      exact absurd (by simp [tail]) h'

/-- Keys joined by a separator that the second half does not contain are told apart. -/
theorem join_inj {sep : Char} {left right left' right' : String}
    (h : sep ∉ right.toList) (h' : sep ∉ right'.toList)
    (same : left ++ sep.toString ++ right = left' ++ sep.toString ++ right') :
    left = left' ∧ right = right' := by
  have lists := congrArg String.toList same
  simp only [String.toList_append, Char.toString, String.toList_singleton, List.append_assoc,
    List.singleton_append] at lists
  obtain ⟨hl, hr⟩ := append_separator_inj h h' lists
  exact ⟨String.toList_inj.mp hl, String.toList_inj.mp hr⟩

/-- The text before the first separator and the text behind it. -/
def splitFirst (sep : Char) (text : String) : Option (String × String) :=
  match text.toList.dropWhile (· ≠ sep) with
  | [] => none
  | _ :: right => some (String.ofList (text.toList.takeWhile (· ≠ sep)), String.ofList right)

theorem splitFirst_join {sep : Char} {left : String} (h : sep ∉ left.toList) (right : String) :
    splitFirst sep (left ++ sep.toString ++ right) = some (left, right) := by
  have passed : ∀ c ∈ left.toList, decide (c ≠ sep) = true := by
    intro c mem
    exact decide_eq_true fun same => h (same ▸ mem)
  have text : (left ++ sep.toString ++ right).toList = left.toList ++ sep :: right.toList := by
    simp [Char.toString]
  rw [splitFirst, text, List.dropWhile_append_of_pos passed, List.takeWhile_append_of_pos passed]
  simp

theorem splitFirst_of_not_mem {sep : Char} {text : String} (h : sep ∉ text.toList) :
    splitFirst sep text = none := by
  have passed : text.toList.dropWhile (· ≠ sep) = [] := by
    rw [List.dropWhile_eq_nil_iff]
    intro c mem
    exact decide_eq_true fun same => h (same ▸ mem)
  rw [splitFirst, passed]

end Text
