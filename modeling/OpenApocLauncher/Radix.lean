import Mathlib.Data.List.Induction
import Mathlib.Data.Nat.Digits.Lemmas

/-! Numbers written in a base, and bytes written as two hexadecimal digits each. -/

namespace Radix

/-- The number that digits stand for, the first of them being the most significant one. -/
def value (base : Nat) (digits : List Nat) : Nat := Nat.ofDigits base digits.reverse

@[simp] theorem value_concat (base : Nat) (digits : List Nat) (digit : Nat) :
    value base (digits ++ [digit]) = base * value base digits + digit := by
  simp [value, Nat.ofDigits_cons, Nat.add_comm]

theorem value_singleton (base digit : Nat) : value base [digit] = digit := by
  simp [value]

theorem value_zero_cons (base : Nat) (digits : List Nat) :
    value base (0 :: digits) = value base digits := by
  simp [value, Nat.ofDigits_append]

theorem value_lt {base : Nat} {digits : List Nat} (hb : 1 < base)
    (small : ∀ digit ∈ digits, digit < base) : value base digits < base ^ digits.length := by
  rw [← List.length_reverse]
  exact Nat.ofDigits_lt_base_pow_length hb fun digit mem => small digit (List.mem_reverse.mp mem)

theorem value_pos {base digit : Nat} {digits : List Nat} (hb : 0 < base) (lead : digit ≠ 0) :
    0 < value base (digit :: digits) := by
  induction digits using List.reverseRecOn with
  | nil =>
    rw [value_singleton]
    exact Nat.pos_of_ne_zero lead
  | append_singleton digits last ih =>
    rw [← List.cons_append, value_concat]
    have grown := Nat.mul_pos hb ih
    omega

theorem toDigits_value {base digit : Nat} {digits : List Nat} (hb : 1 < base) (lead : digit ≠ 0)
    (small : ∀ d ∈ digit :: digits, d < base) :
    Nat.toDigits base (value base (digit :: digits)) = (digit :: digits).map Nat.digitChar := by
  induction digits using List.reverseRecOn with
  | nil =>
    rw [value_singleton]
    exact Nat.toDigits_of_lt_base (small digit (by simp))
  | append_singleton digits last ih =>
    have earlier : ∀ d ∈ digit :: digits, d < base := by
      intro d mem
      exact small d (by rw [← List.cons_append]; exact List.mem_append_left _ mem)
    have fits := small last (by simp)
    have pos : 0 < value base (digit :: digits) := value_pos (by omega) lead
    rw [← List.cons_append, value_concat, ← Nat.toDigits_append_toDigits hb pos fits, ih earlier,
      Nat.toDigits_of_lt_base fits, List.map_append, List.map_singleton]

theorem length_toDigits_zero_cons {base : Nat} {digits : List Nat} (hb : 1 < base)
    (more : digits ≠ []) (small : ∀ d ∈ digits, d < base) :
    (Nat.toDigits base (value base (0 :: digits))).length ≤ digits.length := by
  rw [value_zero_cons, Nat.length_toDigits_le_iff hb (List.length_pos_iff.mpr more)]
  exact value_lt hb small

def hexDigits : List Char := "0123456789abcdef".toList

theorem digitChar_mem_hexDigits {digit : Nat} (h : digit < 16) : digit.digitChar ∈ hexDigits := by
  have all : (List.range 16).all (fun d => hexDigits.contains d.digitChar) = true := by decide
  simpa using List.all_eq_true.mp all digit (List.mem_range.mpr h)

def IsHex (width : Nat) (text : String) : Prop :=
  text.toList.length = width ∧ text.toList.all hexDigits.contains = true

instance (width : Nat) (text : String) : Decidable (IsHex width text) :=
  inferInstanceAs (Decidable (_ ∧ _))

def nibbles (bytes : List UInt8) : List Nat :=
  bytes.flatMap fun byte => [byte.toNat / 16, byte.toNat % 16]

theorem nibbles_cons (byte : UInt8) (bytes : List UInt8) :
    nibbles (byte :: bytes) = byte.toNat / 16 :: byte.toNat % 16 :: nibbles bytes := rfl

theorem nibbles_lt (bytes : List UInt8) : ∀ digit ∈ nibbles bytes, digit < 16 := by
  intro digit mem
  obtain ⟨byte, _, mem⟩ := List.mem_flatMap.mp mem
  have bound := byte.toNat_lt
  rcases List.mem_cons.mp mem with rfl | mem
  · omega
  · obtain rfl := List.mem_singleton.mp mem
    omega

theorem length_nibbles (bytes : List UInt8) : (nibbles bytes).length = 2 * bytes.length := by
  induction bytes with
  | nil => rfl
  | cons byte bytes ih =>
    simp only [nibbles_cons, List.length_cons, ih]
    omega

theorem value_nibbles (bytes : List UInt8) :
    value 16 (nibbles bytes) = value 256 (bytes.map UInt8.toNat) := by
  induction bytes using List.reverseRecOn with
  | nil => rfl
  | append_singleton bytes byte ih =>
    have split : nibbles (bytes ++ [byte]) =
        nibbles bytes ++ [byte.toNat / 16] ++ [byte.toNat % 16] := by
      simp [nibbles]
    rw [split, value_concat, value_concat, List.map_append, List.map_singleton, value_concat, ih]
    omega

end Radix
