import Mathlib.Data.Nat.Digits.Defs

/-!
# Decimal numerals

`Nat.toDigits 10` writes a natural number and `ofInt` an integer, and `value` reads a sequence of
digits. `is_numeral` says that what is written is a numeral of the number, and `digits_split` how a
program that divides by ten finds the digits, from the last to the first.
-/

namespace Decimal

/-- The numeral of an integer. -/
def ofInt (z : ℤ) : List Char :=
  if z < 0 then '-' :: Nat.toDigits 10 z.natAbs else Nat.toDigits 10 z.natAbs

/-- The number that a sequence of decimal digits stands for. -/
def value (digits : List Char) : ℕ :=
  digits.foldl (fun n c ↦ 10 * n + (c.toNat - '0'.toNat)) 0

/-- A natural number is written like the integer. -/
theorem of_int_natCast (n : ℕ) : ofInt n = Nat.toDigits 10 n := by
  rw [ofInt, if_neg (by omega), Int.natAbs_natCast]

/-- The character of a decimal digit stands in its place after `0`. -/
theorem digit_char {d : ℕ} (hd : d < 10) : Nat.digitChar d = Char.ofNat ('0'.toNat + d) := by
  revert d
  decide

/-- A number of at least two digits ends in its remainder by ten. -/
theorem to_digits_split {n : ℕ} (hn : 10 ≤ n) :
    Nat.toDigits 10 n = Nat.toDigits 10 (n / 10) ++ [Char.ofNat ('0'.toNat + n % 10)] := by
  rw [Nat.toDigits_of_base_le (by omega) hn, digit_char (Nat.mod_lt n (by omega))]

/-- The digits of a number of which none is a leading zero; zero has none. -/
def digits (n : ℕ) : List Char :=
  if n = 0 then [] else Nat.toDigits 10 n

@[simp] theorem digits_zero : digits 0 = [] :=
  if_pos rfl

theorem digits_of_pos {n : ℕ} (hn : 0 < n) : digits n = Nat.toDigits 10 n :=
  if_neg (by omega)

/-- Division by ten takes the last digit off. -/
theorem digits_split {n : ℕ} (hn : 0 < n) :
    digits n = digits (n / 10) ++ [Char.ofNat ('0'.toNat + n % 10)] := by
  by_cases hsmall : n < 10
  · rw [digits_of_pos hn, Nat.div_eq_of_lt hsmall, Nat.mod_eq_of_lt hsmall,
      Nat.toDigits_of_lt_base hsmall, digit_char hsmall, digits_zero, List.nil_append]
  · rw [digits_of_pos hn, digits_of_pos (by omega), to_digits_split (by omega)]

/-- A numeral of a number: digits with that value, without a leading zero. -/
structure IsNumeral (text : List Char) (n : ℕ) : Prop where
  ne_nil : text ≠ []
  isDigit : ∀ c ∈ text, c.isDigit = true
  no_leading_zero : text.head? = some '0' → text = ['0']
  value_eq : value text = n

/-- The value of the written digits is the number. -/
theorem value_to_digits (n : ℕ) : value (Nat.toDigits 10 n) = n := by
  rw [value, ← Nat.ofDigitChars_eq_foldl]
  exact Nat.ofDigitChars_ten_toDigits

/-- Only zero is written with a zero in front. -/
theorem no_leading_zero (n : ℕ) :
    (Nat.toDigits 10 n).head? = some '0' → Nat.toDigits 10 n = ['0'] := by
  induction n using Nat.strongRecOn with
  | ind n ih =>
      intro hzero
      by_cases hsmall : n < 10
      · rw [Nat.toDigits_of_lt_base hsmall] at hzero ⊢
        rw [Option.some.inj hzero]
      · obtain ⟨d, rest, hquot⟩ : ∃ d rest, Nat.toDigits 10 (n / 10) = d :: rest :=
          List.exists_cons_of_ne_nil Nat.toDigits_ne_nil
        have hfirst : (Nat.toDigits 10 (n / 10)).head? = some '0' := by
          rw [to_digits_split (by omega), hquot, List.cons_append, List.head?_cons] at hzero
          rw [hquot, List.head?_cons, hzero]
        have hvalue := value_to_digits (n / 10)
        rw [ih (n / 10) (by omega) hfirst] at hvalue
        have hnone : n / 10 = 0 := hvalue.symm
        omega

/-- Nothing but digits is written. -/
theorem not_mem_to_digits {c : Char} (hc : c.isDigit = false) (n : ℕ) :
    c ∉ Nat.toDigits 10 n := by
  intro hmem
  have hdigit := Nat.isDigit_of_mem_toDigits (by decide) (by decide) hmem
  exact Bool.noConfusion (hc.symm.trans hdigit)

/-- The written digits are a numeral of the number. -/
theorem is_numeral (n : ℕ) : IsNumeral (Nat.toDigits 10 n) n where
  ne_nil := Nat.toDigits_ne_nil
  isDigit _ hc := Nat.isDigit_of_mem_toDigits (by decide) (by decide) hc
  no_leading_zero := no_leading_zero n
  value_eq := value_to_digits n

end Decimal
