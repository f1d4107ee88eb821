import Mathlib.Data.List.TakeWhile
import ThreadMetric.Library.CString
import ThreadMetric.Library.Decimal

/-!
# `strtol`

The conversion of the C standard for base ten and a `long` of `width` bits. A text is cut into
leading blanks, an optional sign, digits and the rest; the result is the value, the offset at which
`*endptr` stands, and `errno`. `wholly_converted_iff` relates it to the numerals that make up a
whole string, which do not depend on the width.
-/

namespace CStrings

/-- The characters that `isspace` accepts in the `C` locale. -/
def blanks : List Char := [' ', '\t', '\n', '\x0b', '\x0c', '\r']

/-- `isspace`. -/
def isSpace (c : Char) : Bool :=
  c ∈ blanks

/-- The parts of a text that begins with a numeral. -/
structure Parts where
  spaces : List Char
  sign : List Char
  digits : List Char
  rest : List Char

/-- The sign at the beginning of a text, if there is one. -/
def leadingSign : List Char → List Char
  | [] => []
  | c :: _ => if c = '-' ∨ c = '+' then [c] else []

/-- Cut a text into its parts. -/
def parts (text : List Char) : Parts :=
  let subject := text.dropWhile isSpace
  let unsigned := subject.drop (leadingSign subject).length
  { spaces := text.takeWhile isSpace
    sign := leadingSign subject
    digits := unsigned.takeWhile Char.isDigit
    rest := unsigned.dropWhile Char.isDigit }

namespace Parts

/-- The value of a numeral. -/
def value (p : Parts) : ℤ :=
  if p.sign = ['-'] then -(Decimal.value p.digits : ℤ) else Decimal.value p.digits

/-- The length of the numeral with the blanks before it. -/
def length (p : Parts) : ℕ :=
  p.spaces.length + p.sign.length + p.digits.length

end Parts

/-- `ERANGE`. -/
def erange : ℕ := 34

/-- What `strtol` returns, the offset of `*endptr`, and the value of `errno` afterwards. -/
structure Conversion where
  val : ℤ
  stop : ℕ
  errno : ℕ

/-- The conversion of a text with the given parts. A text without digits is not converted, and a
value that does not fit into a `long` is replaced by the nearest one that does. -/
def Parts.convert (width : ℕ) (p : Parts) (errno : ℕ) : Conversion :=
  if p.digits = [] then ⟨0, 0, errno⟩
  else if p.value < -2 ^ (width - 1) then ⟨-2 ^ (width - 1), p.length, erange⟩
  else if 2 ^ (width - 1) ≤ p.value then ⟨2 ^ (width - 1) - 1, p.length, erange⟩
  else ⟨p.value, p.length, errno⟩

/-- `strtol(text, &end, 10)`. -/
def strtol (width : ℕ) (text : List Char) (errno : ℕ) : Conversion :=
  (parts text).convert width errno

/-- The value of a text that is a numeral as a whole. -/
def numeral? (text : List Char) : Option ℤ :=
  if (parts text).digits ≠ [] ∧ (parts text).rest = [] then some (parts text).value else none

/-- A numeral: blanks, an optional sign, and at least one digit. -/
structure Numeral (text : List Char) (p : Parts) : Prop where
  spelling : text = p.spaces ++ (p.sign ++ (p.digits ++ p.rest))
  spaces : ∀ c ∈ p.spaces, isSpace c = true
  sign : p.sign = [] ∨ p.sign = ['-'] ∨ p.sign = ['+']
  digits : ∀ c ∈ p.digits, c.isDigit = true
  some_digit : p.digits ≠ []
  whole : p.rest = []

/-- The parts of a text spell it. -/
theorem parts_spelling (text : List Char) :
    text = (parts text).spaces ++
      ((parts text).sign ++ ((parts text).digits ++ (parts text).rest)) := by
  have hsign : ∀ subject : List Char,
      leadingSign subject ++ subject.drop (leadingSign subject).length = subject := by
    intro subject
    cases subject with
    | nil => rfl
    | cons c subject => by_cases hc : c = '-' ∨ c = '+' <;> simp [leadingSign, hc]
  simp only [parts, List.takeWhile_append_dropWhile, hsign]

/-- A character without the property ends the part of a list that has it. -/
theorem take_while_stop {p : Char → Bool} {stop : Char} (hstop : p stop = false)
    (text : List Char) : (text ++ [stop]).takeWhile p = text.takeWhile p := by
  induction text with
  | nil => simp [hstop]
  | cons c text ih => by_cases hc : p c <;> simp [hc, ih]

/-- A character without the property stays in the rest. -/
theorem drop_while_stop {p : Char → Bool} {stop : Char} (hstop : p stop = false)
    (text : List Char) : (text ++ [stop]).dropWhile p = text.dropWhile p ++ [stop] := by
  induction text with
  | nil => simp [hstop]
  | cons c text ih => by_cases hc : p c <;> simp [hc, ih]

/-- The terminator adds to the rest only. -/
theorem parts_terminated (text : List Char) :
    parts (text ++ [nul]) = { parts text with rest := (parts text).rest ++ [nul] } := by
  have hspace : isSpace nul = false := by decide
  have hdigit : nul.isDigit = false := by decide
  have hsign : ∀ subject : List Char,
      leadingSign (subject ++ [nul]) = leadingSign subject ∧
      (leadingSign subject).length ≤ subject.length := by
    intro subject
    cases subject with
    | nil => exact ⟨by decide, Nat.le_refl 0⟩
    | cons c subject => by_cases hc : c = '-' ∨ c = '+' <;> simp [leadingSign, hc]
  obtain ⟨hsame, hshort⟩ := hsign (text.dropWhile isSpace)
  simp only [parts, drop_while_stop hspace, take_while_stop hspace, hsame,
    List.drop_append_of_le_length hshort, drop_while_stop hdigit, take_while_stop hdigit]

/-- Behind the numeral stands the terminator exactly if the text has no rest. -/
theorem read_behind_numeral (s : CString) :
    s.memory[(parts s.chars).length]? = some nul ↔ (parts s.chars).rest = [] := by
  have hspelling := parts_spelling s.chars
  have hnul := s.nul_not_mem
  generalize parts s.chars = p at hspelling
  have hmemory : s.memory = (p.spaces ++ p.sign ++ p.digits) ++ (p.rest ++ [nul]) := by
    rw [CString.memory, hspelling]
    simp
  have hlength : p.length = (p.spaces ++ p.sign ++ p.digits).length + 0 := by
    simp [Parts.length, Nat.add_assoc]
  rw [hmemory, hlength, read_after]
  cases hrest : p.rest with
  | nil => simp
  | cons c rest =>
      have hc : c ≠ nul := by
        rintro rfl
        apply hnul
        rw [hspelling, hrest]
        simp
      simp [hc]

/-- The conversion of a string does not depend on its terminator. -/
theorem strtol_memory (width : ℕ) (s : CString) (errno : ℕ) :
    strtol width s.memory errno = (parts s.chars).convert width errno := by
  rw [strtol, CString.memory, parts_terminated]
  rfl

/-- A call with a clear `errno` leaves it clear, moves `*endptr` to the terminator and returns the
given value. -/
def WhollyConverted (width : ℕ) (s : CString) (v : ℤ) : Prop :=
  (strtol width s.memory 0).errno = 0 ∧ (strtol width s.memory 0).stop ≠ 0 ∧
    s.memory[(strtol width s.memory 0).stop]? = some nul ∧ (strtol width s.memory 0).val = v

/-- The strings that are converted as a whole are the numerals whose value fits into a `long`. -/
theorem wholly_converted_iff {width : ℕ} {s : CString} {v : ℤ} :
    WhollyConverted width s v ↔
      numeral? s.chars = some v ∧ -2 ^ (width - 1) ≤ v ∧ v < 2 ^ (width - 1) := by
  have hread := read_behind_numeral s
  rw [WhollyConverted, strtol_memory, numeral?]
  generalize parts s.chars = p at hread
  unfold Parts.convert
  by_cases hnone : p.digits = []
  · simp [hnone]
  · have hmoved : p.length ≠ 0 := by
      have := List.length_pos_iff.mpr hnone
      unfold Parts.length
      omega
    rw [if_neg hnone, Option.ite_none_right_eq_some, Option.some.injEq, and_iff_right hnone]
    by_cases hlow : p.value < -2 ^ (width - 1)
    · rw [if_pos hlow]
      constructor
      · rintro ⟨herrno, -⟩
        exact absurd herrno (show erange ≠ 0 by decide)
      · rintro ⟨⟨-, rfl⟩, hv, -⟩
        omega
    · by_cases hhigh : 2 ^ (width - 1) ≤ p.value
      · rw [if_neg hlow, if_pos hhigh]
        constructor
        · rintro ⟨herrno, -⟩
          exact absurd herrno (show erange ≠ 0 by decide)
        · rintro ⟨⟨-, rfl⟩, -, hv⟩
          omega
      · rw [if_neg hlow, if_neg hhigh]
        constructor
        · rintro ⟨-, -, hstop, hval⟩
          obtain rfl : p.value = v := hval
          exact ⟨⟨hread.mp hstop, rfl⟩, by omega, by omega⟩
        · rintro ⟨⟨hrest, rfl⟩, -⟩
          exact ⟨rfl, hmoved, hread.mpr hrest, rfl⟩

/-! ## Numerals -/

/-- A list is cut where its first part ends, if the rest does not begin with a character of the
kind that the first part consists of. -/
theorem cut_append {p : Char → Bool} {first rest : List Char} (hfirst : ∀ c ∈ first, p c = true)
    (hrest : ∀ c ∈ rest.head?, p c = false) :
    (first ++ rest).takeWhile p = first ∧ (first ++ rest).dropWhile p = rest := by
  rw [List.takeWhile_append_of_pos hfirst, List.dropWhile_append_of_pos hfirst]
  cases rest with
  | nil => simp
  | cons c rest =>
      have hc : p c = false := hrest c rfl
      simp [hc]

/-- Digits are neither blanks nor signs. -/
theorem digit_cases {c : Char} (hc : c.isDigit = true) : isSpace c = false ∧ c ≠ '-' ∧ c ≠ '+' := by
  refine ⟨?_, ?_, ?_⟩
  · have hblanks : blanks.any Char.isDigit = false := rfl
    rw [isSpace, decide_eq_false_iff_not]
    intro hmem
    exact List.any_eq_false.mp hblanks c hmem hc
  · rintro rfl
    revert hc
    decide
  · rintro rfl
    revert hc
    decide

/-- A text begins with no sign or with one of the two signs. -/
theorem leading_sign_cases (subject : List Char) :
    leadingSign subject = [] ∨ leadingSign subject = ['-'] ∨ leadingSign subject = ['+'] := by
  cases subject with
  | nil => exact .inl rfl
  | cons c subject =>
      by_cases hc : c = '-' ∨ c = '+'
      · rcases hc with rfl | rfl
        · exact .inr (.inl rfl)
        · exact .inr (.inr rfl)
      · exact .inl (if_neg hc)

/-- The parts of a text that a numeral spells. -/
theorem Numeral.parts_eq {text : List Char} {p : Parts} (h : Numeral text p) : parts text = p := by
  obtain ⟨spaces, sign, digits, rest⟩ := p
  obtain ⟨rfl, hspaces, hsign, hdigits, hsome, rfl⟩ := h
  obtain ⟨d, ds, rfl⟩ := List.exists_cons_of_ne_nil hsome
  obtain ⟨hspace, hminus, hplus⟩ := digit_cases (hdigits d (List.mem_cons_self ..))
  have hhead : ∀ c ∈ (sign ++ (d :: ds ++ [])).head?, isSpace c = false := by
    intro c hc
    rcases hsign with rfl | rfl | rfl
    · obtain rfl : d = c := by simpa using hc
      exact hspace
    · obtain rfl : '-' = c := by simpa using hc
      decide
    · obtain rfl : '+' = c := by simpa using hc
      decide
  have hlead : leadingSign (sign ++ (d :: ds ++ [])) = sign := by
    rcases hsign with rfl | rfl | rfl <;> simp [leadingSign, hminus, hplus]
  obtain ⟨htake, hdrop⟩ := cut_append hspaces hhead
  obtain ⟨htake', hdrop'⟩ : (d :: ds ++ []).takeWhile Char.isDigit = d :: ds ∧
      (d :: ds ++ []).dropWhile Char.isDigit = [] := cut_append hdigits (by simp)
  simp only [parts, htake, hdrop, hlead, List.drop_left, htake', hdrop']

/-- A numeral is converted as a whole. -/
theorem Numeral.length_eq {text : List Char} {p : Parts} (h : Numeral text p) :
    p.length = text.length := by
  rw [h.spelling, h.whole, Parts.length]
  simp only [List.length_append, List.length_nil]
  omega

/-- `numeral?` accepts exactly the numerals. -/
theorem numeral_eq_some_iff {text : List Char} {v : ℤ} :
    numeral? text = some v ↔ ∃ p, Numeral text p ∧ p.value = v := by
  unfold numeral?
  constructor
  · intro h
    obtain ⟨⟨hsome, hwhole⟩, hv⟩ := Option.ite_none_right_eq_some.mp h
    refine ⟨parts text, ⟨parts_spelling text, ?_, ?_, ?_, hsome, hwhole⟩, Option.some.inj hv⟩
    · intro c hc
      exact List.mem_takeWhile_imp hc
    · exact leading_sign_cases (text.dropWhile isSpace)
    · intro c hc
      exact List.mem_takeWhile_imp hc
  · rintro ⟨p, hp, rfl⟩
    rw [hp.parts_eq, if_pos ⟨hp.some_digit, hp.whole⟩]

/-! ## Written numbers -/

/-- The numeral that is written for an integer has its value. -/
theorem numeral_of_int (z : ℤ) : ∃ p, Numeral (Decimal.ofInt z) p ∧ p.value = z := by
  obtain ⟨hsome, hdigits, -, hvalue⟩ := Decimal.is_numeral z.natAbs
  have hspaces : ∀ c ∈ ([] : List Char), isSpace c = true := fun c hc ↦ absurd hc List.not_mem_nil
  by_cases hneg : z < 0
  · refine ⟨⟨[], ['-'], Nat.toDigits 10 z.natAbs, []⟩,
      ⟨?_, hspaces, .inr (.inl rfl), hdigits, hsome, rfl⟩, ?_⟩
    · rw [Decimal.ofInt, if_pos hneg, List.append_nil]
      rfl
    · rw [Parts.value, if_pos rfl, hvalue]
      omega
  · refine ⟨⟨[], [], Nat.toDigits 10 z.natAbs, []⟩,
      ⟨?_, hspaces, .inl rfl, hdigits, hsome, rfl⟩, ?_⟩
    · rw [Decimal.ofInt, if_neg hneg, List.append_nil]
      rfl
    · rw [Parts.value, if_neg (List.cons_ne_nil _ _).symm, hvalue]
      omega

/-- No null character stands in the numeral of an integer. -/
theorem nul_not_mem_of_int (z : ℤ) : nul ∉ Decimal.ofInt z := by
  have hdigits : nul ∉ Nat.toDigits 10 z.natAbs := Decimal.not_mem_to_digits rfl _
  have hsign : nul ≠ '-' := by decide
  unfold Decimal.ofInt
  split
  · exact List.not_mem_cons_of_ne_of_not_mem hsign hdigits
  · exact hdigits

/-- `strtol` reads the numeral of an integer that fits into a `long` as a whole. -/
theorem strtol_of_int {width : ℕ} {z : ℤ} (hlow : -2 ^ (width - 1) ≤ z)
    (hhigh : z < 2 ^ (width - 1)) {s : CString} (hs : s.chars = Decimal.ofInt z) (errno : ℕ) :
    strtol width s.memory errno = ⟨z, s.chars.length, errno⟩ := by
  obtain ⟨p, hp, hvalue⟩ := numeral_of_int z
  rw [strtol_memory, hs, hp.parts_eq, Parts.convert, if_neg hp.some_digit, hvalue,
    if_neg (by omega), if_neg (by omega), hp.length_eq]

/-- A larger one is converted to `LONG_MAX`. -/
theorem strtol_of_large {width : ℕ} {z : ℤ} (hlarge : 2 ^ (width - 1) ≤ z) {s : CString}
    (hs : s.chars = Decimal.ofInt z) (errno : ℕ) :
    strtol width s.memory errno = ⟨2 ^ (width - 1) - 1, s.chars.length, erange⟩ := by
  obtain ⟨p, hp, hvalue⟩ := numeral_of_int z
  have hpos : (0 : ℤ) < 2 ^ (width - 1) := Int.pow_pos (by decide)
  rw [strtol_memory, hs, hp.parts_eq, Parts.convert, if_neg hp.some_digit, hvalue,
    if_neg (by omega), if_pos hlarge, hp.length_eq]

/-- The numeral of an integer is converted as a whole exactly if it fits into a `long`. -/
theorem wholly_converted_of_int {width : ℕ} {z : ℤ} {s : CString}
    (hs : s.chars = Decimal.ofInt z) :
    WhollyConverted width s z ↔ -2 ^ (width - 1) ≤ z ∧ z < 2 ^ (width - 1) := by
  rw [wholly_converted_iff, hs, and_iff_right (numeral_eq_some_iff.mpr (numeral_of_int z))]

end CStrings
