import Mathlib.Data.Int.Notation
import Mathlib.Data.List.Basic

/-!
# Strings in C memory

A string is a list of characters without the null character, which follows it in memory. Reading
memory beyond that character yields no value, so that a function which returns a result has not
read there.
-/

namespace CStrings

/-- The null character. -/
def nul : Char := '\x00'

/-- The contents of a null-terminated string. -/
structure CString where
  chars : List Char
  nul_not_mem : nul ∉ chars

namespace CString

/-- The characters in memory from the first one up to the terminator. -/
def memory (s : CString) : List Char :=
  s.chars ++ [nul]

@[simp] theorem memory_length (s : CString) : s.memory.length = s.chars.length + 1 := by
  simp [memory]

/-- The characters from an index on are a string again. -/
def drop (s : CString) (n : ℕ) : CString where
  chars := s.chars.drop n
  nul_not_mem hmem := s.nul_not_mem (List.mem_of_mem_drop hmem)

/-- A pointer into the string points to the rest of it. -/
theorem memory_drop (s : CString) {n : ℕ} (hn : n ≤ s.chars.length) :
    s.memory.drop n = (s.drop n).memory := by
  rw [memory, List.drop_append_of_le_length hn]
  rfl

end CString

/-- Memory at an offset from the end of a first part. -/
theorem read_after {α : Type*} (first rest : List α) (offset : ℕ) :
    (first ++ rest)[first.length + offset]? = rest[offset]? := by
  rw [List.getElem?_append_right (Nat.le_add_right _ _), Nat.add_sub_cancel_left]

/-- `strncmp(s, t, n)` on the memory at `s` and at `t`: the difference of the first characters in
which the two strings differ, among the first `n`. -/
def strncmp : List Char → List Char → ℕ → Option ℤ
  | _, _, 0 => some 0
  | c :: s, d :: t, n + 1 =>
      if c ≠ d then some (c.toNat - d.toNat) else if c = nul then some 0 else strncmp s t n
  | _, _, _ + 1 => none

/-- Comparing with a literal, up to its length, tells whether it is a prefix. -/
theorem strncmp_length (s t : List Char) (hs : nul ∉ s) (ht : nul ∉ t) :
    ∃ result, strncmp (s ++ [nul]) (t ++ [nul]) t.length = some result ∧
      (result = 0 ↔ t <+: s) := by
  induction t generalizing s with
  | nil => exact ⟨0, by simp [strncmp], by simp⟩
  | cons d t ih =>
      have hd : d ≠ nul := (List.ne_of_not_mem_cons ht).symm
      have hdiffer : ∀ c : Char, c ≠ d → ((c.toNat : ℤ) - d.toNat = 0 ↔ False) := by
        intro c hc
        rw [iff_false]
        intro hzero
        exact hc (Char.toNat_inj.mp (by omega))
      cases s with
      | nil =>
          refine ⟨nul.toNat - d.toNat, ?_, ?_⟩
          · show (if nul ≠ d then _ else _) = _
            rw [if_pos hd.symm]
          · rw [hdiffer nul hd.symm]
            simp
      | cons c s =>
          by_cases hsame : c = d
          · subst hsame
            obtain ⟨result, hresult, hbegins⟩ := ih s (List.not_mem_of_not_mem_cons hs)
              (List.not_mem_of_not_mem_cons ht)
            refine ⟨result, ?_, by rw [hbegins, List.cons_prefix_cons, and_iff_right rfl]⟩
            show (if c ≠ c then _ else if c = nul then _ else _) = _
            rw [if_neg (not_not_intro rfl), if_neg hd]
            exact hresult
          · refine ⟨c.toNat - d.toNat, ?_, ?_⟩
            · show (if c ≠ d then _ else _) = _
              rw [if_pos hsame]
            · rw [hdiffer c hsame, List.cons_prefix_cons]
              simp [Ne.symm hsame]

end CStrings
