import Mathlib.Algebra.BigOperators.Group.List.Basic
import Mathlib.Algebra.Order.BigOperators.Group.List
import Mathlib.Data.List.MinMax
import Mathlib.Tactic.Linarith

/-!
# Balanced counts and their machine-word images

A list of natural counts is balanced when any two of its members differ by at most one. Such a
list is fixed, up to order, by its smallest member and its sum: `le_sum` and `sum_lt` place the
sum in `[n * m, n * m + n)`. The second half relates sums of `BitVec` words to sums of the
naturals they abbreviate.
-/

namespace Counts

/-- Any two of the counts differ by at most one. -/
def Balanced (counts : List ℕ) : Prop :=
  ∀ x ∈ counts, ∀ y ∈ counts, x ≤ y + 1

/-- `Balanced` is decidable by comparing all pairs. -/
instance (counts : List ℕ) : Decidable (Balanced counts) :=
  inferInstanceAs (Decidable (∀ x ∈ counts, ∀ y ∈ counts, x ≤ y + 1))

/-- Values that differ pairwise by at most one, listed in any order, are balanced. -/
theorem balanced_map {κ : Type*} {value : κ → ℕ} (h : ∀ j k, value j ≤ value k + 1)
    (indices : List κ) : Balanced (indices.map value) := by
  intro x hx y hy
  obtain ⟨j, -, rfl⟩ := List.mem_map.mp hx
  obtain ⟨k, -, rfl⟩ := List.mem_map.mp hy
  exact h j k

/-- The smallest count, `0` for the empty list. -/
def smallest (counts : List ℕ) : ℕ := counts.min?.getD 0

variable {counts : List ℕ}

/-- The smallest count of a nonempty list is one of them and bounds all of them. -/
theorem smallest_spec (hne : counts ≠ []) :
    smallest counts ∈ counts ∧ ∀ x ∈ counts, smallest counts ≤ x := by
  obtain ⟨m, hm⟩ : ∃ m, counts.min? = some m :=
    Option.ne_none_iff_exists'.mp (by simpa [List.min?_eq_none_iff] using hne)
  have h := List.min?_eq_some_iff.mp hm
  simpa [smallest, hm] using h

/-- A balanced count is the smallest one or its successor. -/
theorem Balanced.eq_or_succ (h : Balanced counts) (hne : counts ≠ []) {x : ℕ}
    (hx : x ∈ counts) : x = smallest counts ∨ x = smallest counts + 1 := by
  have hlow := (smallest_spec hne).2 x hx
  have hhigh := h x hx _ (smallest_spec hne).1
  omega

/-- The sum is at least the length times a lower bound. -/
theorem le_sum {m : ℕ} (hlow : ∀ x ∈ counts, m ≤ x) : counts.length * m ≤ counts.sum := by
  simpa using List.card_nsmul_le_sum counts m hlow

/-- If every count is `m` or `m + 1` and one of them is `m`, the sum stays below
`length * m + length`. -/
theorem sum_lt {m : ℕ} (hmem : m ∈ counts) (hhigh : ∀ x ∈ counts, x ≤ m + 1) :
    counts.sum < counts.length * m + counts.length := by
  have h := List.sum_lt_sum id (fun _ ↦ m + 1) hhigh ⟨m, hmem, by simp⟩
  simpa [Nat.mul_add] using h

/-- With `m` the smallest of `n` balanced counts, the sum lies in `[n * m, n * m + n)`. -/
theorem Balanced.sum_bounds (h : Balanced counts) (hne : counts ≠ []) :
    counts.length * smallest counts ≤ counts.sum ∧
      counts.sum < counts.length * smallest counts + counts.length :=
  ⟨le_sum (smallest_spec hne).2,
    sum_lt (smallest_spec hne).1 fun x hx ↦ h x hx _ (smallest_spec hne).1⟩

/-- Adding words one after the other adds the naturals modulo the word size. -/
theorem to_nat_foldl_add {w : ℕ} (words : List (BitVec w)) (start : BitVec w) :
    (words.foldl (· + ·) start).toNat = (start.toNat + (words.map BitVec.toNat).sum) % 2 ^ w := by
  induction words generalizing start with
  | nil => simp
  | cons word rest ih =>
      rw [List.foldl_cons, ih, BitVec.toNat_add, List.map_cons, List.sum_cons, Nat.mod_add_mod,
        Nat.add_assoc]

/-- The sum of the residues has the residue of the sum. -/
theorem sum_map_mod (counts : List ℕ) (b : ℕ) :
    (counts.map (· % b)).sum % b = counts.sum % b := by
  induction counts with
  | nil => rfl
  | cons x rest ih =>
      rw [List.map_cons, List.sum_cons, List.sum_cons, Nat.mod_add_mod, Nat.add_mod, ih,
        ← Nat.add_mod]

/-- Summing the words that abbreviate the counts gives the word that abbreviates their sum. -/
theorem foldl_add_of_nat {w : ℕ} (counts : List ℕ) :
    (counts.map (BitVec.ofNat w)).foldl (· + ·) 0 = BitVec.ofNat w counts.sum := by
  apply BitVec.eq_of_toNat_eq
  rw [to_nat_foldl_add, List.map_map]
  simpa [Function.comp_def] using sum_map_mod counts (2 ^ w)

end Counts
