import ThreadMetric.Library.Counts

/-!
# The tolerance check of the snapshot reporters

The four reporters that watch several counters copy them into a snapshot, take
`average = total / n` and print their ERROR line when some counter lies outside
`average - 1 .. average + 1`. Everything is `unsigned long` arithmetic, so the sum wraps.
`invalid_counters_eq_false_iff` says exactly for which true iteration counts the check stays
silent: while the counts of the current lap of the word fit into one word, and again for the few
totals whose average is `0`.
-/

namespace ThreadMetric.Report

open Counts

variable {w : ℕ}

/-- `total = c0 + c1 + ...`, in `unsigned long` arithmetic. -/
def total (snapshot : List (BitVec w)) : BitVec w :=
  snapshot.foldl (· + ·) 0

/-- `average = total / n`, where `n` is the number of counters in the snapshot. -/
def average (snapshot : List (BitVec w)) : BitVec w :=
  total snapshot / BitVec.ofNat w snapshot.length

/-- `(c < (average - 1)) || (c > (average + 1))`. -/
def outsideTolerance (average c : BitVec w) : Bool :=
  decide (c < average - 1) || decide (average + 1 < c)

/-- The condition under which the ERROR line is printed. The first conjunct is the source's guard
against the wraparound of `average - 1`. -/
def invalidCounters (snapshot : List (BitVec w)) : Bool :=
  decide (0 < average snapshot) && snapshot.any (outsideTolerance (average snapshot))

/-- The guard skips the check when the average is `0`. -/
theorem invalid_counters_of_average_zero {snapshot : List (BitVec w)}
    (h : (average snapshot).toNat = 0) : invalidCounters snapshot = false := by
  have hnot : ¬ 0 < average snapshot := by
    rw [BitVec.lt_def, h]
    exact Nat.not_lt_zero _
  rw [invalidCounters, decide_eq_false hnot, Bool.false_and]

/-- The `unsigned long` values of the true counts. -/
def words (w : ℕ) (counts : List ℕ) : List (BitVec w) :=
  counts.map (BitVec.ofNat w)

@[simp] theorem words_length (counts : List ℕ) : (words w counts).length = counts.length := by
  simp [words]

/-- The counts with all complete laps of the word removed from the smallest one: what the sum
would be had the counters started at the beginning of the current lap. -/
def lapTotal (w : ℕ) (counts : List ℕ) : ℕ :=
  counts.length * (smallest counts % 2 ^ w) + (counts.sum - counts.length * smallest counts)

/-- Away from the wraparounds of `average - 1` and `average + 1`, the comparison is the one on
naturals. -/
theorem outside_tolerance_iff {average c : BitVec w} (hpos : 0 < average.toNat)
    (hfit : average.toNat + 1 < 2 ^ w) :
    outsideTolerance average c = true ↔
      c.toNat + 1 < average.toNat ∨ average.toNat + 1 < c.toNat := by
  have hone : (1 : BitVec w).toNat = 1 := by
    simpa using Nat.mod_eq_of_lt (show 1 < 2 ^ w by omega)
  have hpred : (average - 1).toNat = average.toNat - 1 := by
    rw [BitVec.toNat_sub_of_le (by rw [BitVec.le_def, hone]; omega), hone]
  have hsucc : (average + 1).toNat = average.toNat + 1 := by
    rw [BitVec.toNat_add, hone, Nat.mod_eq_of_lt hfit]
  rw [outsideTolerance, Bool.or_eq_true, decide_eq_true_iff, decide_eq_true_iff, BitVec.lt_def,
    BitVec.lt_def, hpred, hsucc]
  omega

/-- The sum and `lapTotal` agree modulo the word size. -/
theorem lap_total_mod {counts : List ℕ} (hlow : counts.length * smallest counts ≤ counts.sum) :
    lapTotal w counts % 2 ^ w = counts.sum % 2 ^ w := by
  calc lapTotal w counts % 2 ^ w
      = (counts.length * smallest counts + (counts.sum - counts.length * smallest counts))
          % 2 ^ w := by
        rw [lapTotal, Nat.add_mod, Nat.mul_mod, Nat.mod_mod, ← Nat.mul_mod, ← Nat.add_mod]
    _ = counts.sum % 2 ^ w := by rw [Nat.add_sub_cancel' hlow]

/-- The average that the reporter computes. -/
theorem average_words {counts : List ℕ} (hlow : counts.length * smallest counts ≤ counts.sum)
    (hlen : counts.length < 2 ^ w) :
    (average (words w counts)).toNat = lapTotal w counts % 2 ^ w / counts.length := by
  rw [average, BitVec.toNat_udiv, words_length, BitVec.toNat_ofNat, Nat.mod_eq_of_lt hlen, total,
    words, foldl_add_of_nat, BitVec.toNat_ofNat, lap_total_mod hlow]

/-- As long as the lap total fits into a word, the average is the smallest count of the lap and
no counter lies outside the tolerance. -/
theorem invalid_counters_of_fit {counts : List ℕ} (hbal : Balanced counts)
    (hlen : 2 ≤ counts.length) (hsmall : counts.length < 2 ^ w)
    (hfit : lapTotal w counts < 2 ^ w) : invalidCounters (words w counts) = false := by
  have hne : counts ≠ [] := by rintro rfl; simp at hlen
  obtain ⟨hlow, hhigh⟩ := hbal.sum_bounds hne
  have havg : (average (words w counts)).toNat = smallest counts % 2 ^ w := by
    rw [average_words hlow hsmall, Nat.mod_eq_of_lt hfit, lapTotal,
      Nat.mul_add_div (by omega), Nat.div_eq_of_lt (by omega), Nat.add_zero]
  have hlap : 2 * (smallest counts % 2 ^ w) ≤ counts.length * (smallest counts % 2 ^ w) :=
    Nat.mul_le_mul_right _ hlen
  have hword : counts.length * (smallest counts % 2 ^ w) < 2 ^ w :=
    lt_of_le_of_lt (Nat.le_add_right _ _) hfit
  by_cases hzero : smallest counts % 2 ^ w = 0
  · exact invalid_counters_of_average_zero (havg.trans hzero)
  · have hinside : ∀ c ∈ words w counts,
        outsideTolerance (average (words w counts)) c = false := by
      intro c hc
      obtain ⟨x, hx, rfl⟩ := List.mem_map.mp hc
      rw [Bool.eq_false_iff, ne_eq, outside_tolerance_iff (by omega) (by omega), havg,
        BitVec.toNat_ofNat]
      -- a successor of the smallest count starts no new lap, because the lap total fits
      rcases hbal.eq_or_succ hne hx with rfl | rfl
      · omega
      · have hsucc : (smallest counts + 1) % 2 ^ w = smallest counts % 2 ^ w + 1 := by
          rw [Nat.add_mod, Nat.mod_eq_of_lt (show 1 < 2 ^ w by omega), Nat.mod_eq_of_lt (by omega)]
        omega
    simp only [invalidCounters, Bool.and_eq_false_iff, List.any_eq_false]
    exact .inr fun c hc ↦ by simp [hinside c hc]

/-- Once the lap total overflows the word, the wrapped average falls short of the smallest count
by more than one, so the check stays silent only when that average is `0`. -/
theorem invalid_counters_of_overflow {counts : List ℕ} (hbal : Balanced counts)
    (hne : counts ≠ []) (hsmall : 2 * counts.length ≤ 2 ^ w)
    (hover : 2 ^ w ≤ lapTotal w counts) :
    invalidCounters (words w counts) = false ↔ counts.sum % 2 ^ w < counts.length := by
  obtain ⟨hlow, hhigh⟩ := hbal.sum_bounds hne
  have hpos : 0 < counts.length := List.length_pos_iff.mpr hne
  have havg := average_words (w := w) hlow (by omega)
  have hsum : lapTotal w counts % 2 ^ w = counts.sum % 2 ^ w := lap_total_mod hlow
  by_cases hzero : lapTotal w counts % 2 ^ w < counts.length
  · have hsilent := invalid_counters_of_average_zero (havg.trans (Nat.div_eq_of_lt hzero))
    simpa [hsilent, ← hsum] using hzero
  · -- the average `a` satisfies `n * a ≤ n * m + k - 2 ^ w`, hence `a + 1 < m`
    have hmul : counts.length * (average (words w counts)).toNat ≤ lapTotal w counts % 2 ^ w := by
      rw [havg]
      exact Nat.mul_div_le _ _
    have hwrap : lapTotal w counts % 2 ^ w + 2 ^ w ≤ lapTotal w counts := by
      rw [Nat.mod_eq_sub_mod hover]
      have := Nat.mod_le (lapTotal w counts - 2 ^ w) (2 ^ w)
      omega
    have hfar : (average (words w counts)).toNat + 1 < smallest counts % 2 ^ w := by
      have hlt : counts.length * ((average (words w counts)).toNat + 1) <
          counts.length * (smallest counts % 2 ^ w) := by
        rw [Nat.mul_add, Nat.mul_one]
        unfold lapTotal at hwrap hmul
        omega
      exact Nat.lt_of_mul_lt_mul_left hlt
    have hone : 0 < (average (words w counts)).toNat := by
      rw [havg]
      exact Nat.div_pos (by omega) hpos
    have hlt : smallest counts % 2 ^ w < 2 ^ w := Nat.mod_lt _ (by omega)
    have hout : outsideTolerance (average (words w counts))
        (BitVec.ofNat w (smallest counts)) = true := by
      rw [outside_tolerance_iff hone (by omega), BitVec.toNat_ofNat]
      exact .inr hfar
    have hmem : BitVec.ofNat w (smallest counts) ∈ words w counts :=
      List.mem_map_of_mem (smallest_spec hne).1
    have herror : invalidCounters (words w counts) = true := by
      simp only [invalidCounters, Bool.and_eq_true, decide_eq_true_eq, List.any_eq_true]
      exact ⟨by rw [BitVec.lt_def]; simpa using hone, _, hmem, hout⟩
    rw [herror, ← hsum]
    simpa using hzero

/-- A sum that fits into the word raises no alarm. -/
theorem invalid_counters_of_sum_lt {counts : List ℕ} (hbal : Balanced counts)
    (hlen : 2 ≤ counts.length) (hsmall : counts.length < 2 ^ w) (hsum : counts.sum < 2 ^ w) :
    invalidCounters (words w counts) = false := by
  have hne : counts ≠ [] := by rintro rfl; simp at hlen
  refine invalid_counters_of_fit hbal hlen hsmall (lt_of_le_of_lt ?_ hsum)
  calc lapTotal w counts
      ≤ counts.length * smallest counts + (counts.sum - counts.length * smallest counts) :=
        Nat.add_le_add_right (Nat.mul_le_mul_left _ (Nat.mod_le _ _)) _
    _ = counts.sum := Nat.add_sub_cancel' (hbal.sum_bounds hne).1

/-- For the counter numbers of the four snapshot reporters and true counts of any size that differ
pairwise by at most one, the check prints no ERROR line exactly when the lap total fits into an
`unsigned long` or the wrapped sum is smaller than the number of counters. -/
theorem invalid_counters_eq_false_iff {n : ℕ} {counts : List ℕ} (hw : 32 ≤ w)
    (hn : n = 5 ∨ n = 3 ∨ n = 2) (hlen : counts.length = n) (hbal : Balanced counts) :
    invalidCounters (words w counts) = false ↔
      lapTotal w counts < 2 ^ w ∨ counts.sum % 2 ^ w < n := by
  have hword : 2 ^ 32 ≤ 2 ^ w := Nat.pow_le_pow_right (by omega) hw
  have hne : counts ≠ [] := by rintro rfl; simp at hlen; omega
  by_cases hfit : lapTotal w counts < 2 ^ w
  · simpa [hfit] using invalid_counters_of_fit hbal (by omega) (by omega) hfit
  · rw [invalid_counters_of_overflow hbal hne (by omega) (by omega), hlen]
    exact ⟨.inr, fun h ↦ h.resolve_left hfit⟩

/-- The check on five small counters: the counts fit, and the check is silent. -/
theorem invalid_counters_eq_false_iff_five :
    (invalidCounters (words 32 [7, 7, 8, 7, 8]) = false ↔
      lapTotal 32 [7, 7, 8, 7, 8] < 2 ^ 32 ∨ [7, 7, 8, 7, 8].sum % 2 ^ 32 < 5) ∧
    lapTotal 32 [7, 7, 8, 7, 8] < 2 ^ 32 :=
  ⟨invalid_counters_eq_false_iff (by decide) (.inl rfl) rfl (by decide), by decide⟩

/-- Five counters that are all equal to `858993461` make the 32-bit sum wrap to `9`: the average
is `1`, and the reporter prints its ERROR line although the counters agree. -/
theorem equal_counters_raise_alarm :
    ¬ ∀ (w n : ℕ) (counts : List ℕ), w = 32 ∨ w = 64 → n = 5 ∨ n = 3 ∨ n = 2 →
      counts.length = n → Balanced counts → invalidCounters (words w counts) = false := by
  intro h
  have halarm := h 32 5 (List.replicate 5 858993461) (.inl rfl) (.inl rfl) rfl (by decide)
  revert halarm
  decide

end ThreadMetric.Report
