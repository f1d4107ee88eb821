import Mathlib.Logic.Function.Basic
import ThreadMetric.Library.Transition
import ThreadMetric.Report.Printf

/-!
# The buffer of `tm_print_unsigned_long`

`tm_print_unsigned_long` stores the digits of a number into `buf` from the last to the first and
emits them in the opposite order. Here it is a machine with a step for each pass of its loops; an
access outside `buf` has no successor. Every step keeps what has been printed and what is still
pending together the numeral of the number, and the index between 0 and 20.
-/

namespace ThreadMetric.DigitBuffer

open Transition

variable {w : ℕ}

/-- Where control stands: at the test for zero, at the head of one of the loops, or at the end. -/
inductive Control where
  | entry
  | store
  | emit
  | returned
  deriving DecidableEq

/-- The local variables of `tm_print_unsigned_long`, and the characters given to `tm_putchar`.
`unsigned long` has `w` bits. -/
structure State (w : ℕ) where
  control : Control
  val : BitVec w
  buf : Fin 21 → Char
  i : ℤ
  output : List Char

/-- The element of `buf` with a given index. -/
def element? (i : ℤ) : Option (Fin 21) :=
  if h : 0 ≤ i ∧ i ≤ 20 then some ⟨i.toNat, by omega⟩ else none

/-- One step: the test for zero, or a test of a loop and its body. -/
def next (s : State w) (_ : Unit) : Option (State w) :=
  match s.control with
  | .entry =>
      if s.val = 0 then some { s with control := .returned, output := s.output ++ ['0'] }
      else some { s with control := .store }
  | .store =>
      if 0 < s.val then do
        let e ← element? s.i
        some { s with
          buf := Function.update s.buf e (Char.ofNat ('0'.toNat + (s.val % 10#w).toNat))
          i := s.i + 1
          val := s.val / 10#w }
      else some { s with control := .emit }
  | .emit =>
      if 0 < s.i then do
        let e ← element? (s.i - 1)
        some { s with i := s.i - 1, output := s.output ++ [s.buf e] }
      else some { s with control := .returned }
  | .returned => none

/-- The state at the call, where `buf` holds anything. -/
def call (val : BitVec w) (buf : Fin 21 → Char) (output : List Char) : State w :=
  ⟨.entry, val, buf, 0, output⟩

/-! ## What is still to be printed -/

/-- The first `n` elements of `buf`, the last one first. -/
def stored (buf : Fin 21 → Char) : ℕ → List Char
  | 0 => []
  | n + 1 => buf (Fin.ofNat 21 n) :: stored buf n

@[simp] theorem stored_length (buf : Fin 21 → Char) (n : ℕ) : (stored buf n).length = n := by
  induction n with
  | zero => rfl
  | succ n ih => rw [stored, List.length_cons, ih]

/-- A later element is not among them. -/
theorem stored_update (buf : Fin 21 → Char) (c : Char) {e : Fin 21} {n : ℕ} (hn : n ≤ e) :
    stored (Function.update buf e c) n = stored buf n := by
  induction n with
  | zero => rfl
  | succ n ih =>
      have hne : Fin.ofNat 21 n ≠ e := by
        intro heq
        have hval : n % 21 = e := congrArg Fin.val heq
        omega
      rw [stored, stored, Function.update_of_ne hne, ih (by omega)]

namespace State

/-- What is still to be printed. -/
def pending (s : State w) : List Char :=
  match s.control with
  | .entry => Nat.toDigits 10 s.val.toNat
  | .store => Decimal.digits s.val.toNat ++ stored s.buf s.i.toNat
  | .emit => stored s.buf s.i.toNat
  | .returned => []

/-- Printed and pending characters make up the text, and the index has not left `buf`. -/
structure Prints (text : List Char) (s : State w) : Prop where
  text_eq : s.output ++ s.pending = text
  pending_le : s.pending.length ≤ 20
  nonneg : 0 ≤ s.i
  unused : s.control = .entry ∨ s.control = .returned → s.i = 0

/-- The index is between 0 and 20. -/
theorem Prints.le {text : List Char} {s : State w} (h : s.Prints text) : s.i ≤ 20 := by
  have hpending := h.pending_le
  have hnonneg := h.nonneg
  unfold pending at hpending
  cases hcontrol : s.control with
  | entry => exact (h.unused (.inl hcontrol)).trans_le (by decide)
  | returned => exact (h.unused (.inr hcontrol)).trans_le (by decide)
  | store =>
      rw [hcontrol] at hpending
      simp only [List.length_append, stored_length] at hpending
      omega
  | emit =>
      rw [hcontrol] at hpending
      simp only [stored_length] at hpending
      omega

/-- The number of steps that may still follow. -/
def work (s : State w) : ℕ :=
  match s.control with
  | .entry => 2 * (Nat.toDigits 10 s.val.toNat).length + 3
  | .store => 2 * (Decimal.digits s.val.toNat).length + s.i.toNat + 2
  | .emit => s.i.toNat + 1
  | .returned => 0

end State

/-! ## One step -/

/-- The state goes on to one that prints the same text and has less to do. -/
def Advances (text : List Char) (s : State w) : Prop :=
  ∃ s', next s () = some s' ∧ s'.Prints text ∧ s'.work < s.work

/-- An index below 21 is that of an element. -/
theorem element_of_lt {n : ℕ} (hn : n < 21) : element? (n : ℤ) = some (Fin.ofNat 21 n) := by
  rw [element?, dif_pos (by omega), Option.some.injEq, Fin.ext_iff]
  exact (Nat.mod_eq_of_lt hn).symm

section Step

variable {text output : List Char} {val : BitVec w} {buf : Fin 21 → Char} {n : ℕ}

/-- In the first loop the digits of the rest of the number stand before the stored ones. -/
theorem store_prints :
    (State.mk .store val buf n output).Prints text ↔
      output ++ (Decimal.digits val.toNat ++ stored buf n) = text ∧
        (Decimal.digits val.toNat).length + n ≤ 20 := by
  have hlength : (State.mk .store val buf n output).pending.length =
      (Decimal.digits val.toNat).length + n := by
    show (Decimal.digits val.toNat ++ stored buf n).length = _
    rw [List.length_append, stored_length]
  constructor
  · intro h
    exact ⟨h.text_eq, hlength ▸ h.pending_le⟩
  · rintro ⟨htext, hroom⟩
    exact ⟨htext, hlength ▸ hroom, Int.natCast_nonneg n, by rintro (h | h) <;> cases h⟩

/-- In the second loop the stored digits are pending. -/
theorem emit_prints :
    (State.mk .emit val buf n output).Prints text ↔ output ++ stored buf n = text ∧ n ≤ 20 := by
  have hlength : (State.mk .emit val buf n output).pending.length = n := stored_length buf n
  constructor
  · intro h
    exact ⟨h.text_eq, hlength ▸ h.pending_le⟩
  · rintro ⟨htext, hroom⟩
    exact ⟨htext, hlength.symm ▸ hroom, Int.natCast_nonneg n, by rintro (h | h) <;> cases h⟩

/-- At the end nothing is pending. -/
theorem returned_prints (htext : output = text) :
    (State.mk .returned val buf 0 output).Prints text :=
  ⟨(List.append_nil output).trans htext, Nat.zero_le _, Int.le_refl 0, fun _ ↦ rfl⟩

/-- The test for zero. -/
theorem entry_step {i : ℤ} (h : (State.mk .entry val buf i output).Prints text) :
    Advances text (State.mk .entry val buf i output) := by
  obtain rfl : i = 0 := h.unused (.inl rfl)
  have htext : output ++ Nat.toDigits 10 val.toNat = text := h.text_eq
  have hroom : (Nat.toDigits 10 val.toNat).length ≤ 20 := h.pending_le
  by_cases hzero : val = 0
  · have hnat : val.toNat = 0 := by
      rw [hzero]
      exact BitVec.toNat_zero
    rw [hnat, Nat.toDigits_zero] at htext
    exact ⟨_, if_pos hzero, returned_prints htext, Nat.succ_pos _⟩
  · have hpos : 0 < val.toNat := by
      have hne : val.toNat ≠ 0 := fun hnat ↦ hzero (BitVec.eq_of_toNat_eq hnat)
      omega
    rw [← Decimal.digits_of_pos hpos] at htext hroom
    refine ⟨_, if_neg hzero, store_prints.mpr ⟨?_, hroom⟩, ?_⟩
    · rw [stored, List.append_nil]
      exact htext
    · show 2 * (Decimal.digits val.toNat).length + 0 + 2 <
        2 * (Nat.toDigits 10 val.toNat).length + 3
      rw [Decimal.digits_of_pos hpos]
      omega

/-- The element at the index is stored behind the others. -/
theorem stored_store (hn : n < 21) (c : Char) :
    stored (Function.update buf (Fin.ofNat 21 n) c) (n + 1) = c :: stored buf n := by
  have hlast : n ≤ (Fin.ofNat 21 n).val := by
    show n ≤ n % 21
    rw [Nat.mod_eq_of_lt hn]
  rw [stored, Function.update_self, stored_update buf c hlast]

/-- The digits of a number are those of its quotient and its remainder, which the first loop
computes in an `unsigned long`. -/
theorem digits_val (hw : 4 ≤ w) (hval : 0 < val.toNat) :
    Decimal.digits val.toNat = Decimal.digits (val / 10#w).toNat ++
      [Char.ofNat ('0'.toNat + (val % 10#w).toNat)] := by
  have hten : (10#w).toNat = 10 := by
    rw [BitVec.toNat_ofNat]
    exact Nat.mod_eq_of_lt (Nat.lt_of_lt_of_le (by decide) (Nat.pow_le_pow_right (by decide) hw))
  rw [BitVec.toNat_udiv, BitVec.toNat_umod, hten]
  exact Decimal.digits_split hval

/-- A pass of the first loop, or its end. -/
theorem store_step (hw : 4 ≤ w) (h : (State.mk .store val buf n output).Prints text) :
    Advances text (State.mk .store val buf n output) := by
  obtain ⟨htext, hroom⟩ := store_prints.mp h
  by_cases hpos : 0 < val
  · have hval : 0 < val.toNat := by simpa [BitVec.lt_def] using hpos
    have hsplit := digits_val hw hval
    generalize hc : Char.ofNat ('0'.toNat + (val % 10#w).toNat) = c at hsplit
    rw [hsplit, List.length_append, List.length_singleton] at hroom
    have hn : n < 21 := by omega
    refine ⟨⟨.store, val / 10#w, Function.update buf (Fin.ofNat 21 n) c, (n + 1 : ℕ), output⟩, ?_,
      store_prints.mpr ⟨?_, by omega⟩, ?_⟩
    · simp only [next, if_pos hpos, element_of_lt hn, hc, Option.bind_eq_bind, Option.bind_some]
      rfl
    · rw [stored_store hn, ← htext, hsplit, List.append_assoc]
      rfl
    · show 2 * (Decimal.digits (val / 10#w).toNat).length + (n + 1) + 2 <
        2 * (Decimal.digits val.toNat).length + n + 2
      rw [hsplit, List.length_append, List.length_singleton]
      omega
  · have hval : val.toNat = 0 := by
      have hnot : ¬ 0 < val.toNat := fun hnat ↦ hpos (by simpa [BitVec.lt_def] using hnat)
      omega
    rw [hval, Decimal.digits_zero, List.nil_append] at htext
    refine ⟨_, if_neg hpos, emit_prints.mpr ⟨htext, by omega⟩, ?_⟩
    show n + 1 < 2 * (Decimal.digits val.toNat).length + n + 2
    omega

/-- A pass of the second loop, or its end. -/
theorem emit_step (h : (State.mk .emit val buf n output).Prints text) :
    Advances text (State.mk .emit val buf n output) := by
  obtain ⟨htext, hroom⟩ := emit_prints.mp h
  cases n with
  | zero => exact ⟨_, rfl, returned_prints ((List.append_nil output).symm.trans htext), Nat.one_pos⟩
  | succ n =>
      have hpos : (0 : ℤ) < (n + 1 : ℕ) := by omega
      have hindex : ((n + 1 : ℕ) : ℤ) - 1 = n := by omega
      refine ⟨⟨.emit, val, buf, n, output ++ [buf (Fin.ofNat 21 n)]⟩, ?_,
        emit_prints.mpr ⟨?_, by omega⟩, Nat.lt_succ_self _⟩
      · simp only [next, if_pos hpos, hindex, element_of_lt (n := n) (by omega),
          Option.bind_eq_bind, Option.bind_some]
      · rw [← htext]
        exact List.append_assoc _ _ _

/-- Every state before the end goes on. -/
theorem advances (hw : 4 ≤ w) {s : State w} (h : s.Prints text) (hs : s.control ≠ .returned) :
    Advances text s := by
  obtain ⟨control, val, buf, i, output⟩ := s
  obtain ⟨n, rfl⟩ : ∃ n : ℕ, i = n := ⟨i.toNat, (Int.toNat_of_nonneg h.nonneg).symm⟩
  cases control with
  | entry => exact entry_step h
  | store => exact store_step hw h
  | emit => exact emit_step h
  | returned => exact absurd rfl hs

end Step

/-! ## All runs -/

/-- At the call the whole numeral is pending. -/
theorem call_prints (hw : w ≤ 64) (val : BitVec w) (buf : Fin 21 → Char) (output : List Char) :
    (call val buf output).Prints (output ++ Nat.toDigits 10 val.toNat) := by
  refine ⟨rfl, ?_, Int.le_refl 0, fun _ ↦ rfl⟩
  show (Nat.toDigits 10 val.toNat).length ≤ 20
  rw [Nat.length_toDigits_le_iff (by decide) (by decide)]
  calc val.toNat < 2 ^ w := val.isLt
    _ ≤ 2 ^ 64 := Nat.pow_le_pow_right (by decide) hw
    _ < 10 ^ 20 := by decide

/-- Every state reached prints the numeral. -/
theorem reachable_prints (hlow : 4 ≤ w) (hw : w ≤ 64) {val : BitVec w} {buf : Fin 21 → Char}
    {output : List Char} {s : State w} (hs : Reachable next (call val buf output) s) :
    s.Prints (output ++ Nat.toDigits 10 val.toNat) := by
  refine hs.invariant _ (call_prints hw val buf output) fun s _ s' h _ hnext ↦ ?_
  have hcontrol : s.control ≠ .returned := by
    intro hreturned
    rw [next, hreturned] at hnext
    cases hnext
  obtain ⟨s'', hnext', hprints, -⟩ := advances hlow h hcontrol
  rw [hnext] at hnext'
  rwa [Option.some.inj hnext']

/-- The machine comes to its end after at most 43 steps. -/
theorem call_returns (hlow : 4 ≤ w) (hw : w ≤ 64) (val : BitVec w) (buf : Fin 21 → Char)
    (output : List Char) :
    ∃ steps s, steps.length ≤ 43 ∧ run next steps (call val buf output) = some s ∧
      s.control = .returned := by
  have hstart := call_prints hw val buf output
  obtain ⟨steps, s, hlength, hrun, hreturned⟩ :=
    run_until (fun s ↦ s.control = .returned) State.work
      (fun s hs hcontrol ↦ ⟨(), advances hlow hs hcontrol⟩) hstart
  refine ⟨steps, s, ?_, hrun, hreturned⟩
  have hpending : (Nat.toDigits 10 val.toNat).length ≤ 20 := hstart.pending_le
  have hwork : (call val buf output).work = 2 * (Nat.toDigits 10 val.toNat).length + 3 := rfl
  omega

/-- At its end the machine has printed the numeral. -/
theorem returned_output (hlow : 4 ≤ w) (hw : w ≤ 64) {val : BitVec w} {buf : Fin 21 → Char}
    {output : List Char} {s : State w} (hs : Reachable next (call val buf output) s)
    (hreturned : s.control = .returned) : s.output = output ++ Nat.toDigits 10 val.toNat := by
  have htext := (reachable_prints hlow hw hs).text_eq
  rwa [State.pending, hreturned, List.append_nil] at htext

/-- The machine prints what `tmPrintUnsignedLong` prints. -/
theorem returned_refines (hlow : 4 ≤ w) (hw : w ≤ 64) (p : Printf.Printer w) {val : BitVec w}
    {buf : Fin 21 → Char} {s : State w} (hs : Reachable next (call val buf p.output) s)
    (hreturned : s.control = .returned) :
    p.tmPrintUnsignedLong val = some { p with output := s.output } := by
  rw [Printf.Printer.tm_print_unsigned_long_eq hw, returned_output hlow hw hs hreturned]
  rfl

end ThreadMetric.DigitBuffer
