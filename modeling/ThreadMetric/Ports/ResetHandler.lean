import ThreadMetric.Library.Thumb

/-!
# The reset handler of the Cortex-M ports

`Reset_Handler` copies the initial values of the global variables from flash to RAM, clears the
variables without one, and calls `main` with no arguments. `Sections` is what the linker script
says about the addresses that it uses. `reset_handler_calls_main` shows that from any contents of
registers and RAM the handler arrives at the call of `main`, and what it has made of the memory.
-/

namespace ThreadMetric.ResetHandler

open ByteMemory Thumb Transition

/-! ## The program -/

/-- The labels of `startup.S`. `main` is not defined there. -/
inductive Label where
  | resetHandler
  | copyLoop
  | copyCheck
  | zeroLoop
  | zeroCheck
  | hang
  | systemInit
  | main
  deriving DecidableEq

/-- `LENGTH` of `FLASH`, which begins at address 0. -/
def flashLength : ℕ := 0x00400000

/-- `ORIGIN` of `RAM`. -/
def ramOrigin : ℕ := 0x20000000

/-- `_estack`, the end of `RAM`. -/
def estack : ℕ := ramOrigin + 0x00400000

/-- The addresses that the linker script gives to the sections. It aligns the ends of `.data` and
`.bss` to words, places `.bss` behind `.data` in RAM, and the initial values of `.data` in flash. -/
structure Sections where
  sidata : BitVec 32
  sdata : BitVec 32
  edata : BitVec 32
  sbss : BitVec 32
  ebss : BitVec 32
  sdata_aligned : 4 ∣ sdata.toNat
  edata_aligned : 4 ∣ edata.toNat
  sbss_aligned : 4 ∣ sbss.toNat
  ebss_aligned : 4 ∣ ebss.toNat
  ram_origin_le_sdata : ramOrigin ≤ sdata.toNat
  sdata_le_edata : sdata.toNat ≤ edata.toNat
  edata_le_sbss : edata.toNat ≤ sbss.toNat
  sbss_le_ebss : sbss.toNat ≤ ebss.toNat
  ebss_le_estack : ebss.toNat ≤ estack
  sidata_fits : sidata.toNat + (edata.toNat - sdata.toNat) ≤ flashLength

/-- `Reset_Handler` and the default `SystemInit`. -/
def program (s : Sections) : List (Line Label) :=
  [.label .resetHandler,
    .instr (.ldrLiteral .r0 s.sdata),
    .instr (.ldrLiteral .r1 s.edata),
    .instr (.ldrLiteral .r2 s.sidata),
    .instr (.b .copyCheck),
  .label .copyLoop,
    .instr (.ldrPost .r3 .r2 4),
    .instr (.strPost .r3 .r0 4),
  .label .copyCheck,
    .instr (.cmp .r0 .r1),
    .instr (.blo .copyLoop),
    .instr (.ldrLiteral .r0 s.sbss),
    .instr (.ldrLiteral .r1 s.ebss),
    .instr (.movs .r2 0),
    .instr (.b .zeroCheck),
  .label .zeroLoop,
    .instr (.strPost .r2 .r0 4),
  .label .zeroCheck,
    .instr (.cmp .r0 .r1),
    .instr (.blo .zeroLoop),
    .instr (.bl .systemInit),
    .instr (.movs .r0 0),
    .instr (.movs .r1 0),
    .instr (.bl .main),
  .label .hang,
    .instr (.b .hang),
  .label .systemInit,
    .instr .bxLr]

/-- One step of the processor. -/
abbrev next (s : Sections) : Cpu → Unit → Option Cpu := Cpu.next (program s)

/-! ## The loops -/

/-- The bytes of `.data`. -/
def Sections.dataLength (s : Sections) : ℕ := s.edata.toNat - s.sdata.toNat

/-- The bytes of `.bss`. -/
def Sections.bssLength (s : Sections) : ℕ := s.ebss.toNat - s.sbss.toNat

/-- At the check of the copy loop `n` words have been copied and `left` words are left. -/
structure Copying (s : Sections) (before : Memory) (n left : ℕ) (cpu : Cpu) : Prop where
  pc : cpu.pc = 8
  words : s.dataLength = 4 * (n + left)
  r0 : (cpu.reg .r0).toNat = s.sdata.toNat + 4 * n
  r1 : cpu.reg .r1 = s.edata
  r2 : (cpu.reg .r2).toNat = s.sidata.toNat + 4 * n
  memory : cpu.memory = copied before s.sidata.toNat s.sdata.toNat (4 * n)

/-- At the check of the loop over `.bss` `n` words have been cleared and `left` words are left. -/
structure Clearing (s : Sections) (before : Memory) (n left : ℕ) (cpu : Cpu) : Prop where
  pc : cpu.pc = 17
  words : s.bssLength = 4 * (n + left)
  r0 : (cpu.reg .r0).toNat = s.sbss.toNat + 4 * n
  r1 : cpu.reg .r1 = s.ebss
  r2 : cpu.reg .r2 = 0
  memory : cpu.memory = cleared before s.sbss.toNat (4 * n)

/-- Where the sections lie: the initial values below `.data`, `.data` below `.bss`, and all of them
below the end of RAM. -/
theorem Sections.order (s : Sections) : s.sidata.toNat + s.dataLength ≤ s.sdata.toNat ∧
    s.sdata.toNat + s.dataLength = s.edata.toNat ∧ s.edata.toNat ≤ s.sbss.toNat ∧
      s.sbss.toNat + s.bssLength = s.ebss.toNat ∧ s.ebss.toNat ≤ 0x20400000 := by
  have hflash : s.sidata.toNat + (s.edata.toNat - s.sdata.toNat) ≤ flashLength := s.sidata_fits
  have hram : ramOrigin ≤ s.sdata.toNat := s.ram_origin_le_sdata
  have hdata := s.sdata_le_edata
  have hbss := s.sbss_le_ebss
  have hbelow : flashLength ≤ ramOrigin := by
    unfold flashLength ramOrigin
    omega
  unfold dataLength bssLength
  exact ⟨by omega, by omega, s.edata_le_sbss, by omega, s.ebss_le_estack⟩

/-- An address below the end of RAM steps to the next word. -/
theorem to_nat_add_four {address : BitVec 32} (hlt : address.toNat < 0x20400000) :
    (address + 4).toNat = address.toNat + 4 := by
  have hfour : (4 : BitVec 32).toNat = 4 := rfl
  rw [BitVec.toNat_add, hfour, Nat.mod_eq_of_lt]
  omega

variable {s : Sections} {before : Memory} {n left : ℕ} {cpu : Cpu}

/-- One round of the copy loop. -/
theorem Copying.round (h : Copying s before n (left + 1) cpu) :
    ∃ later, Reachable (next s) cpu later ∧ Copying s before (n + 1) left later := by
  obtain ⟨reg, carry, lr, pc, memory⟩ := cpu
  obtain ⟨rfl, hwords, hr0, hr1, hr2, hmemory⟩ := h
  simp only at hr0 hr1 hr2 hmemory
  obtain ⟨hflash, hdata, hle, hbss, htop⟩ := s.order
  -- the comparison borrows, so the branch is taken
  have hcheck : run (next s) [(), ()] ⟨reg, carry, lr, 8, memory⟩ =
      some ⟨reg, decide ((reg .r1).toNat ≤ (reg .r0).toNat), lr, 10, memory⟩ := rfl
  have hcarry : decide ((reg .r1).toNat ≤ (reg .r0).toNat) = false := by
    rw [decide_eq_false_iff_not, hr1]
    omega
  rw [hcarry] at hcheck
  let value := BitVec.ofNat 32 (load 4 memory (reg .r2).toNat)
  let moved := Function.update (Function.update (Function.update reg .r2 (reg .r2 + 4)) .r3 value)
    .r0 (reg .r0 + 4)
  have hmove : run (next s) (List.replicate 4 ()) ⟨reg, false, lr, 10, memory⟩ =
      some ⟨moved, false, lr, 8, store 4 memory (reg .r0).toNat value.toNat⟩ := rfl
  refine ⟨_, (reachable_of_run hcheck).trans (reachable_of_run hmove), rfl, ?_, ?_, hr1, ?_, ?_⟩
  · omega
  · show (reg .r0 + 4).toNat = s.sdata.toNat + 4 * (n + 1)
    rw [to_nat_add_four (by omega), hr0]
    omega
  · show (reg .r2 + 4).toNat = s.sidata.toNat + 4 * (n + 1)
    rw [to_nat_add_four (by omega), hr2]
    omega
  -- the word is copied
  · have hvalue : value.toNat = load 4 memory (reg .r2).toNat :=
      (BitVec.toNat_ofNat _ _).trans (Nat.mod_eq_of_lt (load_lt 4 _ _))
    show store 4 memory (reg .r0).toNat value.toNat = _
    rw [hvalue, hr0, hr2, hmemory]
    exact store_copied before (.inl (by omega))

/-- One round of the loop over `.bss`. -/
theorem Clearing.round (h : Clearing s before n (left + 1) cpu) :
    ∃ later, Reachable (next s) cpu later ∧ Clearing s before (n + 1) left later := by
  obtain ⟨reg, carry, lr, pc, memory⟩ := cpu
  obtain ⟨rfl, hwords, hr0, hr1, hr2, hmemory⟩ := h
  simp only at hr0 hr1 hr2 hmemory
  obtain ⟨hflash, hdata, hle, hbss, htop⟩ := s.order
  have hcheck : run (next s) [(), ()] ⟨reg, carry, lr, 17, memory⟩ =
      some ⟨reg, decide ((reg .r1).toNat ≤ (reg .r0).toNat), lr, 19, memory⟩ := rfl
  have hcarry : decide ((reg .r1).toNat ≤ (reg .r0).toNat) = false := by
    rw [decide_eq_false_iff_not, hr1]
    omega
  rw [hcarry] at hcheck
  let moved := Function.update reg .r0 (reg .r0 + 4)
  have hmove : run (next s) (List.replicate 3 ()) ⟨reg, false, lr, 19, memory⟩ =
      some ⟨moved, false, lr, 17, store 4 memory (reg .r0).toNat (reg .r2).toNat⟩ := rfl
  refine ⟨_, (reachable_of_run hcheck).trans (reachable_of_run hmove), rfl, ?_, ?_, hr1, hr2, ?_⟩
  · omega
  · show (reg .r0 + 4).toNat = s.sbss.toNat + 4 * (n + 1)
    rw [to_nat_add_four (by omega), hr0]
    omega
  · show store 4 memory (reg .r0).toNat (reg .r2).toNat = _
    rw [hr2, hr0, hmemory]
    exact store_cleared before

/-! ## From the reset to the call of main -/

/-- From the reset on, the processor arrives at the check of the copy loop. -/
theorem copying_first (s : Sections) (hpc : position (program s) .resetHandler = some cpu.pc) :
    ∃ later, Reachable (next s) cpu later ∧ Copying s cpu.memory 0 (s.dataLength / 4) later := by
  obtain ⟨reg, carry, lr, pc, memory⟩ := cpu
  have hentry : position (program s) .resetHandler = some 0 := rfl
  obtain rfl : 0 = pc := Option.some.inj (hentry.symm.trans hpc)
  let loaded := Function.update (Function.update (Function.update reg .r0 s.sdata) .r1 s.edata)
    .r2 s.sidata
  have hstart : run (next s) (List.replicate 5 ()) ⟨reg, carry, lr, 0, memory⟩ =
      some ⟨loaded, carry, lr, 8, memory⟩ := rfl
  have hwords : 4 ∣ s.dataLength := Nat.dvd_sub s.edata_aligned s.sdata_aligned
  refine ⟨_, reachable_of_run hstart, rfl, ?_, rfl, rfl, rfl, (copied_zero memory _ _).symm⟩
  rw [Nat.zero_add, Nat.mul_div_cancel' hwords]

/-- When `.data` has been copied, the processor goes on to the loop over `.bss`. -/
theorem Copying.exit (h : Copying s before n 0 cpu) :
    ∃ later, Reachable (next s) cpu later ∧
      Clearing s (copied before s.sidata.toNat s.sdata.toNat s.dataLength) 0 (s.bssLength / 4)
        later := by
  obtain ⟨reg, carry, lr, pc, memory⟩ := cpu
  obtain ⟨rfl, hwords, hr0, hr1, hr2, hmemory⟩ := h
  simp only at hr0 hr1 hmemory
  obtain ⟨hflash, hdata, hle, hbss, htop⟩ := s.order
  -- the comparison does not borrow, so the branch is not taken
  have hcheck : run (next s) [(), ()] ⟨reg, carry, lr, 8, memory⟩ =
      some ⟨reg, decide ((reg .r1).toNat ≤ (reg .r0).toNat), lr, 10, memory⟩ := rfl
  have hcarry : decide ((reg .r1).toNat ≤ (reg .r0).toNat) = true := by
    rw [decide_eq_true_iff, hr1]
    omega
  rw [hcarry] at hcheck
  let loaded := Function.update (Function.update (Function.update reg .r0 s.sbss) .r1 s.ebss) .r2 0
  have hload : run (next s) (List.replicate 5 ()) ⟨reg, true, lr, 10, memory⟩ =
      some ⟨loaded, true, lr, 17, memory⟩ := rfl
  have haligned : 4 ∣ s.bssLength := Nat.dvd_sub s.ebss_aligned s.sbss_aligned
  refine ⟨_, (reachable_of_run hcheck).trans (reachable_of_run hload), rfl, ?_, rfl, rfl, rfl, ?_⟩
  · rw [Nat.zero_add, Nat.mul_div_cancel' haligned]
  · show memory = cleared _ _ 0
    rw [cleared_zero, hmemory, hwords, Nat.add_zero]

/-- When `.bss` has been cleared, the processor passes `SystemInit` and arrives at the call of
`main` with both arguments zero. -/
theorem Clearing.exit (h : Clearing s before n 0 cpu) :
    ∃ later, Reachable (next s) cpu later ∧ later.pc = 23 ∧ later.reg .r0 = 0 ∧
      later.reg .r1 = 0 ∧ later.memory = cleared before s.sbss.toNat s.bssLength := by
  obtain ⟨reg, carry, lr, pc, memory⟩ := cpu
  obtain ⟨rfl, hwords, hr0, hr1, hr2, hmemory⟩ := h
  simp only at hr0 hr1 hmemory
  obtain ⟨hflash, hdata, hle, hbss, htop⟩ := s.order
  have hcheck : run (next s) [(), ()] ⟨reg, carry, lr, 17, memory⟩ =
      some ⟨reg, decide ((reg .r1).toNat ≤ (reg .r0).toNat), lr, 19, memory⟩ := rfl
  have hcarry : decide ((reg .r1).toNat ≤ (reg .r0).toNat) = true := by
    rw [decide_eq_true_iff, hr1]
    omega
  rw [hcarry] at hcheck
  let arguments := Function.update (Function.update reg .r0 0) .r1 0
  have hcall : run (next s) (List.replicate 6 ()) ⟨reg, true, lr, 19, memory⟩ =
      some ⟨arguments, true, 21, 23, memory⟩ := rfl
  refine ⟨_, (reachable_of_run hcheck).trans (reachable_of_run hcall), rfl, rfl, rfl, ?_⟩
  show memory = _
  rw [hmemory, hwords, Nat.add_zero]

/-- From every reset the processor arrives at the call of `main(0, NULL)`, however far it has come.
Then `.data` holds its initial values, `.bss` is zero, and no other byte has changed. -/
theorem reset_handler_calls_main (s : Sections)
    (hpc : position (program s) .resetHandler = some cpu.pc) :
    ∃ booted, (∀ state, Reachable (next s) cpu state → Reachable (next s) state booted) ∧
      (program s)[booted.pc]? = some (.instr (.bl .main)) ∧
      booted.reg .r0 = 0 ∧ booted.reg .r1 = 0 ∧
      (∀ i < s.dataLength,
        booted.memory (s.sdata.toNat + i) = cpu.memory (s.sidata.toNat + i)) ∧
      (∀ i < s.bssLength, booted.memory (s.sbss.toNat + i) = 0) ∧
      ∀ x, ¬ (s.sdata.toNat ≤ x ∧ x < s.edata.toNat) → ¬ (s.sbss.toNat ≤ x ∧ x < s.ebss.toNat) →
        booted.memory x = cpu.memory x := by
  obtain ⟨first, hfirst, hcopying⟩ := copying_first s hpc
  obtain ⟨full, hfull, n, hcopied⟩ := reachable_countdown
    (fun left state ↦ ∃ n, Copying s cpu.memory n left state)
    (fun left state ⟨n, h⟩ ↦ let ⟨later, hlater, hnext⟩ := h.round; ⟨later, hlater, n + 1, hnext⟩)
    ⟨0, hcopying⟩
  obtain ⟨second, hsecond, hclearing⟩ := hcopied.exit
  obtain ⟨clear, hclear, m, hcleared⟩ := reachable_countdown
    (fun left state ↦ ∃ n, Clearing s (copied cpu.memory s.sidata.toNat s.sdata.toNat s.dataLength)
      n left state)
    (fun left state ⟨n, h⟩ ↦ let ⟨later, hlater, hnext⟩ := h.round; ⟨later, hlater, n + 1, hnext⟩)
    ⟨0, hclearing⟩
  obtain ⟨booted, hbooted, hpc', hr0, hr1, hmemory⟩ := hcleared.exit
  have hreach : Reachable (next s) cpu booted :=
    hfirst.trans (hfull.trans (hsecond.trans (hclear.trans hbooted)))
  have hline : (program s)[booted.pc]? = some (.instr (.bl .main)) := by
    rw [hpc']
    rfl
  -- `main` is not a label of the file, so the run ends at its call
  have hstop (event : Unit) : next s booted event = none := by
    unfold next Cpu.next
    rw [hline]
    rfl
  obtain ⟨hflash, hdata, hle, hbss, htop⟩ := s.order
  refine ⟨booted, fun state hstate ↦ hstate.stops hreach hstop, hline, hr0, hr1, ?_, ?_, ?_⟩
  · intro i hi
    rw [hmemory]
    unfold cleared copied
    rw [if_neg (by omega), if_pos (by omega), Nat.add_sub_cancel_left]
  · intro i hi
    rw [hmemory]
    exact if_pos (by omega)
  · intro x hoffData hoffBss
    rw [hmemory]
    unfold cleared copied
    rw [if_neg (by omega), if_neg (by omega)]

/-- Two words of `.data` and two words of `.bss`. -/
def smallSections : Sections where
  sidata := 0x00000100
  sdata := 0x20000000
  edata := 0x20000008
  sbss := 0x20000008
  ebss := 0x20000010
  sdata_aligned := by decide
  edata_aligned := by decide
  sbss_aligned := by decide
  ebss_aligned := by decide
  ram_origin_le_sdata := by decide
  sdata_le_edata := by decide
  edata_le_sbss := by decide
  sbss_le_ebss := by decide
  ebss_le_estack := by decide
  sidata_fits := by decide

/-- A processor at its reset, where every byte of the memory holds the low byte of its address. -/
def smallReset : Cpu where
  reg _ := 0xdeadbeef
  carry := true
  lr := 7
  pc := 0
  memory x := BitVec.ofNat 8 x

/-- The theorem at the small image: a byte of `.data` and one of `.bss`. -/
theorem reset_handler_calls_main_small :
    position (program smallSections) .resetHandler = some smallReset.pc ∧
      ∃ booted, Reachable (next smallSections) smallReset booted ∧
        (program smallSections)[booted.pc]? = some (.instr (.bl .main)) ∧
        booted.reg .r0 = 0 ∧ booted.memory 0x20000005 = 5 ∧ booted.memory 0x2000000b = 0 ∧
        booted.memory 0x20000011 = 0x11 := by
  have hpc : position (program smallSections) .resetHandler = some smallReset.pc := rfl
  obtain ⟨booted, hreach, hline, hr0, -, hdata, hbss, hother⟩ :=
    reset_handler_calls_main smallSections hpc
  exact ⟨hpc, booted, hreach _ .refl, hline, hr0, hdata 5 (by decide), hbss 3 (by decide),
    hother 0x20000011 (by decide) (by decide)⟩

end ThreadMetric.ResetHandler
