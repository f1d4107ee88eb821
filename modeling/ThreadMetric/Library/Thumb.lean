import Mathlib.Data.Nat.Notation
import Mathlib.Logic.Function.Basic
import ThreadMetric.Library.ByteMemory
import ThreadMetric.Library.Transition

/-!
# Thumb programs

A fragment of the Thumb instruction set: literal loads, loads and stores that step their address
register, moves, comparisons, branches and calls. A program is a list of labels and instructions; a
label is passed without effect, and a jump to a label that the program does not define leaves the
program and stops it. Of the condition flags only the carry is kept, which a comparison sets unless
it borrows.
-/

namespace Thumb

open ByteMemory Transition

/-- The registers. -/
inductive Reg where
  | r0
  | r1
  | r2
  | r3
  deriving DecidableEq

/-- The instructions over the labels `Label`. -/
inductive Instr (Label : Type) where
  | ldrLiteral (rd : Reg) (value : BitVec 32)
  | ldrPost (rt rn : Reg) (offset : BitVec 32)
  | strPost (rt rn : Reg) (offset : BitVec 32)
  | movs (rd : Reg) (value : BitVec 32)
  | cmp (rn rm : Reg)
  | b (target : Label)
  | blo (target : Label)
  | bl (target : Label)
  | bxLr

/-- A line of a program. -/
inductive Line (Label : Type) where
  | label (name : Label)
  | instr (instr : Instr Label)

/-- The state of the processor. `pc` and `lr` count the lines of the program. -/
structure Cpu where
  reg : Reg → BitVec 32
  carry : Bool
  lr : ℕ
  pc : ℕ
  memory : Memory

variable {Label : Type} [DecidableEq Label]

/-- The line of a label. -/
def position (program : List (Line Label)) (name : Label) : Option ℕ :=
  program.findIdx? fun line ↦
    match line with
    | .label other => other = name
    | .instr _ => false

namespace Cpu

/-- Set a register and go on. -/
def set (cpu : Cpu) (rd : Reg) (value : BitVec 32) : Cpu :=
  { cpu with reg := Function.update cpu.reg rd value, pc := cpu.pc + 1 }

/-- Go to a label. -/
def jump (program : List (Line Label)) (cpu : Cpu) (target : Label) : Option Cpu :=
  (position program target).map fun line ↦ { cpu with pc := line }

/-- Execute an instruction. -/
def execute (program : List (Line Label)) (cpu : Cpu) : Instr Label → Option Cpu
  | .ldrLiteral rd value => some (cpu.set rd value)
  | .ldrPost rt rn offset =>
      let address := cpu.reg rn
      let value := BitVec.ofNat 32 (load 4 cpu.memory address.toNat)
      some { cpu with
        reg := Function.update (Function.update cpu.reg rn (address + offset)) rt value
        pc := cpu.pc + 1 }
  | .strPost rt rn offset =>
      let address := cpu.reg rn
      some { cpu with
        reg := Function.update cpu.reg rn (address + offset)
        pc := cpu.pc + 1
        memory := store 4 cpu.memory address.toNat (cpu.reg rt).toNat }
  | .movs rd value => some (cpu.set rd value)
  | .cmp rn rm =>
      some { cpu with carry := (cpu.reg rm).toNat ≤ (cpu.reg rn).toNat, pc := cpu.pc + 1 }
  | .b target => cpu.jump program target
  | .blo target =>
      if cpu.carry then some { cpu with pc := cpu.pc + 1 } else cpu.jump program target
  | .bl target => { cpu with lr := cpu.pc + 1 }.jump program target
  | .bxLr => some { cpu with pc := cpu.lr }

/-- Execute the next line. -/
def next (program : List (Line Label)) (cpu : Cpu) (_ : Unit) : Option Cpu :=
  match program[cpu.pc]? with
  | none => none
  | some (.label _) => some { cpu with pc := cpu.pc + 1 }
  | some (.instr instr) => cpu.execute program instr

end Cpu

end Thumb
