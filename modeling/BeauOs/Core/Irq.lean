/-
The common IRQ descriptors, `core/irq.c`.

`request_irq` takes a number, asks the architecture for a vector, looks at the descriptor and
installs its action in separate sections, and `free_irq` clears the descriptor before it gives the
number back.  Between two sections of one pCPU the others go on.  The bitmaps and the descriptors
are kept line by line, with the requests that were told that they own the line.
-/
import Mathlib.Logic.Function.Basic

namespace BeauOs.Core

/-- What a caller of `request_irq` brings, and a `struct irq_desc` holds; NULL is `none`. -/
structure IrqRequest where
  action : Option Nat
  privData : Nat
  flags : Nat
  deriving DecidableEq

structure IrqLine where
  alloc : Bool
  rsvd : Bool
  desc : IrqRequest
  /-- the requests that returned success and have not been freed -/
  owners : List IrqRequest
  deriving DecidableEq

namespace IrqLine

variable (l : IrqLine)

def take : IrqLine := { l with alloc := true }

def freeNum : IrqLine := if l.rsvd then l else { l with alloc := false }

def install (req : IrqRequest) : IrqLine :=
  { l with desc := req, owners := req :: l.owners }

/-- The locked section of `free_irq`. -/
def clear : IrqLine := { l with desc := ⟨none, 0, 0⟩, owners := [] }

/-- `do_irq`: the action that runs, with its data. -/
def doIrq : Option (Nat × Nat) :=
  if l.alloc then l.desc.action.map fun action => (action, l.desc.privData) else none

end IrqLine

inductive IrqPc where
  | idle
  /-- `arch_request_irq` -/
  | vector (irq : Nat) (req : IrqRequest)
  /-- the busy check, made without the lock of the descriptor -/
  | check (irq : Nat) (req : IrqRequest)
  | install (irq : Nat) (req : IrqRequest)
  /-- `free_irq_num`, after a failure or at the end of `free_irq` -/
  | giveBack (irq : Nat)
  deriving DecidableEq

structure IrqSystem where
  line : Nat → IrqLine
  pc : Nat → IrqPc

inductive IrqStep where
  | request (pcpu : Nat) (reqIrq : Option Nat) (req : IrqRequest)
  | free (pcpu irq : Nat)
  /-- the next section, with what `arch_request_irq` returns -/
  | go (pcpu : Nat) (archOk : Bool)

namespace IrqSystem

variable (nrIrqs : Nat) (s : IrqSystem)

/-- A pCPU goes on, and a line changes. -/
def set (pcpu : Nat) (pc : IrqPc) (irq : Nat) (line : IrqLine) : IrqSystem :=
  ⟨Function.update s.line irq line, Function.update s.pc pcpu pc⟩

/-- The number that `alloc_irq_num` takes; none is `IRQ_INVALID`. -/
def allocIrqNum : Option Nat → Option Nat
  | some irq => if irq < nrIrqs then some irq else none
  | none => (List.range nrIrqs).find? fun irq => !(s.line irq).alloc

/-- A section of `request_irq` or `free_irq`. -/
def step : IrqStep → IrqSystem
  | .request pcpu reqIrq req =>
    match s.pc pcpu, s.allocIrqNum nrIrqs reqIrq with
    | .idle, some irq => s.set pcpu (.vector irq req) irq (s.line irq).take
    | _, _ => s
  | .free pcpu irq =>
    if s.pc pcpu = .idle ∧ irq < nrIrqs then s.set pcpu (.giveBack irq) irq (s.line irq).clear else s
  | .go pcpu archOk =>
    match s.pc pcpu with
    | .idle => s
    | .vector irq req =>
      s.set pcpu (if archOk then .check irq req else .giveBack irq) irq (s.line irq)
    | .check irq req =>
      s.set pcpu (if (s.line irq).desc.action = none then .install irq req else .idle) irq (s.line irq)
    | .install irq req => s.set pcpu .idle irq ((s.line irq).install req)
    | .giveBack irq => s.set pcpu .idle irq (s.line irq).freeNum

end IrqSystem

end BeauOs.Core
