/-
The interrupt line of a virtio-mmio device, one memory access at a time
(`virtio_mmio_raise_used_irq`, the `InterruptACK` register and `virtio_mmio_update_irq`).

A backend hypercall raises the used-buffer interrupt on one pCPU, under the device's own lock.
The frontend acknowledges on another pCPU.  Its write reaches the handler without a lock: the
region is registered with `hold_lock` false, so `emul_mmio_lock` is dropped before the handler
runs, and neither `virtio_proxy_mmio_handler` nor `vsock_proxy_mmio_handler` takes the device's
lock.  Any two accesses of the two paths may therefore alternate.  Each of them reads
`interrupt_status`, writes it back with a bit set or cleared, and then runs the helper that
compares it with `irq_asserted` and drives the line.
-/
import BeauOs.Virtio.Mmio

namespace BeauOs.Virtio

def intUsedRing : BitVec 32 := 1#32

/-- The next access of `virtio_mmio_update_irq`. -/
inductive UpdatePc where
  /-- read `interrupt_status` for the first test -/
  | testNonzero
  /-- read `irq_asserted` for the first test -/
  | testLow
  /-- read `interrupt_status` for the second test -/
  | testZero
  /-- read `irq_asserted` for the second test -/
  | testHigh
  /-- call `arch_trigger_level_intr` -/
  | drive (level : Bool)
  /-- write `irq_asserted` -/
  | note (level : Bool)
  deriving DecidableEq

/-- Where one of the two paths is. -/
inductive LinePc where
  | idle
  /-- `interrupt_status` was read, and this is to be written back -/
  | write (status : BitVec 32)
  | update (pc : UpdatePc)
  deriving DecidableEq

/-- The shared variables, and the last level passed to `arch_trigger_level_intr`. -/
structure IrqLine where
  interruptStatus : BitVec 32
  irqAsserted : Bool
  level : Bool
  deriving DecidableEq

/-- What an access of the helper does to the line. -/
def UpdatePc.act (line : IrqLine) : UpdatePc → IrqLine
  | .drive level => { line with level := level }
  | .note level => { line with irqAsserted := level }
  | .testNonzero | .testLow | .testZero | .testHigh => line

/-- Where the helper goes from an access. -/
def UpdatePc.next (line : IrqLine) : UpdatePc → LinePc
  | .testNonzero => if line.interruptStatus ≠ 0#32 then .update .testLow else .update .testZero
  | .testLow => if line.irqAsserted = false then .update (.drive true) else .update .testZero
  | .testZero => if line.interruptStatus = 0#32 then .update .testHigh else .idle
  | .testHigh => if line.irqAsserted = true then .update (.drive false) else .idle
  | .drive level => .update (.note level)
  | .note _ => .idle

inductive IrqParty where
  | backend
  | frontend
  deriving DecidableEq

/-- One access of one pCPU; a frontend that begins acknowledges `value`. -/
inductive IrqAccess where
  | backend
  | frontend (value : BitVec 32)
  deriving DecidableEq

def IrqAccess.party : IrqAccess → IrqParty
  | .backend => .backend
  | .frontend _ => .frontend

/-- The status a path is going to write back, from the status it read. -/
def IrqAccess.merge (status : BitVec 32) : IrqAccess → BitVec 32
  | .backend => status ||| intUsedRing
  | .frontend value => status &&& ~~~value

/-- Both paths over the line.  `unacked` is kept for the statement only: a used-buffer interrupt
was raised, and no acknowledge of it has begun since. -/
structure IrqRace where
  line : IrqLine
  pc : IrqParty → LinePc
  unacked : Bool

def IrqRace.boot : IrqRace :=
  { line := { interruptStatus := 0#32, irqAsserted := false, level := false }
    pc := fun _ => .idle
    unacked := false }

/-- The record of unacknowledged interrupts after an access: raising counts when the status is
written, acknowledging when it is first read. -/
def IrqRace.record (s : IrqRace) : IrqAccess → LinePc → Bool
  | .backend, .write _ => true
  | .frontend value, .idle => s.unacked && !value.getLsbD 0
  | _, _ => s.unacked

def IrqRace.step (s : IrqRace) (a : IrqAccess) : IrqRace :=
  let unacked := s.record a (s.pc a.party)
  match s.pc a.party with
  | .idle =>
    { s with
      pc := Function.update s.pc a.party (.write (a.merge s.line.interruptStatus))
      unacked := unacked }
  | .write status =>
    { line := { s.line with interruptStatus := status }
      pc := Function.update s.pc a.party (.update .testNonzero)
      unacked := unacked }
  | .update pc =>
    { line := pc.act s.line
      pc := Function.update s.pc a.party (pc.next s.line)
      unacked := unacked }

/-- Neither operation is in progress. -/
def IrqRace.Quiet (s : IrqRace) : Prop := ∀ p, s.pc p = .idle

end BeauOs.Virtio
