/-
The virtio-mmio transport (`sdk/bsp/virtio/virtio_mmio.c`).

A device model owns the registers and the shadow of each virtqueue; descriptors and rings stay in
the guest's memory and are read there whenever they are needed.  The guest runs on while EL2 does
so, and two reads of one address may find different bytes: a `GuestView` says for each access of a
call, counted by `t`, what it finds.  A copy from or to guest memory happens as a whole or not at
all (`copy_from_gpa`, `copy_to_gpa`).
-/
import BeauOs.Pm.Transaction

namespace BeauOs.Virtio

open BeauOs.Pm

abbrev Gpa := BitVec 64

abbrev Byte := BitVec 8

/-- `UINT16_MAX + 1`, where the ring indices wrap. -/
def ringWrap : Nat := 65536

def uint32Max : Nat := 4294967295

def eNoData : Int := 61

/-! ### Guest memory -/

/-- The memory of one VM as the accesses of one call find it. -/
structure GuestView where
  /-- the byte at an address when access `t` is made -/
  byte : Nat → Gpa → Byte
  /-- whether `arm64_guest_gpa_range_valid` and `gpa2hva` accept the range -/
  mapped : Nat → Gpa → Nat → Bool

structure GuestWrite where
  gpa : Gpa
  bytes : List Byte
  deriving DecidableEq

def leNat : List Byte → Nat
  | [] => 0
  | b :: rest => b.toNat + 256 * leNat rest

def leBytes : Nat → Nat → List Byte
  | 0, _ => []
  | size + 1, n => BitVec.ofNat 8 n :: leBytes size (n / 256)

structure RingDesc where
  addr : Gpa
  len : Nat
  flags : Nat
  next : Nat

namespace RingDesc

/-- `VIRTIO_RING_F_NEXT` -/
def hasNext (desc : RingDesc) : Bool := desc.flags.testBit 0

/-- `VIRTIO_RING_F_WRITE` -/
def isWrite (desc : RingDesc) : Bool := desc.flags.testBit 1

def ofBytes (bytes : List Byte) : RingDesc where
  addr := BitVec.ofNat 64 (leNat (bytes.take 8))
  len := leNat ((bytes.drop 8).take 4)
  flags := leNat ((bytes.drop 12).take 2)
  next := leNat ((bytes.drop 14).take 2)

end RingDesc

namespace GuestView

variable (mem : GuestView) (t : Nat) (gpa : Gpa) (size : Nat)

/-- The bytes of a range when access `t` is made. -/
def bytes : List Byte :=
  (List.range size).map fun i => mem.byte t (gpa + BitVec.ofNat 64 i)

/-- `copy_from_gpa` -/
def copyFrom : Option (List Byte) :=
  if size = 0 then some []
  else if mem.mapped t gpa size then some (mem.bytes t gpa size)
  else none

/-- `copy_to_gpa`; whether it succeeds -/
def copyTo : Bool :=
  if size = 0 then true else mem.mapped t gpa size

def readU16 : Option Nat :=
  (mem.copyFrom t gpa 2).map leNat

end GuestView

/-! ### Devices -/

structure MmioQueue where
  num : Nat
  lastAvailIdx : Nat
  desc : Gpa
  avail : Gpa
  used : Gpa
  ready : Bool

namespace MmioQueue

def zero : MmioQueue := ⟨0, 0, 0#64, 0#64, 0#64, false⟩

end MmioQueue

structure MmioDev where
  vmId : Nat
  queueNum : Nat
  queueSize : Nat
  deviceFeatures : BitVec 64
  queues : Nat → MmioQueue
  driverFeatures : BitVec 64
  deviceFeaturesSel : BitVec 32
  driverFeaturesSel : BitVec 32
  queueSel : Nat
  interruptStatus : BitVec 32
  status : BitVec 32
  pmEpoch : Nat
  deferredQueueMask : BitVec 64
  irqAsserted : Bool
  pmSuspended : Bool

def virtioFVersion1 : BitVec 64 := 1#64 <<< 32

namespace MmioDev

def init (vmId queueNum queueSize : Nat) (deviceFeatures : BitVec 64) : MmioDev where
  vmId := vmId
  queueNum := queueNum
  queueSize := queueSize
  deviceFeatures := deviceFeatures ||| virtioFVersion1
  queues := fun _ => .zero
  driverFeatures := 0#64
  deviceFeaturesSel := 0#32
  driverFeaturesSel := 0#32
  queueSel := 0
  interruptStatus := 0#32
  status := 0#32
  pmEpoch := 0
  deferredQueueMask := 0#64
  irqAsserted := false
  pmSuspended := false

variable (dev : MmioDev)

def setQueue (queueId : Nat) (vq : MmioQueue) : MmioDev :=
  { dev with queues := fun q => if q = queueId then vq else dev.queues q }

def getQueue (queueId : Nat) : Option MmioQueue :=
  if queueId < dev.queueNum then some (dev.queues queueId) else none

def queueValid (vq : MmioQueue) : Bool :=
  vq.ready && decide (vq.num ≠ 0) && decide (vq.num ≤ dev.queueSize) &&
    decide (vq.desc ≠ 0#64) && decide (vq.avail ≠ 0#64) && decide (vq.used ≠ 0#64)

variable (mem : GuestView)

def readDesc (t : Nat) (vq : MmioQueue) (id : Nat) : Option RingDesc :=
  if dev.queueValid vq && decide (id < vq.num) then
    (mem.copyFrom t (vq.desc + BitVec.ofNat 64 (id * 16)) 16).map RingDesc.ofBytes
  else none

/-- `virtio_mmio_pop_avail`: the head, and the device with its index moved on. -/
def popAvail (t : Nat) (queueId : Nat) :
    Option (Nat × MmioDev) := do
  let vq ← dev.getQueue queueId
  guard (dev.queueValid vq)
  let availIdx ← mem.readU16 t (vq.avail + 2#64)
  guard (vq.lastAvailIdx ≠ availIdx)
  let head ← mem.readU16 (t + 1)
    (vq.avail + 4#64 + BitVec.ofNat 64 (vq.lastAvailIdx % vq.num * 2))
  pure (head, dev.setQueue queueId { vq with lastAvailIdx := (vq.lastAvailIdx + 1) % ringWrap })

/-- `virtio_mmio_add_used`: whether the entry is published, and what was written.  An entry is the
guest's only once the index behind it is written too. -/
def addUsed (t : Nat) (queueId id len : Nat) : Bool × List GuestWrite :=
  match dev.getQueue queueId with
  | none => (false, [])
  | some vq =>
    if dev.queueValid vq then
      match mem.readU16 t (vq.used + 2#64) with
      | none => (false, [])
      | some usedIdx =>
        let elem : GuestWrite :=
          ⟨vq.used + 4#64 + BitVec.ofNat 64 (usedIdx % vq.num * 8), leBytes 4 id ++ leBytes 4 len⟩
        if mem.copyTo (t + 1) elem.gpa 8 then
          if mem.copyTo (t + 2) (vq.used + 2#64) 2 then
            (true, [elem, ⟨vq.used + 2#64, leBytes 2 (usedIdx + 1)⟩])
          else (false, [elem])
        else (false, [])
    else (false, [])

def updateIrq : MmioDev :=
  if dev.interruptStatus ≠ 0#32 ∧ dev.irqAsserted = false then { dev with irqAsserted := true }
  else if dev.interruptStatus = 0#32 ∧ dev.irqAsserted = true then
    { dev with irqAsserted := false }
  else dev

def raiseUsedIrq : MmioDev :=
  updateIrq { dev with interruptStatus := dev.interruptStatus ||| 1#32 }

/-- `virtio_mmio_reset_state`, up to the call of `ops->reset` -/
def resetState : MmioDev :=
  { dev with
    queues := fun _ => .zero
    driverFeatures := 0#64
    deviceFeaturesSel := 0#32
    driverFeaturesSel := 0#32
    queueSel := 0
    interruptStatus := 0#32
    status := 0#32
    deferredQueueMask := 0#64
    irqAsserted := false }

/-! ### Registers -/

inductive QueueAddr
  | descLow | descHigh | availLow | availHigh | usedLow | usedHigh

/-- The registers a guest can write. -/
inductive Reg
  | deviceFeaturesSel
  | driverFeatures
  | driverFeaturesSel
  | queueSel
  | queueNum
  | queueReady
  | queueNotify
  | interruptAck
  | status
  | queueAddr (which : QueueAddr)

/-- The callback of `struct virtio_mmio_ops` that a register write ends in. -/
inductive OpsCall
  | none
  | reset
  | queueReady (queueId : Nat)
  | notifyQueue (queueId : Nat)
  deriving DecidableEq

def setLow (word : BitVec 64) (value : BitVec 32) : BitVec 64 :=
  word &&& 0xffffffff00000000#64 ||| value.zeroExtend 64

def setHigh (word : BitVec 64) (value : BitVec 32) : BitVec 64 :=
  word &&& 0xffffffff#64 ||| value.zeroExtend 64 <<< 32

def writeQueueAddr (vq : MmioQueue) (which : QueueAddr) (value : BitVec 32) : MmioQueue :=
  match which with
  | .descLow => { vq with desc := setLow vq.desc value }
  | .descHigh => { vq with desc := setHigh vq.desc value }
  | .availLow => { vq with avail := setLow vq.avail value }
  | .availHigh => { vq with avail := setHigh vq.avail value }
  | .usedLow => { vq with used := setLow vq.used value }
  | .usedHigh => { vq with used := setHigh vq.used value }

def statusFeaturesOk : BitVec 32 := 8#32

def writeStatus (value : BitVec 32) : MmioDev × OpsCall :=
  if value = 0#32 then (dev.resetState, .reset)
  else if value &&& statusFeaturesOk ≠ 0#32 ∧
      dev.driverFeatures &&& ~~~dev.deviceFeatures ≠ 0#64 then
    ({ dev with status := value &&& ~~~statusFeaturesOk }, .none)
  else ({ dev with status := value }, .none)

/-- `virtio_mmio_write_reg`; `gated` is what `hv_pm_vm_io_is_gated` says of the device's VM. -/
def writeReg (gated : Bool) (reg : Reg) (value : BitVec 32) : MmioDev × OpsCall :=
  match reg with
  | .deviceFeaturesSel => ({ dev with deviceFeaturesSel := value }, .none)
  | .driverFeatures =>
    if dev.driverFeaturesSel = 0#32 then
      ({ dev with driverFeatures := setLow dev.driverFeatures value }, .none)
    else ({ dev with driverFeatures := setHigh dev.driverFeatures value }, .none)
  | .driverFeaturesSel => ({ dev with driverFeaturesSel := value }, .none)
  | .queueSel => ({ dev with queueSel := value.toNat }, .none)
  | .queueNum =>
    match dev.getQueue dev.queueSel with
    | none => (dev, .none)
    | some vq =>
      if value.toNat ≤ dev.queueSize then
        (dev.setQueue dev.queueSel { vq with num := value.toNat }, .none)
      else (dev, .none)
  | .queueReady =>
    match dev.getQueue dev.queueSel with
    | none => (dev, .none)
    | some vq =>
      if value = 0#32 then
        (dev.setQueue dev.queueSel
          { vq with
            ready := false
            lastAvailIdx := 0 }, .none)
      else (dev.setQueue dev.queueSel { vq with ready := true }, .queueReady dev.queueSel)
  | .queueNotify =>
    if value.toNat ≥ dev.queueNum then (dev, .none)
    else if dev.pmSuspended || gated then
      ({ dev with deferredQueueMask := bitmapSet value.toNat dev.deferredQueueMask }, .none)
    else (dev, .notifyQueue value.toNat)
  | .interruptAck =>
    (updateIrq { dev with interruptStatus := dev.interruptStatus &&& ~~~value }, .none)
  | .status => dev.writeStatus value
  | .queueAddr which =>
    match dev.getQueue dev.queueSel with
    | none => (dev, .none)
    | some vq => (dev.setQueue dev.queueSel (writeQueueAddr vq which value), .none)

/-! ### Power management -/

def pmSuspend (epoch : Nat) : Int × MmioDev :=
  if epoch = 0 then (-eInval, dev)
  else if dev.pmSuspended then (if dev.pmEpoch = epoch then 0 else -eBusy, dev)
  else (0,
    { dev with
      pmEpoch := epoch
      pmSuspended := true })

/-- `virtio_mmio_pm_resume`, up to the loop that replays the deferred notifications -/
def pmResume (epoch : Nat) : Int × MmioDev :=
  if epoch = 0 then (-eInval, dev)
  else if dev.pmSuspended ∧ dev.pmEpoch ≠ epoch then (-eInval, dev)
  else if dev.pmSuspended then (0,
    { dev with
      pmEpoch := 0
      pmSuspended := false })
  else (0, dev)

/-- One turn of that loop: whether the queue's notification is replayed. -/
def pmReplay (queueId : Nat) : Bool × MmioDev :=
  if bitmapTest queueId dev.deferredQueueMask then
    (true, { dev with deferredQueueMask := bitmapClear queueId dev.deferredQueueMask })
  else (false, dev)

end MmioDev

end BeauOs.Virtio
