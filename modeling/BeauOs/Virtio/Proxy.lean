/-
One device of the virtio proxy (`sdk/bsp/virtio/virtio_proxy.c`).

The device stands between a frontend VM, whose driver publishes descriptor chains in the avail ring
of a virtqueue, and a backend VM, which serves them by hypercalls.  A request goes through a pending
slot: it is popped from the avail ring and its chain is copied into a free slot, when the frontend
notifies the queue or when the backend polls an empty one; a poll hands it to the backend, and a
reply is written to the descriptors the slot remembers and published in the used ring.  When the
backend is lost its requests wait in their slots for the next one.

What happens to a device is logged beside it (`ProxyRun`): the log is not part of the hypervisor.
The hypercalls, the notification and the reset take the lock of the device; a write to a register
of the transport takes none and is one step here.  Statistics, time stamps and the coarse `state`
decide nothing and are left out, and so are backends inside the hypervisor, which nothing binds.
-/
import BeauOs.Virtio.Mmio

namespace BeauOs.Virtio

open BeauOs.Pm

def proxyDataMax : Nat := 8192

/-- `ACRN_VIRTIO_PROXY_DESC_MAX`, also `VIRTIO_PROXY_CHAIN_LIMIT` -/
def proxyDescMax : Nat := 8

def proxyBatchMax : Nat := 4

def proxyPendingMax : Nat := 4

def invalidVmid : Nat := 65535

/-! ### Pending slots -/

/-- `struct virtio_proxy_pending_out` -/
structure OutDesc where
  gpa : Gpa
  len : Nat

/-- `struct virtio_proxy_pending`; `in_len` and `out_count` are the lengths of `input` and `out`. -/
structure Pending where
  valid : Bool
  sent : Bool
  done : Bool
  queueId : Nat
  head : Nat
  outLen : Nat
  input : List Byte
  out : List OutDesc

namespace Pending

/-- A slot after `memset`. -/
def zero : Pending := ⟨false, false, false, 0, 0, 0, [], []⟩

def isFree (p : Pending) : Bool := !p.valid && !p.sent

/-- Whether the slot holds a request of the queue that waits for a poll. -/
def isUnsent (p : Pending) (queueId : Nat) : Bool :=
  p.valid && !p.sent && decide (p.queueId = queueId)

/-- Whether the slot holds the request that a reply names. -/
def isSent (p : Pending) (queueId head : Nat) : Bool :=
  p.valid && p.sent && decide (p.queueId = queueId) && decide (p.head = head)

end Pending

/-- What the walk over a descriptor chain has gathered. -/
structure ChainCopy where
  input : List Byte
  out : List OutDesc
  outLen : Nat

namespace ChainCopy

/-- The effect of one descriptor; `t` is the access that reads its data. -/
def take (acc : ChainCopy) (mem : GuestView) (t : Nat) (desc : RingDesc) : Option ChainCopy :=
  if desc.isWrite then
    if acc.out.length ≥ proxyDescMax then none
    else if acc.outLen > uint32Max - desc.len then none
    else some
      { acc with
        out := acc.out ++ [⟨desc.addr, desc.len⟩]
        outLen := acc.outLen + desc.len }
  else if desc.len > proxyDataMax ∨ acc.input.length > proxyDataMax - desc.len then none
  else (mem.copyFrom t desc.addr desc.len).map fun bytes =>
    { acc with input := acc.input ++ bytes }

/-- The loop of `virtio_proxy_copy_chain_to_pending`.  What a chain has beyond the limit is left
out, and the chain is accepted. -/
def walk (dev : MmioDev) (mem : GuestView) (vq : MmioQueue) :
    Nat → Nat → Nat → ChainCopy → Option ChainCopy
  | 0, _, _, acc => some acc
  | left + 1, t, id, acc =>
    match dev.readDesc mem t vq id with
    | none => none
    | some desc =>
      match acc.take mem (t + 1) desc with
      | none => none
      | some acc' => if desc.hasNext then walk dev mem vq left (t + 2) desc.next acc' else some acc'

end ChainCopy

/-- `virtio_proxy_copy_chain_to_pending`: the slot, if the whole chain could be copied. -/
def copyChainToPending (dev : MmioDev) (mem : GuestView) (t queueId head : Nat) : Option Pending :=
  match dev.getQueue queueId with
  | none => none
  | some vq =>
    (ChainCopy.walk dev mem vq proxyDescMax t head ⟨[], [], 0⟩).map fun acc =>
      { valid := true
        sent := false
        done := false
        queueId := queueId
        head := head
        outLen := acc.outLen
        input := acc.input
        out := acc.out }

/-! ### Devices -/

/-- What the platform sets for a device. -/
structure ProxyConfig where
  vmId : Nat
  deviceId : Nat
  queueNum : Nat
  queueSize : Nat
  deviceFeatures : BitVec 64
  /-- `throughput == VIRTIO_PROXY_THROUGHPUT_HIGH` -/
  highThroughput : Bool
  /-- `backend_vmid` -/
  configuredBackendVmid : Nat
  pendingLimit : Nat
  pendingLimit_le : pendingLimit ≤ proxyPendingMax

structure ProxyDev where
  cfg : ProxyConfig
  mmio : MmioDev
  config : List Byte
  hcallBackendRegistered : Bool
  backendVmid : Nat
  backendCaps : BitVec 32
  pending : Nat → Pending

/-- What a call does for a device, in the order it is done. -/
inductive ProxyEvent
  /-- a head is popped from the avail ring of a queue -/
  | popped (queueId head : Nat)
  /-- the chain of that head is copied into a slot -/
  | kept (slot : Nat)
  /-- the request in a slot is handed to a backend -/
  | handed (slot : Nat)
  /-- a part of a reply is written to a descriptor of the request in a slot -/
  | wroteDesc (slot : Nat) (write : GuestWrite)
  /-- the used ring of the queue of the request in a slot is written -/
  | wroteUsed (slot : Nat) (write : GuestWrite)
  /-- the request in a slot is published in the used ring of a queue -/
  | published (slot queueId head : Nat)
  /-- the memory of the calling VM is written -/
  | wroteCaller (gpa : Gpa) (size : Nat)
  deriving DecidableEq

namespace ProxyDev

/-- `virtio_proxy_init_vm`, for one device -/
def init (cfg : ProxyConfig) (config : List Byte) : ProxyDev where
  cfg := cfg
  mmio := .init cfg.vmId cfg.queueNum cfg.queueSize cfg.deviceFeatures
  config := config
  hcallBackendRegistered := false
  backendVmid := invalidVmid
  backendCaps := 0#32
  pending := fun _ => .zero

variable (dev : ProxyDev)

def setSlot (slot : Nat) (p : Pending) : ProxyDev :=
  { dev with pending := fun i => if i = slot then p else dev.pending i }

/-- The first slot the loop over `pending_limit` accepts. -/
def findSlot (accept : Pending → Bool) : Option Nat :=
  (List.range dev.cfg.pendingLimit).find? fun i => accept (dev.pending i)

def freePendingSlot : Option Nat := dev.findSlot Pending.isFree

def unsentPendingSlot (queueId : Nat) : Option Nat :=
  dev.findSlot (Pending.isUnsent · queueId)

def sentPendingSlot (queueId head : Nat) : Option Nat :=
  dev.findSlot (Pending.isSent · queueId head)

def pendingActive : Nat :=
  ((List.range dev.cfg.pendingLimit).filter fun i => (dev.pending i).valid).length

/-- `ACRN_VIRTIO_PROXY_CAP_BATCH | ACRN_VIRTIO_PROXY_CAP_SHARED_RING` -/
def capBatch : BitVec 32 := 0x18#32

def backendBatchReady : Bool :=
  dev.hcallBackendRegistered && decide (dev.backendCaps &&& capBatch = capBatch)

def prefetchLimit : Nat :=
  if dev.cfg.highThroughput && dev.backendBatchReady then dev.cfg.pendingLimit else 1

def dropBackend : ProxyDev :=
  { dev with
    hcallBackendRegistered := false
    backendVmid := invalidVmid
    backendCaps := 0#32
    pending := fun i =>
      let p := dev.pending i
      if i < dev.cfg.pendingLimit ∧ p.valid ∧ p.sent ∧ p.done = false then { p with sent := false }
      else p }

def reset : ProxyDev := { dev with pending := fun _ => .zero }

end ProxyDev

/-- A device and the log of what was done for it. -/
structure ProxyRun where
  dev : ProxyDev
  log : List ProxyEvent

namespace ProxyRun

/-! ### Taking requests from the avail ring -/

/-- How popping a head into a free slot ends. -/
inductive Taken
  | empty
  | failed
  | kept
  deriving DecidableEq

/-- Pop a head and copy its chain into the slot.  A chain that cannot be copied leaves the slot
cleared, but the index of the avail ring has moved on. -/
def takeAvail (front : GuestView) (t queueId slot : Nat) (r : ProxyRun) : Taken × ProxyRun :=
  match r.dev.mmio.popAvail front t queueId with
  | none => (.empty, r)
  | some (head, mmio) =>
    let dev := { r.dev with mmio := mmio }
    match copyChainToPending mmio front (t + 2) queueId head with
    | none => (.failed, ⟨dev.setSlot slot .zero, r.log ++ [.popped queueId head]⟩)
    | some p => (.kept, ⟨dev.setSlot slot p, r.log ++ [.popped queueId head, .kept slot]⟩)

/-- The accesses of `takeAvail`: two for the ring, and two for each descriptor. -/
def takeAccesses : Nat := 2 + 2 * proxyDescMax

/-- `virtio_proxy_next_pending_locked`: the status, and the slot to hand out.  That the slot is
valid and not sent is checked once more in the source, and holds on both ways here. -/
def nextPending (front : GuestView) (t queueId : Nat) (r : ProxyRun) : Except Int Nat × ProxyRun :=
  match r.dev.unsentPendingSlot queueId with
  | some slot => (.ok slot, r)
  | none =>
    match r.dev.freePendingSlot with
    | none => (.error (-eBusy), r)
    | some slot =>
      match takeAvail front t queueId slot r with
      | (.empty, r') => (.error (-eNoData), r')
      | (.failed, r') => (.error (-eFault), r')
      | (.kept, r') => (.ok slot, r')

/-- The loop of `virtio_proxy_prefetch_avail_locked`, with the turns that are left. -/
def prefetchAvail (front : GuestView) (queueId : Nat) : Nat → Nat → ProxyRun → ProxyRun
  | 0, _, r => r
  | left + 1, t, r =>
    match r.dev.freePendingSlot with
    | none => r
    | some slot =>
      match takeAvail front t queueId slot r with
      | (.empty, r') => r'
      | (.failed, r') => r'
      | (.kept, r') => prefetchAvail front queueId left (t + takeAccesses) r'

def notifyQueue (front : GuestView) (queueId : Nat) (r : ProxyRun) : ProxyRun :=
  if queueId ≥ r.dev.mmio.queueNum then r
  else if r.dev.hcallBackendRegistered then
    prefetchAvail front queueId (min r.dev.prefetchLimit r.dev.cfg.pendingLimit) 0 r
  else r

/-! ### Hypercalls of the backend -/

structure Ioc where
  op : Nat
  deviceId : Nat
  frontendVmid : Nat
  queueId : Nat
  head : Nat
  descCount : Nat
  inLen : Nat
  outLen : Nat
  inGpa : Gpa
  outGpa : Gpa
  deviceFeatures : BitVec 64
  configGpa : Gpa
  configLen : Nat
  registerFlags : BitVec 32
  abiVersion : Nat
  iocSize : Nat
  backendCaps : BitVec 32
  batchGpa : Gpa
  batchLen : Nat
  batchCount : Nat
  batchEntrySize : Nat
  desc : List Nat

def sizeofIoc : Nat := 184

def proxyConfigSize : Nat := 64

def proxyAbiVersion : Nat := 3

def capSupported : BitVec 32 := 0x1f#32

/-- The config bytes of a registration, or `none` if they cannot be had. -/
def registerConfig (back : GuestView) (ioc : Ioc) (old : List Byte) : Option (List Byte) :=
  if ioc.registerFlags.getLsbD 1 then
    if ioc.configLen > proxyConfigSize then none
    else if ioc.configLen ≠ 0 ∧ ioc.configGpa = 0#64 then none
    else back.copyFrom 0 ioc.configGpa ioc.configLen
  else some old

/-- `virtio_proxy_hcall_register`, of the device that was found -/
def hcallRegister (back : GuestView) (caller : Nat) (ioc : Ioc) (r : ProxyRun) :
    Int × Ioc × ProxyRun :=
  let abiVersion := if ioc.abiVersion = 0 then 1 else ioc.abiVersion
  if r.dev.mmio.vmId = caller then (-eNoDev, ioc, r)
  else if r.dev.cfg.configuredBackendVmid ≠ caller then (-ePerm, ioc, r)
  else if abiVersion > proxyAbiVersion ∨ (ioc.iocSize ≠ 0 ∧ ioc.iocSize < sizeofIoc) then
    (-eInval, ioc, r)
  else
    match registerConfig back ioc r.dev.config with
    | none => (-eFault, ioc, r)
    | some config =>
      if r.dev.hcallBackendRegistered ∧ r.dev.backendVmid ≠ caller then (-eBusy, ioc, r)
      else (0,
        { ioc with
          abiVersion := proxyAbiVersion
          iocSize := sizeofIoc
          backendCaps := ioc.backendCaps &&& capSupported },
        { r with
          dev :=
            { r.dev with
              hcallBackendRegistered := true
              backendVmid := caller
              backendCaps := ioc.backendCaps &&& capSupported
              config := config
              mmio :=
                if ioc.registerFlags.getLsbD 0 then
                  { r.dev.mmio with deviceFeatures := ioc.deviceFeatures ||| virtioFVersion1 }
                else r.dev.mmio } })

/-- The request in the slot is the backend's now. -/
def markSent (slot : Nat) (writes : List ProxyEvent) (r : ProxyRun) : ProxyRun where
  dev := r.dev.setSlot slot { r.dev.pending slot with sent := true }
  log := r.log ++ (writes ++ [.handed slot])

/-- `virtio_proxy_hcall_poll`, of the device that was found -/
def hcallPoll (front back : GuestView) (ioc : Ioc) (r : ProxyRun) : Int × Ioc × ProxyRun :=
  match nextPending front 0 ioc.queueId r with
  | (.error status, r') => (status, ioc, r')
  | (.ok slot, r') =>
    let p := r'.dev.pending slot
    if ioc.inGpa = 0#64 ∨ ioc.inLen < p.input.length then (-eInval, ioc, r')
    else if back.copyTo takeAccesses ioc.inGpa p.input.length then
      (0,
        { ioc with
          frontendVmid := r'.dev.mmio.vmId
          deviceId := r'.dev.cfg.deviceId
          queueId := p.queueId
          head := p.head
          inLen := p.input.length
          outLen := p.outLen
          descCount := p.out.length
          desc := p.out.map OutDesc.len },
        markSent slot [.wroteCaller ioc.inGpa p.input.length] r')
    else (-eFault, ioc, r')

/-- `sizeof(struct virtio_proxy_batch_entry_meta)`, also the offset of `in` -/
def sizeofMeta : Nat := 96

/-- `offsetof(struct acrn_virtio_proxy_batch_entry, out)` -/
def offsetofOut : Nat := sizeofMeta + proxyDataMax

def sizeofBatchEntry : Nat := offsetofOut + proxyDataMax

def batchEntryGpa (ioc : Ioc) (index : Nat) : Gpa :=
  ioc.batchGpa + BitVec.ofNat 64 (index * ioc.batchEntrySize)

def batchIocValid (ioc : Ioc) : Bool :=
  decide (ioc.batchGpa ≠ 0#64) && decide (ioc.batchCount ≠ 0) &&
    decide (ioc.batchCount ≤ proxyBatchMax) && decide (sizeofBatchEntry ≤ ioc.batchEntrySize) &&
    decide (ioc.batchCount * ioc.batchEntrySize ≤ uint32Max) &&
    decide (ioc.batchCount * ioc.batchEntrySize ≤ ioc.batchLen)

def copyPendingToBatch (back : GuestView) (t slot : Nat) (gpa : Gpa) (r : ProxyRun) :
    Int × ProxyRun :=
  let p := r.dev.pending slot
  if back.copyTo t gpa sizeofMeta then
    let inGpa := gpa + BitVec.ofNat 64 sizeofMeta
    if back.copyTo (t + 1) inGpa p.input.length then
      (0, markSent slot [.wroteCaller gpa sizeofMeta, .wroteCaller inGpa p.input.length] r)
    else (-eFault, { r with log := r.log ++ [.wroteCaller gpa sizeofMeta] })
  else (-eFault, r)

/-- The loop of `virtio_proxy_hcall_batch_poll`, with the turns that are left and the index of the
entry; the last status and how many requests were handed out. -/
def batchPollLoop (front back : GuestView) (ioc : Ioc) :
    Nat → Nat → Int × Nat × ProxyRun → Int × Nat × ProxyRun
  | 0, _, x => x
  | left + 1, i, (_, count, r) =>
    let t := i * (takeAccesses + 2)
    match nextPending front t ioc.queueId r with
    | (.error status, r') => (status, count, r')
    | (.ok slot, r') =>
      match copyPendingToBatch back (t + takeAccesses) slot (batchEntryGpa ioc i) r' with
      | (status, r'') =>
        if status = 0 then batchPollLoop front back ioc left (i + 1) (0, count + 1, r'')
        else (status, count, r'')

/-- `virtio_proxy_hcall_batch_poll`, of the device that was found -/
def hcallBatchPoll (front back : GuestView) (ioc : Ioc) (r : ProxyRun) : Int × Ioc × ProxyRun :=
  if batchIocValid ioc = false then (-eInval, ioc, r)
  else if r.dev.backendBatchReady = false then (-eNotSup, ioc, r)
  else
    match batchPollLoop front back ioc ioc.batchCount 0 (-eNoDev, 0, r) with
    | (status, count, r') =>
      (if count ≠ 0 then 0 else status, { ioc with batchCount := count }, r')

/-! ### Replies -/

/-- How far a reply is written: the next access, and how much is copied and how much is left. -/
structure Scatter where
  t : Nat
  copied : Nat
  remaining : Nat
  log : List ProxyEvent

/-- The size of `buf` in `virtio_proxy_complete_pending_from_gpa` -/
def scatterChunk : Nat := 128

/-- The loop over one descriptor, which has `left` bytes behind `off`; every turn takes at least one
of them, so `left` turns are enough. -/
def scatterDesc (front back : GuestView) (slot : Nat) (outGpa gpa : Gpa) :
    Nat → Nat → Nat → Scatter → Int × Scatter
  | 0, _, _, s => (0, s)
  | fuel + 1, off, left, s =>
    if left = 0 ∨ s.remaining = 0 then (0, s)
    else
      let chunk := min (min s.remaining left) scatterChunk
      match back.copyFrom s.t (outGpa + BitVec.ofNat 64 s.copied) chunk with
      | none => (-eFault, s)
      | some bytes =>
        let dst := gpa + BitVec.ofNat 64 off
        if front.copyTo (s.t + 1) dst chunk then
          scatterDesc front back slot outGpa gpa fuel (off + chunk) (left - chunk)
            { t := s.t + 2
              copied := s.copied + chunk
              remaining := s.remaining - chunk
              log := s.log ++ [.wroteDesc slot ⟨dst, bytes⟩] }
        else (-eFault, s)

/-- The loop over the descriptors of the request. -/
def scatter (front back : GuestView) (slot : Nat) (outGpa : Gpa) :
    List OutDesc → Scatter → Int × Scatter
  | [], s => (0, s)
  | desc :: rest, s =>
    if s.remaining = 0 then (0, s)
    else
      match scatterDesc front back slot outGpa desc.gpa desc.len 0 desc.len s with
      | (status, s') => if status = 0 then scatter front back slot outGpa rest s' else (status, s')

/-- `virtio_proxy_complete_pending_from_gpa`: the status, and the next access. -/
def completePending (front back : GuestView) (t slot : Nat) (outGpa : Gpa) (outLen : Nat)
    (r : ProxyRun) : Int × Nat × ProxyRun :=
  let p := r.dev.pending slot
  if outLen > p.outLen ∨ (outLen ≠ 0 ∧ outGpa = 0#64) then (-eInval, t, r)
  else
    match scatter front back slot outGpa p.out ⟨t, 0, outLen, r.log⟩ with
    | (status, s) =>
      if status ≠ 0 then (status, s.t, { r with log := s.log })
      else if s.remaining ≠ 0 then (-eInval, s.t, { r with log := s.log })
      else
        match r.dev.mmio.addUsed front s.t p.queueId p.head outLen with
        | (false, writes) =>
          (-eFault, s.t + 3, { r with log := s.log ++ writes.map (.wroteUsed slot) })
        | (true, writes) =>
          (0, s.t + 3,
            { dev := r.dev.setSlot slot { Pending.zero with done := true }
              log := s.log ++ (writes.map (.wroteUsed slot) ++
                [.published slot p.queueId p.head]) })

/-- `virtio_proxy_hcall_reply`, of the device that was found.  The queue it publishes in is the one
the caller names, which is the slot's own. -/
def hcallReply (front back : GuestView) (ioc : Ioc) (r : ProxyRun) : Int × ProxyRun :=
  match r.dev.sentPendingSlot ioc.queueId ioc.head with
  | none => (-eInval, r)
  | some slot =>
    match completePending front back 0 slot ioc.outGpa ioc.outLen r with
    | (status, _, r') =>
      if status ≠ 0 then (status, r')
      else (0, { r' with dev := { r'.dev with mmio := r'.dev.mmio.raiseUsedIrq } })

/-- What a batch reply reads of an entry. -/
structure BatchMeta where
  queueId : Nat
  head : Nat
  replyLen : Nat

def BatchMeta.ofBytes (bytes : List Byte) : BatchMeta where
  queueId := leNat ((bytes.drop 4).take 2)
  head := leNat ((bytes.drop 6).take 2)
  replyLen := leNat ((bytes.drop 20).take 4)

/-- The loop of `virtio_proxy_hcall_batch_reply`, with the turns that are left, the index of the
entry and the next access; the last status and how many requests were completed. -/
def batchReplyLoop (front back : GuestView) (ioc : Ioc) :
    Nat → Nat → Nat → Int × Nat × ProxyRun → Int × Nat × ProxyRun
  | 0, _, _, x => x
  | left + 1, i, t, (_, count, r) =>
    match back.copyFrom t (batchEntryGpa ioc i) sizeofMeta with
    | none => (-eFault, count, r)
    | some bytes =>
      let entry := BatchMeta.ofBytes bytes
      match r.dev.sentPendingSlot entry.queueId entry.head with
      | none => (-eInval, count, r)
      | some slot =>
        match completePending front back (t + 1) slot
            (batchEntryGpa ioc i + BitVec.ofNat 64 offsetofOut) entry.replyLen r with
        | (status, t', r') =>
          if status = 0 then
            batchReplyLoop front back ioc left (i + 1) t' (0, count + 1, r')
          else (status, count, r')

/-- `virtio_proxy_hcall_batch_reply`, of the device that was found -/
def hcallBatchReply (front back : GuestView) (ioc : Ioc) (r : ProxyRun) : Int × ProxyRun :=
  if batchIocValid ioc = false then (-eInval, r)
  else if r.dev.backendBatchReady = false then (-eNotSup, r)
  else
    match batchReplyLoop front back ioc ioc.batchCount 0 0 (-eNoDev, 0, r) with
    | (status, count, r') =>
      if count ≠ 0 then
        (0, { r' with dev := { r'.dev with mmio := r'.dev.mmio.raiseUsedIrq } })
      else (status, r')

/-! ### The frontend's registers -/

/-- `virtio_proxy_mmio_handler` for a write: the register, then the callback it ends in. -/
def writeReg (front : GuestView) (gated : Bool) (reg : MmioDev.Reg) (value : BitVec 32)
    (r : ProxyRun) : ProxyRun :=
  match r.dev.mmio.writeReg gated reg value with
  | (mmio, .notifyQueue queueId) =>
    notifyQueue front queueId { r with dev := { r.dev with mmio := mmio } }
  | (mmio, .reset) => { r with dev := { r.dev with mmio := mmio }.reset }
  | (mmio, .queueReady _) => { r with dev := { r.dev with mmio := mmio } }
  | (mmio, .none) => { r with dev := { r.dev with mmio := mmio } }

/-! ### Runs -/

inductive Op
  /-- the frontend writes a register -/
  | writeReg (reg : MmioDev.Reg) (value : BitVec 32)
  /-- a notification that was deferred is passed on -/
  | replay (queueId : Nat)
  | register (caller : Nat) (ioc : Ioc)
  | poll (ioc : Ioc)
  | batchPoll (ioc : Ioc)
  | reply (ioc : Ioc)
  | batchReply (ioc : Ioc)
  /-- the backend VM is reset or goes away -/
  | dropBackend

/-- What a call finds outside the device. -/
structure Env where
  front : GuestView
  /-- the memory of the calling VM -/
  back : GuestView
  /-- what `hv_pm_vm_io_is_gated` says of the frontend -/
  gated : Bool

def step (r : ProxyRun) (call : Env × Op) : ProxyRun :=
  let env := call.1
  match call.2 with
  | .writeReg reg value => writeReg env.front env.gated reg value r
  | .replay queueId => notifyQueue env.front queueId r
  | .register caller ioc => (hcallRegister env.back caller ioc r).2.2
  | .poll ioc => (hcallPoll env.front env.back ioc r).2.2
  | .batchPoll ioc => (hcallBatchPoll env.front env.back ioc r).2.2
  | .reply ioc => (hcallReply env.front env.back ioc r).2
  | .batchReply ioc => (hcallBatchReply env.front env.back ioc r).2
  | .dropBackend => { r with dev := r.dev.dropBackend }

def boot (cfg : ProxyConfig) (config : List Byte) : ProxyRun := ⟨.init cfg config, []⟩

end ProxyRun

end BeauOs.Virtio
