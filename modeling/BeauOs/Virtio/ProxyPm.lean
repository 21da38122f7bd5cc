/-
Suspending and resuming the proxy devices (`sdk/bsp/virtio/virtio_proxy.c`).

`virtio_proxy_pm_suspend` waits until no device has a request in a pending slot and then marks the
devices suspended, so that notifications are deferred; `virtio_proxy_pm_resume` takes the marks off
and passes on what was deferred.  Both have a variant for the devices of one VM.

They hold the lock of one device at a time, while frontends and backends run on, so they are cut
into steps between which anything may happen: a step is one locked section, or one access to the
flags of a device.  `Place` is the place in the code with the local variables that are live there; a
loop over the devices carries those it has not come to.  The result of a step is the next place, or
the status that the function returns.  Moving the time stamps of a device on is left out with them.
-/
import BeauOs.Virtio.Table

namespace BeauOs.Virtio

open BeauOs.Pm

/-- The devices a call is for: those of the host or those of one VM. -/
inductive PmTarget
  | system
  | vm (vmid : Nat)
  deriving DecidableEq

/-- The entries of `virtio_proxy_devs` that the loops of a call go over. -/
def PmTarget.ids : PmTarget → List (Nat × Nat)
  | .system =>
    (List.range configMaxVmNum).flatMap fun vm =>
      (List.range virtioProxyMax).map fun index => (vm, index)
  | .vm vmid => (List.range virtioProxyMax).map fun index => (vmid, index)

def drainRetries : Nat := 1000

/-- The devices, and what is remembered of their suspension. -/
structure ProxyPm where
  table : ProxyTable
  suspended : Bool
  suspendEpoch : Nat
  vmSuspended : Nat → Bool
  vmSuspendEpoch : Nat → Nat

namespace ProxyPm

/-- A place in a call.  `after` is what `virtio_proxy_pm_suspend` returns behind the resume it gives
up with. -/
inductive Place
  | dependents (left : List (Nat × Nat))
  /-- the count of a turn of the drain loop -/
  | drain (retry : Nat) (left : List (Nat × Nat)) (active : Nat)
  /-- the count behind the drain loop -/
  | recount (left : List (Nat × Nat)) (active : Nat)
  | mark (left : List (Nat × Nat))
  | resume (left : List (Nat × Nat)) (firstError : Int) (after : Option Int)
  /-- the loop of `virtio_mmio_pm_resume` on a device, at a queue -/
  | replay (d : Nat × Nat) (queueId : Nat) (left : List (Nat × Nat)) (firstError : Int)
      (after : Option Int)
  /-- the bit of the queue is cleared, and `notify_queue` is called next -/
  | notify (d : Nat × Nat) (queueId : Nat) (left : List (Nat × Nat)) (firstError : Int)
      (after : Option Int)

def boot (cfgs : Nat → Nat → Option (ProxyConfig × List Byte)) : ProxyPm where
  table := .boot cfgs
  suspended := false
  suspendEpoch := 0
  vmSuspended := fun _ => false
  vmSuspendEpoch := fun _ => 0

section

variable (p : ProxyPm) (target : PmTarget)

/-- The devices of a call that are there. -/
def present : List (Nat × Nat) :=
  target.ids.filter fun d => (p.table.dev d.1 d.2).isSome

def setDev (d : Nat × Nat) (r : ProxyRun) : ProxyPm :=
  { p with table := p.table.set d.1 d.2 r }

def setMmio (d : Nat × Nat) (r : ProxyRun) (mmio : MmioDev) : ProxyPm :=
  p.setDev d { r with dev := { r.dev with mmio := mmio } }

/-- What a device adds to the count; all of them have 2048 slots, so that it does not wrap. -/
def activeAt (d : Nat × Nat) : Nat :=
  match p.table.dev d.1 d.2 with
  | none => 0
  | some r => r.dev.pendingActive

variable (epoch : Nat)

def setSuspended : ProxyPm :=
  match target with
  | .system =>
    { p with
      suspended := true
      suspendEpoch := epoch }
  | .vm vmid =>
    { p with
      vmSuspended := Function.update p.vmSuspended vmid true
      vmSuspendEpoch := Function.update p.vmSuspendEpoch vmid epoch }

def clearSuspended : ProxyPm :=
  match target with
  | .system =>
    { p with
      suspended := false
      suspendEpoch := 0 }
  | .vm vmid =>
    { p with
      vmSuspended := Function.update p.vmSuspended vmid false
      vmSuspendEpoch := Function.update p.vmSuspendEpoch vmid 0 }

/-- The checks at the start of `virtio_proxy_pm_suspend` and `virtio_proxy_pm_suspend_vm` -/
def suspendEntry : Place ⊕ Int :=
  match target with
  | .system =>
    if epoch = 0 then .inr (-eInval)
    else if p.suspended then .inr (if p.suspendEpoch = epoch then 0 else -eBusy)
    else .inl (.drain 0 (p.present .system) 0)
  | .vm vmid =>
    if vmid ≥ configMaxVmNum ∨ epoch = 0 then .inr (-eInval)
    else if p.suspended then .inr (-eBusy)
    else if p.vmSuspended vmid then .inr (if p.vmSuspendEpoch vmid = epoch then 0 else -eBusy)
    else .inl (.dependents ((p.present .system).filter fun d => d.1 ≠ vmid))

/-- The checks at the start of `virtio_proxy_pm_resume` and `virtio_proxy_pm_resume_vm` -/
def resumeEntry (after : Option Int) : Place ⊕ Int :=
  match target with
  | .system =>
    if epoch = 0 then .inr (after.getD (-eInval))
    else if p.suspended ∧ p.suspendEpoch ≠ epoch then .inr (after.getD (-eInval))
    else .inl (.resume (p.present .system) 0 after)
  | .vm vmid =>
    if vmid ≥ configMaxVmNum ∨ epoch = 0 then .inr (after.getD (-eInval))
    else if p.vmSuspended vmid = false then .inr (after.getD 0)
    else if p.vmSuspendEpoch vmid ≠ epoch then .inr (after.getD (-eInval))
    else .inl (.resume (p.present (.vm vmid)) 0 after)

/-- The end of the drain: it has timed out, or the devices are marked. -/
def drained (active : Nat) : ProxyPm × (Place ⊕ Int) :=
  if active ≠ 0 then
    (p, match target with
      | .system => p.resumeEntry .system epoch (some (-eTimedOut))
      | .vm _ => .inr (-eTimedOut))
  else (p.setSuspended target epoch, .inl (.mark (p.present target)))

/-- `virtio_mmio_pm_suspend` for one device -/
def markDev (d : Nat × Nat) (left : List (Nat × Nat)) : ProxyPm × (Place ⊕ Int) :=
  match p.table.dev d.1 d.2 with
  | none => (p, .inl (.mark left))
  | some r =>
    match r.dev.mmio.pmSuspend epoch with
    | (status, mmio) =>
      (p.setMmio d r mmio,
        if status ≠ 0 then (p.setMmio d r mmio).resumeEntry target epoch (some status)
        else .inl (.mark left))

/-- `virtio_mmio_pm_resume` for one device, up to its loop -/
def resumeDev (d : Nat × Nat) (left : List (Nat × Nat)) (firstError : Int) (after : Option Int) :
    ProxyPm × (Place ⊕ Int) :=
  match p.table.dev d.1 d.2 with
  | none => (p, .inl (.resume left firstError after))
  | some r =>
    match r.dev.mmio.pmResume epoch with
    | (status, mmio) =>
      (p.setMmio d r mmio,
        if status ≠ 0 then
          .inl (.resume left (if firstError = 0 then status else firstError) after)
        else .inl (.replay d 0 left firstError after))

/-- One turn of that loop, up to the callback -/
def replayDev (d : Nat × Nat) (queueId : Nat) (left : List (Nat × Nat)) (firstError : Int)
    (after : Option Int) : ProxyPm × (Place ⊕ Int) :=
  match p.table.dev d.1 d.2 with
  | none => (p, .inl (.resume left firstError after))
  | some r =>
    if queueId < r.dev.mmio.queueNum then
      match r.dev.mmio.pmReplay queueId with
      | (true, mmio) => (p.setMmio d r mmio, .inl (.notify d queueId left firstError after))
      | (false, _) => (p, .inl (.replay d (queueId + 1) left firstError after))
    else (p, .inl (.resume left firstError after))

end

/-- The callback of that turn -/
def notifyDev (mem : Nat → GuestView) (p : ProxyPm) (d : Nat × Nat) (queueId : Nat) : ProxyPm :=
  match p.table.dev d.1 d.2 with
  | none => p
  | some r => p.setDev d (r.notifyQueue (mem d.1) queueId)

def step (mem : Nat → GuestView) (vmRunning : Nat → Bool) (target : PmTarget) (epoch : Nat)
    (p : ProxyPm) : Place → ProxyPm × (Place ⊕ Int)
  | .dependents [] => (p, .inl (.drain 0 (p.present target) 0))
  | .dependents (d :: left) =>
    (p, match target with
      | .system => .inl (.dependents left)
      | .vm vmid =>
        if vmRunning d.1 && p.table.serves vmid d.1 d.2 then .inr (-eBusy)
        else .inl (.dependents left))
  | .drain retry [] active =>
    (p, .inl (if active ≠ 0 ∧ retry + 1 < drainRetries then
        .drain (retry + 1) (p.present target) 0
      else .recount (p.present target) 0))
  | .drain retry (d :: left) active => (p, .inl (.drain retry left (active + p.activeAt d)))
  | .recount [] active => p.drained target epoch active
  | .recount (d :: left) active => (p, .inl (.recount left (active + p.activeAt d)))
  | .mark [] => (p, .inr 0)
  | .mark (d :: left) => p.markDev target epoch d left
  | .resume [] firstError after =>
    (if firstError = 0 then p.clearSuspended target else p, .inr (after.getD firstError))
  | .resume (d :: left) firstError after => p.resumeDev epoch d left firstError after
  | .replay d queueId left firstError after => p.replayDev d queueId left firstError after
  | .notify d queueId left firstError after =>
    (notifyDev mem p d queueId, .inl (.replay d (queueId + 1) left firstError after))

end ProxyPm

end BeauOs.Virtio
