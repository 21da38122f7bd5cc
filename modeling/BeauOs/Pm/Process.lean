/-
`hv_pm_process_from_idle`: how the boot pCPU carries a transaction through.

The function runs on the idle thread of one pCPU while the others go on making requests, so
it is cut into steps between which anything may happen: a step is one section under the lock
of the transaction, one call into a hook, the scheduler or the platform, or reads of what no
other pCPU writes meanwhile.  `Pc` is the place in the code with the local variables that are
live there, and the result of a step is the next place, or `none` where the function returns.

`hv_pm_run_forward`, `hv_pm_run_reverse` and `hv_pm_thaw_guests` are each called from two
places; `suspendPhase` and `Unwind` say for which of them.
-/
import BeauOs.Pm.Transaction

namespace BeauOs.Pm

/-- `hv_pm_rollback_from_idle` with its reason, or `hv_pm_restore_from_idle`. -/
inductive Unwind
  | rollback (reason : Int)
  | restore
  deriving DecidableEq

/-- The `abort_phase` of `hv_pm_run_reverse`. -/
def Unwind.abortPhase : Unwind → Bool
  | .rollback _ => true
  | .restore => false

/-- The status `hv_pm_complete_running` records. -/
def Unwind.lastStatus : Unwind → Int
  | .rollback reason => reason
  | .restore => 0

/-- The masks `hv_pm_gate_vm` collects. -/
structure VcpuMasks where
  gated : BitVec 64
  active : BitVec 64
  wakeOwned : BitVec 64
  deriving DecidableEq

/-- A place in `hv_pm_process_from_idle` or in what it calls. -/
inductive Pc
  /-- `hv_pm_run_forward`, before the count is read -/
  | forwardStart (suspendPhase : Bool)
  /-- the head of its loop -/
  | forward (suspendPhase : Bool) (count idx : Nat)
  /-- the callback has returned zero -/
  | hookDone (suspendPhase : Bool) (count idx : Nat)
  /-- the check behind `hv_pm_run_prepare` or behind `hv_pm_run_suspend` -/
  | phaseEnd (suspendPhase : Bool) (status : Int)
  | setFreezing
  /-- `hv_pm_freeze_guests` -/
  | freezeStart
  /-- `hv_pm_gate_vm` for the next VM -/
  | gateVm (start : Nat) (required : BitVec 64) (vmid : Nat)
  | gateRecord (start : Nat) (required : BitVec 64) (vmid : Nat)
  | gateVcpu (start : Nat) (required : BitVec 64) (vmid vcpuId : Nat) (masks : VcpuMasks)
  /-- the thread is frozen and not published yet -/
  | gatePublish (start : Nat) (required : BitVec 64) (vmid vcpuId : Nat) (masks : VcpuMasks)
  /-- a round of the polling loop -/
  | poll (start : Nat)
  | pollVm (start : Nat) (snapshot : PmSnapshot) (vmid : Nat) (allFrozen : Bool)
  | wakeCheck
  | setSuspended
  | scopeCheck
  | platformEnter
  | setRestoring
  | failEpoch (status : Int)
  | rollback (reason : Int)
  /-- `hv_pm_run_reverse` -/
  | reverseStart (u : Unwind)
  | reverse (u : Unwind) (completed : BitVec 64) (idx : Nat) (firstError : Int)
  /-- `hv_pm_thaw_guests` -/
  | thawStart (u : Unwind)
  | thawVcpu (u : Unwind) (snapshot : PmSnapshot) (vmid vcpuId : Nat)
  | ungate (u : Unwind) (required : BitVec 64)
  | complete (u : Unwind)

/-! ### Locked sections -/

def hvPmFailEpoch (now epoch : Nat) (status : Int) (d : PmSnapshot) : PmSnapshot :=
  if d.epoch = epoch ∧ d.state ≠ .running then
    (d.recordError epoch d.state status d.initiatorVmid).transition now .failed
  else d

def hvPmSetHookCompleted (epoch idx : Nat) (d : PmSnapshot) : PmSnapshot × Int :=
  if d.epoch ≠ epoch ∨ d.state = .running ∨ d.state = .failed then (d, -eInval)
  else ({ d with completedHookMask := bitmapSet idx d.completedHookMask }, 0)

def hvPmClearHookCompleted (idx : Nat) (d : PmSnapshot) : PmSnapshot :=
  { d with completedHookMask := bitmapClear idx d.completedHookMask }

def hvPmEpochHasState (epoch : Nat) (state : PmState) (d : PmSnapshot) : Bool :=
  decide (d.epoch = epoch) && decide (d.state = state)

def hvPmSetEpochState (now epoch : Nat) (expected next : PmState) (d : PmSnapshot) :
    PmSnapshot × Int :=
  if d.epoch ≠ epoch ∨ d.state ≠ expected then (d, -eInval) else (d.transition now next, 0)

def hvPmPublishVcpuMasks (epoch vmid : Nat) (masks : VcpuMasks) (frozen : BitVec 64)
    (d : PmSnapshot) : PmSnapshot :=
  if d.epoch = epoch ∧ vmid < configMaxVmNum then
    d.updVm vmid fun record =>
      { record with
        gatedVcpuMask := masks.gated
        activeVcpuMask := masks.active
        frozenVcpuMask := frozen
        wakeOwnedVcpuMask := masks.wakeOwned }
  else d

/-- The section at the start of `hv_pm_rollback_from_idle`. -/
def hvPmStartRollback (now epoch : Nat) (reason : Int) (d : PmSnapshot) : PmSnapshot :=
  if d.epoch = epoch ∧ d.state ≠ .aborting ∧ d.state ≠ .running then
    (d.recordError epoch d.state reason d.initiatorVmid).transition now .aborting
  else d

/-- The section at the end of `hv_pm_thaw_guests`. -/
def hvPmUngate (epoch : Nat) (required : BitVec 64) (d : PmSnapshot) : PmSnapshot × Int :=
  if d.epoch ≠ epoch then (d, -eInval)
  else
    let gated := d.ioGatedVmMask &&& ~~~required
    ({ d with ioGatedVmMask := gated, ioGated := if gated = 0 then false else d.ioGated }, 0)

def hvPmCompleteRunning (now epoch : Nat) (lastStatus : Int) (d : PmSnapshot) : PmSnapshot :=
  if d.epoch = epoch ∧ d.state ≠ .failed then
    { d with
      lastEpoch := epoch
      lastState := d.state
      lastStatus := lastStatus
      requiredVmMask := 0
      completedHookMask := 0
      ioGated := false
      ioGatedVmMask := 0
      targetVmid := configMaxVmNum
      scope := .none
      : PmSnapshot }.transition now .running
  else d

/-! ### Reads of threads and records -/

variable (env : PmEnv) (h : PmHost)

section

variable (epoch : Nat)

/-- The bits of the gated vCPUs of a VM whose threads are frozen. -/
def frozenMask (vmid : Nat) (gated : BitVec 64) : BitVec 64 :=
  (List.range (h.vcpus vmid).val).foldl
    (fun mask vcpuId =>
      if bitmapTest vcpuId gated && isThreadFrozen env h epoch vmid vcpuId then
        bitmapSet vcpuId mask
      else mask) 0

def allGatedFrozen (vmid : Nat) (gated : BitVec 64) : Bool :=
  (List.range (h.vcpus vmid).val).all fun vcpuId =>
    !bitmapTest vcpuId gated || isThreadFrozen env h epoch vmid vcpuId

/-- What `hv_pm_thaw_guests` with `require_frozen` finds wrong with one VM. -/
def thawObjection (snapshot : PmSnapshot) (vmid : Nat) : Option Int :=
  let record := snapshot.vm vmid
  if !bitmapTest vmid snapshot.requiredVmMask then none
  else if env.vmState vmid ≠ record.priorVmState ∨
      record.frozenVcpuMask ≠ record.gatedVcpuMask then some (-eFault)
  else if !allGatedFrozen env h epoch vmid record.frozenVcpuMask then some (-eBusy)
  else none

/-! ### Steps -/

/-- The place `hv_pm_process_from_idle` starts at for a snapshot. -/
def processEntry (snapshot : PmSnapshot) : Option Pc :=
  match snapshot.state with
  | .aborting => some (.rollback snapshot.lastStatus)
  | .restoringHost => some (.reverseStart .restore)
  | .preparing => if snapshot.epoch ≠ 0 then some (.forwardStart false) else none
  | _ => none

/-- One iteration of the loop of `hv_pm_run_forward`, up to the return of the callback. -/
def forwardStep (suspendPhase : Bool) (count idx : Nat) : Pc :=
  if idx < count then
    if (h.hook idx).forward suspendPhase then
      if env.status = 0 then .hookDone suspendPhase count idx
      else .phaseEnd suspendPhase env.status
    else .forward suspendPhase count (idx + 1)
  else .phaseEnd suspendPhase 0

def phaseEndStep (suspendPhase : Bool) (status : Int) : Pc :=
  if status ≠ 0 then .rollback status
  else if suspendPhase then
    if hvPmEpochHasState epoch .freezingHost h.data then .wakeCheck else .rollback (-eAgain)
  else
    if hvPmEpochHasState epoch .preparing h.data then .setFreezing else .rollback (-eAgain)

/-- One iteration of the loop of `hv_pm_gate_vm`, up to the freeze of the thread. -/
def gateVcpuStep (start : Nat) (required : BitVec 64) (vmid vcpuId : Nat) (masks : VcpuMasks) :
    PmHost × Pc :=
  if vcpuId < (h.vcpus vmid).val then
    match env.vcpuState vmid vcpuId with
    | .offline => (h, .gateVcpu start required vmid (vcpuId + 1) masks)
    | .paused => (h, .phaseEnd true (-eBusy))
    | _ =>
      match freezeThread epoch (h.freezeEpoch vmid vcpuId) with
      | none => (h, .phaseEnd true (-eBusy))
      | some frozen =>
        let masks := { masks with
          gated := bitmapSet vcpuId masks.gated
          wakeOwned := if env.wakeOwned then bitmapSet vcpuId masks.wakeOwned
            else masks.wakeOwned }
        (h.setFreezeEpoch vmid vcpuId frozen, .gatePublish start required vmid vcpuId masks)
  else (h, .gateVm start required (vmid + 1))

def recordPoll (vmid : Nat) (record : VmPmRecord) (frozen : BitVec 64) (d : PmSnapshot) :
    PmSnapshot :=
  let masks := ⟨record.gatedVcpuMask, record.activeVcpuMask, record.wakeOwnedVcpuMask⟩
  let d := hvPmPublishVcpuMasks epoch vmid masks frozen d
  if frozen = record.gatedVcpuMask then
    d.updVm vmid fun record => { record with state := .frozen }
  else d

/-- One VM of a polling round; behind the last one, the end of the round. -/
def pollVmStep (start : Nat) (snapshot : PmSnapshot) (vmid : Nat) (allFrozen : Bool) :
    PmHost × Pc :=
  if vmid < configMaxVmNum then
    if bitmapTest vmid snapshot.requiredVmMask then
      let record := snapshot.vm vmid
      let frozen := frozenMask env h epoch vmid record.gatedVcpuMask
      ({ h with data := recordPoll epoch vmid record frozen h.data },
        .pollVm start snapshot (vmid + 1)
          (allFrozen && allGatedFrozen env h epoch vmid record.gatedVcpuMask))
    else (h, .pollVm start snapshot (vmid + 1) allFrozen)
  else if allFrozen then (h, .forwardStart true)
  else if sub64 env.now start / h.tickrate ≥ snapshot.prepareTimeoutMs then
    (h, .phaseEnd true (-eTimedOut))
  else (h, .poll start)

/-- One iteration of the loop of `hv_pm_run_reverse`, and its end. -/
def reverseStep (u : Unwind) (completed : BitVec 64) (idx : Nat) (firstError : Int) : PmHost × Pc :=
  match idx with
  | 0 => (h, if firstError ≠ 0 then .failEpoch firstError else .thawStart u)
  | hookIdx + 1 =>
    if !bitmapTest hookIdx completed then (h, .reverse u completed hookIdx firstError)
    else
      let status := if (h.hook hookIdx).reverse u.abortPhase then env.status else 0
      (if status = 0 then { h with data := hvPmClearHookCompleted hookIdx h.data } else h,
        .reverse u completed hookIdx (if firstError = 0 then status else firstError))

/-- One iteration of the thawing loops of `hv_pm_thaw_guests`, and their end. -/
def thawVcpuStep (u : Unwind) (snapshot : PmSnapshot) (vmid vcpuId : Nat) : PmHost × Pc :=
  if vmid < configMaxVmNum then
    if !bitmapTest vmid snapshot.requiredVmMask then (h, .thawVcpu u snapshot (vmid + 1) 0)
    else if vcpuId < (h.vcpus vmid).val then
      if !bitmapTest vcpuId (snapshot.vm vmid).gatedVcpuMask then
        (h, .thawVcpu u snapshot vmid (vcpuId + 1))
      else
        match thawThread epoch (h.freezeEpoch vmid vcpuId) with
        | none => (h, .failEpoch (-eFault))
        | some thawed => (h.setFreezeEpoch vmid vcpuId thawed, .thawVcpu u snapshot vmid (vcpuId + 1))
    else
      ({ h with data := h.data.updVm vmid fun record => { record with state := .running } },
        .thawVcpu u snapshot (vmid + 1) 0)
  else (h, .ungate u snapshot.requiredVmMask)

/-- The checks of `hv_pm_thaw_guests` before the first thread is thawed. -/
def thawStartStep (u : Unwind) : Pc :=
  if h.data.epoch ≠ epoch then .failEpoch (-eInval)
  else
    match u, (List.range configMaxVmNum).findSome? (thawObjection env h epoch h.data) with
    | .restore, some status => .failEpoch status
    | _, _ => .thawVcpu u h.data 0 0

def processStep : Pc → PmHost × Option Pc
  | .forwardStart suspendPhase =>
    (h, some (if h.hooksFinalized then .forward suspendPhase h.hooks.length 0
      else .phaseEnd suspendPhase (-ePerm)))
  | .forward suspendPhase count idx => (h, some (forwardStep env h suspendPhase count idx))
  | .hookDone suspendPhase count idx =>
    let (d, status) := hvPmSetHookCompleted epoch idx h.data
    ({ h with data := d },
      some (if status ≠ 0 then .phaseEnd suspendPhase status
        else .forward suspendPhase count (idx + 1)))
  | .phaseEnd suspendPhase status => (h, some (phaseEndStep h epoch suspendPhase status))
  | .setFreezing =>
    let (d, status) := hvPmSetEpochState env.now epoch .preparing .freezingHost h.data
    ({ h with data := d }, some (if status ≠ 0 then .phaseEnd true status else .freezeStart))
  | .freezeStart =>
    (h, some (if h.data.epoch ≠ epoch ∨ h.data.state ≠ .freezingHost then .phaseEnd true (-eInval)
      else .gateVm env.now h.data.requiredVmMask 0))
  | .gateVm start required vmid =>
    (h, some (if vmid < configMaxVmNum then
        if !bitmapTest vmid required then .gateVm start required (vmid + 1)
        else if env.vmState vmid ≠ .running then .phaseEnd true (-eNoDev)
        else .gateRecord start required vmid
      else .poll start))
  | .gateRecord start required vmid =>
    if h.data.epoch ≠ epoch ∨ h.data.state ≠ .freezingHost then
      (h, some (.phaseEnd true (-eAgain)))
    else
      ({ h with
          data := h.data.updVm vmid fun record =>
            { record with priorVmState := env.vmState vmid } },
        some (.gateVcpu start required vmid 0 ⟨0, 0, 0⟩))
  | .gateVcpu start required vmid vcpuId masks =>
    let (h, pc) := gateVcpuStep env h epoch start required vmid vcpuId masks
    (h, some pc)
  | .gatePublish start required vmid vcpuId masks =>
    let masks := { masks with
      active := if env.vcpuState vmid vcpuId = .running then bitmapSet vcpuId masks.active
        else masks.active }
    ({ h with data := hvPmPublishVcpuMasks epoch vmid masks 0 h.data },
      some (.gateVcpu start required vmid (vcpuId + 1) masks))
  | .poll start =>
    (h, some (if h.data.epoch ≠ epoch ∨ h.data.state ≠ .freezingHost then .phaseEnd true (-eAgain)
      else .pollVm start h.data 0 true))
  | .pollVm start snapshot vmid allFrozen =>
    let (h, pc) := pollVmStep env h epoch start snapshot vmid allFrozen
    (h, some pc)
  | .wakeCheck => (h, some (if h.data.wakeBitmap ≠ 0 then .rollback (-eAgain) else .setSuspended))
  | .setSuspended =>
    let (d, status) := hvPmSetEpochState env.now epoch .freezingHost .suspended h.data
    ({ h with data := d }, some (if status ≠ 0 then .rollback status else .scopeCheck))
  | .scopeCheck =>
    (h, match h.data.scope with
      | .vm => none
      | .system => some .platformEnter
      | .none => some (.rollback (-eInval)))
  | .platformEnter =>
    (h, some (if !env.hostRestored then
        .failEpoch (if env.status ≠ 0 then env.status else -eFault)
      else if env.status ≠ 0 then .rollback env.status
      else .setRestoring))
  | .setRestoring =>
    let (d, status) := hvPmSetEpochState env.now epoch .suspended .restoringHost h.data
    ({ h with data := d },
      some (if status ≠ 0 then .failEpoch status else .reverseStart .restore))
  | .failEpoch status => ({ h with data := hvPmFailEpoch env.now epoch status h.data }, none)
  | .rollback reason =>
    ({ h with data := hvPmStartRollback env.now epoch reason h.data },
      some (.reverseStart (.rollback reason)))
  | .reverseStart u =>
    (h, some (if !h.hooksFinalized then .failEpoch (-ePerm)
      else if epoch = 0 ∨ h.data.epoch ≠ epoch then .failEpoch (-eInval)
      else .reverse u h.data.completedHookMask h.hooks.length 0))
  | .reverse u completed idx firstError =>
    let (h, pc) := reverseStep env h u completed idx firstError
    (h, some pc)
  | .thawStart u => (h, some (thawStartStep env h epoch u))
  | .thawVcpu u snapshot vmid vcpuId =>
    let (h, pc) := thawVcpuStep h epoch u snapshot vmid vcpuId
    (h, some pc)
  | .ungate u required =>
    let (d, status) := hvPmUngate epoch required h.data
    ({ h with data := d }, some (if status ≠ 0 then .failEpoch status else .complete u))
  | .complete u =>
    ({ h with data := hvPmCompleteRunning env.now epoch u.lastStatus h.data }, none)

end

/-! ### All pCPUs together -/

/-- The host and the frame of `hv_pm_process_from_idle` on the boot pCPU while it runs. -/
structure PmMachine where
  host : PmHost
  frame : Option (Nat × Pc)

/-- What a pCPU does to the transaction in one step. -/
inductive PmOp
  | setPolicy (policy : PmPolicy)
  | requestSuspend (initiatorVmid : Nat)
  | requestVmSuspend (vmid : Nat)
  | requestVmResume (vmid : Nat)
  | abort (epoch : Nat) (reason : Int)
  | recordWake (wakeSource sourceIndex : Nat)
  | beginVmTopologyChange (vmid : Nat)
  | endVmTopologyChange (vmid : Nat)
  /-- the owner of a topology change creates or destroys vCPUs of its VM -/
  | changeVcpus (vmid : Nat) (count : VcpuCount)
  | registerHook (ops : PmOps)
  | finalizeHooks
  /-- the idle thread of the boot pCPU enters `hv_pm_process_from_idle` or goes on in it -/
  | process

/-- The boot pCPU takes its next step; when it enters is up to the idle thread. -/
def processOp (m : PmMachine) : PmMachine :=
  match m.frame with
  | none => { m with frame := (processEntry m.host.data).map fun pc => (m.host.data.epoch, pc) }
  | some (epoch, pc) =>
    let (h, pc) := processStep env m.host epoch pc
    ⟨h, pc.map fun pc => (epoch, pc)⟩

/-- What a call other than `process` does to the host. -/
def requestOp : PmOp → PmHost
  | .setPolicy policy => { h with data := (hvPmSetPolicy policy h.data).1 }
  | .requestSuspend initiatorVmid => (hvPmRequestSuspend env initiatorVmid h).1
  | .requestVmSuspend vmid => (hvPmRequestVmSuspend env vmid h).1
  | .requestVmResume vmid => { h with data := (hvPmRequestVmResume env.now vmid h.data).1 }
  | .abort epoch reason => { h with data := (hvPmAbort env.now epoch reason h.data).1 }
  | .recordWake wakeSource sourceIndex =>
    { h with data := (hvPmRecordWake wakeSource sourceIndex h.data).1 }
  | .beginVmTopologyChange vmid => { h with data := (hvPmBeginVmTopologyChange vmid h.data).1 }
  | .endVmTopologyChange vmid => { h with data := hvPmEndVmTopologyChange vmid h.data }
  | .changeVcpus vmid count =>
    if bitmapTest vmid h.data.topologyChangeVmMask then
      { h with vcpus := Function.update h.vcpus vmid count }
    else h
  | .registerHook ops => (hvPmRegisterHook ops h).1
  | .finalizeHooks => hvPmFinalizeHooks h
  | .process => h

def PmMachine.step (m : PmMachine) (call : PmEnv × PmOp) : PmMachine :=
  match call.2 with
  | .process => processOp call.1 m
  | op => { m with host := requestOp call.1 m.host op }

def PmMachine.boot (tickrate : Nat) (vcpus : Nat → VcpuCount) : PmMachine :=
  ⟨PmHost.boot tickrate vcpus, none⟩

end BeauOs.Pm
