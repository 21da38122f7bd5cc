/-
The power-management transaction: its record, its hooks and its requests (`core/pm.c`).

One transaction at a time owns either one VM or the VMs the policy names.  Its whole record
is `pm_transaction.data`, and every access to it is a section under one spin lock, so each
such section is one function here, and one step whatever the other pCPUs do in between.
What a section reads from elsewhere (the clock, the states of the VMs, what the platform
answers) is handed to it in `PmEnv` and may be anything.

Of a vCPU thread only its freeze epoch matters here; `freezeThread` and `thawThread` are what
the scheduler functions of the same names do to it.
-/
import BeauOs.Lib.Word
import Mathlib.Data.List.DropRight

namespace BeauOs.Pm

/-! ### Error numbers (`include/lib/errno.h`) -/

def ePerm : Int := 1
def eIo : Int := 5
def eAgain : Int := 11
def eNoMem : Int := 12
def eAcces : Int := 13
def eFault : Int := 14
def eBusy : Int := 16
def eNoDev : Int := 19
def eInval : Int := 22
def eNotSup : Int := 95
def eTimedOut : Int := 110

/-! ### The record of a transaction -/

def configMaxVmNum : Nat := 16

def hvPmMaxHooks : Nat := 32

def hvPmDefaultControllerVm : Nat := 2

/-- `HV_PM_PLATFORM_DISABLED`, the least platform mode. -/
def hvPmPlatformDisabled : Nat := 0

/-- `HV_PM_PLATFORM_STRICT`, the greatest platform mode. -/
def hvPmPlatformStrict : Nat := 2

/-- `enum beau_pm_system_state` -/
inductive PmState
  | running
  | preparing
  | freezingHost
  | suspended
  | restoringHost
  | aborting
  | failed
  deriving DecidableEq, Repr

inductive PmScope
  | none
  | system
  | vm
  deriving DecidableEq, Repr

/-- `enum beau_vm_pm_state`; `VM_PM_FAILED` is never stored. -/
inductive VmPmState
  | running
  | frozen
  deriving DecidableEq, Repr

inductive VmState
  | poweredOff
  | created
  | running
  | readyToPoweroff
  | paused
  deriving DecidableEq, Repr

inductive VcpuState
  | offline
  | init
  | running
  | paused
  | poweredOff
  deriving DecidableEq, Repr

structure VmPmRecord where
  epoch : Nat
  gatedVcpuMask : BitVec 64
  activeVcpuMask : BitVec 64
  frozenVcpuMask : BitVec 64
  wakeOwnedVcpuMask : BitVec 64
  state : VmPmState
  priorVmState : VmState
  vmid : Nat
  required : Bool
  deriving DecidableEq

structure PmPhaseError where
  epoch : Nat
  status : Int
  phase : PmState
  vmid : Nat
  deriving DecidableEq

structure PmSnapshot where
  epoch : Nat
  lastEpoch : Nat
  requiredVmMask : BitVec 64
  completedHookMask : BitVec 64
  wakeReason : Nat
  wakeBitmap : BitVec 64
  topologyChangeVmMask : BitVec 64
  ioGatedVmMask : BitVec 64
  phaseStartTicks : PmState → Nat
  phaseDurationTicks : PmState → Nat
  vm : Nat → VmPmRecord
  lastError : PmPhaseError
  state : PmState
  lastState : PmState
  lastStatus : Int
  initiatorVmid : Nat
  controllerVmid : Nat
  targetVmid : Nat
  scope : PmScope
  prepareTimeoutMs : Nat
  resumeTimeoutMs : Nat
  policyRequiredVmMask : BitVec 64
  ioGated : Bool
  enabled : Nat
  platformMode : Nat

structure PmPolicy where
  requiredVmMask : BitVec 64
  prepareTimeoutMs : Nat
  resumeTimeoutMs : Nat
  controllerVmid : Nat
  enabled : Nat
  platformMode : Nat
  deriving DecidableEq

/-- `struct beau_pm_ops`: which of its callbacks a hook has. -/
structure PmOps where
  name : String
  priority : Nat
  prepare : Bool
  suspend : Bool
  resume : Bool
  abort : Bool
  deriving DecidableEq

/-- An entry of `pm_hooks` that nothing was stored in. -/
def PmOps.unset : PmOps := ⟨"", 0, false, false, false, false⟩

/-- `created_vcpus`; the masks of a transaction have one bit for each vCPU. -/
abbrev VcpuCount := { n : Nat // n ≤ 64 }

/-- What the transaction works on. -/
structure PmHost where
  data : PmSnapshot
  /-- the `pm_hook_count` entries of `pm_hooks` -/
  hooks : List PmOps
  hooksFinalized : Bool
  /-- `vm->hw.created_vcpus` of each VM -/
  vcpus : Nat → VcpuCount
  /-- `freeze_epoch` of the thread of each vCPU -/
  freezeEpoch : Nat → Nat → Nat
  tickrate : Nat

/-- What a step reads from elsewhere. -/
structure PmEnv where
  /-- `cpu_ticks()` -/
  now : Nat
  /-- what the hook callback, `platform_pm_preflight` or `platform_pm_enter` returns -/
  status : Int
  /-- what `platform_pm_enter` reports -/
  hostRestored : Bool
  vmState : Nat → VmState
  /-- `vcpu_get_state` -/
  vcpuState : Nat → Nat → VcpuState
  /-- what `freeze_thread` reports -/
  wakeOwned : Bool
  /-- whether the thread of a vCPU is blocked and switched out -/
  switchedOut : Nat → Nat → Bool

namespace PmSnapshot

def transition (now : Nat) (next : PmState) (d : PmSnapshot) : PmSnapshot :=
  { d with
    phaseDurationTicks :=
      if d.phaseStartTicks d.state ≠ 0 then
        Function.update d.phaseDurationTicks d.state (sub64 now (d.phaseStartTicks d.state))
      else d.phaseDurationTicks
    state := next
    phaseStartTicks := Function.update d.phaseStartTicks next now }

def recordError (epoch : Nat) (phase : PmState) (status : Int) (vmid : Nat) (d : PmSnapshot) :
    PmSnapshot :=
  { d with
    lastEpoch := epoch
    lastState := phase
    lastStatus := status
    lastError := ⟨epoch, status, phase, vmid⟩ }

def updVm (d : PmSnapshot) (vmid : Nat) (f : VmPmRecord → VmPmRecord) : PmSnapshot :=
  { d with vm := Function.update d.vm vmid (f (d.vm vmid)) }

end PmSnapshot

def hvPmNextEpoch (epoch : Nat) : Nat :=
  if add64 epoch 1 ≠ 0 then add64 epoch 1 else 1

/-- `hv_pm_reset_epoch_locked`: the transaction starts here. -/
def hvPmResetEpoch (now initiatorVmid : Nat) (requiredVmMask : BitVec 64) (scope : PmScope)
    (targetVmid : Nat) (d : PmSnapshot) : PmSnapshot :=
  let epoch := hvPmNextEpoch d.epoch
  { d with
    epoch := epoch
    requiredVmMask := requiredVmMask
    completedHookMask := 0
    wakeReason := 0
    wakeBitmap := 0
    initiatorVmid := initiatorVmid
    targetVmid := targetVmid
    scope := scope
    ioGatedVmMask := requiredVmMask
    ioGated := true
    phaseStartTicks := fun _ => 0
    phaseDurationTicks := fun _ => 0
    lastError := ⟨0, 0, .running, 0⟩
    vm := fun vmid =>
      ⟨epoch, 0, 0, 0, 0, .running, .poweredOff, vmid, bitmapTest vmid requiredVmMask⟩
    : PmSnapshot }.transition now .preparing

/-! ### Threads -/

/-- The freeze epoch `freeze_thread` leaves; `none` if it refuses. -/
def freezeThread (epoch freezeEpoch : Nat) : Option Nat :=
  if epoch ≠ 0 ∧ (freezeEpoch = 0 ∨ freezeEpoch = epoch) then some epoch else none

/-- The freeze epoch `thaw_thread` leaves; `none` if it refuses. -/
def thawThread (epoch freezeEpoch : Nat) : Option Nat :=
  if epoch ≠ 0 ∧ freezeEpoch = epoch then some 0 else none

variable (env : PmEnv)

def isThreadFrozen (h : PmHost) (epoch vmid vcpuId : Nat) : Bool :=
  decide (epoch ≠ 0) && decide (h.freezeEpoch vmid vcpuId = epoch) && env.switchedOut vmid vcpuId

def PmHost.setFreezeEpoch (h : PmHost) (vmid vcpuId epoch : Nat) : PmHost :=
  { h with
    freezeEpoch :=
      Function.update h.freezeEpoch vmid (Function.update (h.freezeEpoch vmid) vcpuId epoch) }

/-! ### Policy and requests -/

/-- The check of `hv_pm_set_policy`. -/
def PmPolicy.isValid (policy : PmPolicy) : Bool :=
  decide (policy.controllerVmid < configMaxVmNum)
    && policy.requiredVmMask &&& ~~~((1#64 <<< configMaxVmNum) - 1#64) == 0#64
    && decide (policy.enabled ≤ 1) && decide (policy.platformMode ≤ hvPmPlatformStrict)
    && (policy.enabled != 0 || policy.platformMode == hvPmPlatformDisabled)
    && (policy.enabled == 0 || policy.requiredVmMask != 0#64 && policy.prepareTimeoutMs != 0
      && policy.resumeTimeoutMs != 0 && policy.platformMode != hvPmPlatformDisabled)

def hvPmSetPolicy (policy : PmPolicy) (d : PmSnapshot) : PmSnapshot × Int :=
  if !policy.isValid then (d, -eInval)
  else if d.state ≠ .running then (d, -eBusy)
  else
    ({ d with
        controllerVmid := policy.controllerVmid
        policyRequiredVmMask := policy.requiredVmMask
        prepareTimeoutMs := policy.prepareTimeoutMs
        resumeTimeoutMs := policy.resumeTimeoutMs
        enabled := policy.enabled
        platformMode := policy.platformMode }, 0)

def hvPmRequiredVmsRunning (h : PmHost) (requiredVmMask : BitVec 64) : Bool :=
  (List.range configMaxVmNum).all fun vmid =>
    !bitmapTest vmid requiredVmMask
      || decide (env.vmState vmid = .running) && decide ((h.vcpus vmid).val ≠ 0)

def hvPmRequestSuspend (initiatorVmid : Nat) (h : PmHost) : PmHost × Int :=
  let h := { h with hooksFinalized := true }
  let d := h.data
  if d.enabled = 0 then (h, -eNoDev)
  else if initiatorVmid ≠ d.controllerVmid then (h, -eAcces)
  else if d.state ≠ .running then (h, -eBusy)
  else if d.topologyChangeVmMask ≠ 0 then (h, -eBusy)
  else if env.status ≠ 0 then (h, -eNotSup)
  else if !hvPmRequiredVmsRunning env h d.policyRequiredVmMask then (h, -eNoDev)
  else
    ({ h with
        data := hvPmResetEpoch env.now initiatorVmid d.policyRequiredVmMask .system
          configMaxVmNum d }, 0)

def hvPmRequestVmSuspend (vmid : Nat) (h : PmHost) : PmHost × Int :=
  if vmid ≥ configMaxVmNum then (h, -eInval)
  else
    let h := { h with hooksFinalized := true }
    let d := h.data
    if d.enabled = 0 then (h, -eNoDev)
    else if d.state ≠ .running then (h, -eBusy)
    else if d.topologyChangeVmMask ≠ 0 then (h, -eBusy)
    else if !hvPmRequiredVmsRunning env h (bitmapSet vmid 0) then (h, -eNoDev)
    else ({ h with data := hvPmResetEpoch env.now vmid (bitmapSet vmid 0) .vm vmid d }, 0)

def hvPmRequestVmResume (now vmid : Nat) (d : PmSnapshot) : PmSnapshot × Int :=
  if vmid ≥ configMaxVmNum then (d, -eInval)
  else if d.scope ≠ .vm ∨ d.targetVmid ≠ vmid then (d, -eInval)
  else if d.state ≠ .suspended then (d, -eBusy)
  else (d.transition now .restoringHost, 0)

def hvPmAbort (now epoch : Nat) (reason : Int) (d : PmSnapshot) : PmSnapshot × Int :=
  if epoch = 0 ∨ d.epoch ≠ epoch ∨ d.state = .running ∨ d.state = .failed then (d, -eInval)
  else if d.state ≠ .aborting then
    ((d.recordError epoch d.state reason d.initiatorVmid).transition now .aborting, 0)
  else (d, 0)

/--
The first section of `hv_pm_record_wake`, with the epoch it then hands to `hv_pm_abort` if the
wake came too early.  That second section is an abort like any other.
-/
def hvPmRecordWake (wakeSource sourceIndex : Nat) (d : PmSnapshot) :
    PmSnapshot × Int × Option Nat :=
  if sourceIndex ≥ 64 then (d, -eInval, none)
  else if d.scope ≠ .system ∨ d.state = .running ∨ d.state = .failed then (d, -eInval, none)
  else
    ({ d with
        wakeReason := if d.wakeReason = 0 then wakeSource else d.wakeReason
        wakeBitmap := bitmapSet sourceIndex d.wakeBitmap }, 0,
      if d.state ≠ .suspended then some d.epoch else none)

def hvPmBeginVmTopologyChange (vmid : Nat) (d : PmSnapshot) : PmSnapshot × Int :=
  if vmid ≥ configMaxVmNum then (d, -eInval)
  else if d.state ≠ .running ∨ bitmapTest vmid d.topologyChangeVmMask then (d, -eBusy)
  else ({ d with topologyChangeVmMask := bitmapSet vmid d.topologyChangeVmMask }, 0)

def hvPmEndVmTopologyChange (vmid : Nat) (d : PmSnapshot) : PmSnapshot :=
  if vmid ≥ configMaxVmNum then d
  else { d with topologyChangeVmMask := bitmapClear vmid d.topologyChangeVmMask }

def hvPmVmIoIsGated (vmid : Nat) (d : PmSnapshot) : Bool :=
  decide (vmid < configMaxVmNum) && bitmapTest vmid d.ioGatedVmMask

/-! ### Hooks -/

/-- `hv_pm_register_hook`: behind the hooks whose priority is not greater. -/
def hvPmRegisterHook (ops : PmOps) (h : PmHost) : PmHost × Int :=
  if ops.name = "" ∨ ops.priority = 0 then (h, -eInval)
  else if h.hooksFinalized then (h, -ePerm)
  else if h.hooks.length ≥ hvPmMaxHooks then (h, -eNoMem)
  else if h.hooks.any (fun hook => hook.name = ops.name) then (h, -eInval)
  else
    let later := fun hook : PmOps => decide (hook.priority > ops.priority)
    ({ h with hooks := h.hooks.rdropWhile later ++ ops :: h.hooks.rtakeWhile later }, 0)

def hvPmFinalizeHooks (h : PmHost) : PmHost := { h with hooksFinalized := true }

/-- An entry of `pm_hooks`. -/
def PmHost.hook (h : PmHost) (idx : Nat) : PmOps := h.hooks.getD idx PmOps.unset

def PmOps.forward (ops : PmOps) (suspendPhase : Bool) : Bool :=
  if suspendPhase then ops.suspend else ops.prepare

def PmOps.reverse (ops : PmOps) (abortPhase : Bool) : Bool :=
  if abortPhase then ops.abort else ops.resume

/-! ### Boot -/

/-- The initial value of `pm_transaction`, and of an area cleared at boot. -/
def PmSnapshot.boot : PmSnapshot where
  epoch := 0
  lastEpoch := 0
  requiredVmMask := 0
  completedHookMask := 0
  wakeReason := 0
  wakeBitmap := 0
  topologyChangeVmMask := 0
  ioGatedVmMask := 0
  phaseStartTicks := fun _ => 0
  phaseDurationTicks := fun _ => 0
  vm := fun _ => ⟨0, 0, 0, 0, 0, .running, .poweredOff, 0, false⟩
  lastError := ⟨0, 0, .running, 0⟩
  state := .running
  lastState := .running
  lastStatus := 0
  initiatorVmid := 0
  controllerVmid := hvPmDefaultControllerVm
  targetVmid := configMaxVmNum
  scope := .none
  prepareTimeoutMs := 0
  resumeTimeoutMs := 0
  policyRequiredVmMask := 0
  ioGated := false
  enabled := 0
  platformMode := 0

/-- No hook is registered and no thread is frozen; the VMs are as they were created. -/
def PmHost.boot (tickrate : Nat) (vcpus : Nat → VcpuCount) : PmHost where
  data := PmSnapshot.boot
  hooks := []
  hooksFinalized := false
  vcpus := vcpus
  freezeEpoch := fun _ _ => 0
  tickrate := tickrate

end BeauOs.Pm
