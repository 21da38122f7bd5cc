/-
The life cycle of a VM and the requests to restart it: `core/vm.c`.

A restart takes the VM's topology-change bit from the power-management transaction, either
for the length of one call (`restart_vm_with_mode`, the PSCI handlers), or to hand it, through
a bitmap of the pCPU, to the idle thread that does the work and releases the bit
(`make_reset_vm_request_internal` and `reset_vm_from_idle`).

The state of a VM changes under its lock, the bit under the lock of the transaction and the
bitmaps atomically, so these are the steps; `CallerPc` and `IdlePc` are the places in between,
where anything may happen.  There is any number of callers, and one idle thread on each pCPU.
What the architecture code and the vCPUs contribute is handed in by `VmEnv`.
-/
import BeauOs.Pm.Process

namespace BeauOs.Vm

open BeauOs.Pm

/-! ### The life cycle of one VM -/

inductive VmLifecyclePhase
  | off
  | creating
  | created
  | preparing
  | starting
  | running
  | quiescing
  | resetting
  | failed
  | destroying
  deriving DecidableEq, Repr

structure VmLifecycle where
  generation : Nat
  resetGeneration : Nat
  lastError : Int
  phase : VmLifecyclePhase
  failedPhase : VmLifecyclePhase
  deriving DecidableEq

/-- The part of `struct acrn_vm` and of its configuration that a restart reads. -/
structure AcrnVm where
  state : VmState
  lifecycle : VmLifecycle
  createdVcpus : Nat
  /-- `pcpuid_from_vcpu` of the boot vCPU -/
  bspPcpuId : Nat
  /-- the load order is `SERVICE_VM` -/
  isService : Bool
  /-- the VM has `GUEST_FLAG_RT` -/
  isRt : Bool
  deriving DecidableEq

/-- What a step learns from the vCPUs, the architecture code and the loader. -/
structure VmEnv where
  severityPass : Bool
  /-- the boot vCPU is in `VCPU_INIT` -/
  bspInit : Bool
  /-- what `launch_vcpu` returns -/
  launched : Bool
  /-- what `reset_vm_scheduler` returns -/
  resetScheduler : Int
  /-- what `arch_reset_vm`, `arch_deinit_vm` or the creation of the VM returns -/
  arch : Int
  /-- what `prepare_os_image` returns -/
  osImage : Int
  /-- the vCPUs that have not quiesced yet -/
  pendingVcpus : BitVec 64
  /-- the vCPUs `create_vm` creates -/
  createdVcpus : Nat

namespace AcrnVm

def isPoweroff (vm : AcrnVm) : Bool := decide (vm.state = .poweredOff)

def isPaused (vm : AcrnVm) : Bool := decide (vm.state = .paused)

/-- `vm_lifecycle_begin_locked`; generation zero is skipped. -/
def lifecycleBegin (phase : VmLifecyclePhase) (vm : AcrnVm) : AcrnVm :=
  let generation := add64 vm.lifecycle.generation 1
  { vm with lifecycle := { vm.lifecycle with
      generation := if generation = 0 then 1 else generation
      phase := phase
      lastError := 0 } }

def lifecycleCommit (phase : VmLifecyclePhase) (state : VmState) (vm : AcrnVm) : AcrnVm :=
  { vm with state := state, lifecycle := { vm.lifecycle with phase := phase } }

def lifecycleFail (error : Int) (vm : AcrnVm) : AcrnVm :=
  { vm with lifecycle := { vm.lifecycle with
      failedPhase := vm.lifecycle.phase
      lastError := error
      phase := .failed } }

end AcrnVm

section

variable (env : VmEnv)

def startVm (vm : AcrnVm) : AcrnVm × Int :=
  if vm.lifecycle.phase ≠ .created ∨ !env.bspInit then (vm, -eBusy)
  else if env.launched then (vm.lifecycleCommit .running .running, 0)
  else
    ({ vm with lifecycle := { vm.lifecycle with
        failedPhase := .starting
        lastError := -eBusy } }.lifecycleCommit .created .created, -eBusy)

/-- The states `pause_vm` and `pause_vm_async` accept. -/
def canPause (vm : AcrnVm) : Bool :=
  env.severityPass && decide (vm.state = .running) || decide (vm.state = .readyToPoweroff)
    || decide (vm.state = .created)

def pauseVm (vm : AcrnVm) : AcrnVm :=
  if canPause env vm then vm.lifecycleCommit .quiescing .paused else vm

/-- `pause_vm_async`, with the vCPUs still to quiesce. -/
def pauseVmAsync (generation : Nat) (vm : AcrnVm) : AcrnVm × BitVec 64 :=
  if generation = 0 then (vm, ~~~0)
  else if vm.isPaused then (vm, 0)
  else if !canPause env vm then (vm, ~~~0)
  else
    let vm := if vm.lifecycle.phase = .running then vm.lifecycleBegin .quiescing else vm
    (if env.pendingVcpus = 0 then vm.lifecycleCommit .quiescing .paused else vm, env.pendingVcpus)

def destroyVm (vm : AcrnVm) : AcrnVm × Int :=
  ({ vm with createdVcpus := 0 }.lifecycleCommit .off .poweredOff, env.arch)

/-- `create_vm`: the life cycle starts from zero. -/
def createVm (vm : AcrnVm) : AcrnVm × Int :=
  let vm := { vm with lifecycle := ⟨0, 0, 0, .off, .off⟩ }.lifecycleBegin .creating
  if env.arch = 0 then
    ({ vm with createdVcpus := env.createdVcpus }.lifecycleCommit .created .created, 0)
  else ({ vm with createdVcpus := 0 }.lifecycleFail env.arch, env.arch)

def resetVm (vm : AcrnVm) : AcrnVm × Int :=
  let vm := vm.lifecycleBegin .resetting
  let ret := if env.resetScheduler = 0 then env.arch else env.resetScheduler
  (if ret = 0 then vm.lifecycleCommit .created .created else vm.lifecycleFail ret, ret)

def poweroffIfRtVm (vm : AcrnVm) : AcrnVm :=
  if vm.isRt && !vm.isPaused && !vm.isPoweroff then { vm with state := .readyToPoweroff } else vm

def restartVmLocked (reloadImage : Bool) (vm : AcrnVm) : AcrnVm × Int :=
  if vm.isPoweroff || vm.isService then (vm, -eInval)
  else
    let vm := pauseVm env vm
    if vm.isPaused then
      let (vm, ret) := resetVm env vm
      let ret := if ret = 0 ∧ reloadImage then env.osImage else ret
      if ret = 0 then startVm env vm else (vm, ret)
    else (vm, -eInval)

/-! ### Requests -/

/-- `fls64`: the highest set bit; there is none in an empty word. -/
def fls64 (word : BitVec 64) : Option Nat :=
  (List.range 64).reverse.find? fun nr => bitmapTest nr word

/-- A place in a function that changes the topology of a VM. -/
inductive CallerPc
  | idle
  /-- `make_reset_vm_request_internal`, before the bit is taken -/
  | requestBegin (pcpuId vmid : Nat) (wdtOwned : Bool)
  | requestCheck (pcpuId vmid : Nat) (wdtOwned : Bool)
  | requestLock (pcpuId vmid : Nat) (wdtOwned : Bool)
  | requestOwner (pcpuId vmid : Nat) (wdtOwned : Bool)
  | requestPublish (pcpuId vmid : Nat)
  | requestEnd (vmid : Nat)
  /-- `restart_vm_with_mode`, before the bit is taken -/
  | restartBegin (vmid : Nat) (reloadImage : Bool)
  | restartLocked (vmid : Nat) (reloadImage : Bool)
  | restartEnd (vmid : Nat) (status : Int)
  /-- a PSCI handler for `SYSTEM_OFF`, `CPU_ON` or `CPU_OFF`, before the bit is taken -/
  | psciBegin (vmid : Nat)
  | psciEnd (vmid : Nat) (status : Int)
  deriving DecidableEq

/-- A place in `reset_vm_from_idle`. -/
inductive IdlePc
  | out
  | scan
  | work (vmid : Nat) (wdtOwned : Bool)
  | clear (vmid : Nat) (wdtOwned : Bool) (status : Int)
  | release (vmid : Nat) (wdtOwned : Bool) (status : Int)
  deriving DecidableEq

/-- The VMs, the transaction and the reset requests of each pCPU. -/
structure VmHost where
  pm : PmMachine
  vm : Nat → AcrnVm
  resetVmBitmap : Nat → BitVec 64
  wdtResetVmBitmap : Nat → BitVec 64
  /-- `NEED_RESET_VM` of `pcpu_flag` -/
  needResetVm : Nat → Bool
  pcpuNums : Nat

namespace VmHost

variable (s : VmHost)

def setData (d : PmSnapshot) : VmHost :=
  { s with pm := { s.pm with host := { s.pm.host with data := d } } }

def setVm (vmid : Nat) (vm : AcrnVm) : VmHost :=
  { s with vm := Function.update s.vm vmid vm }

/-- `hv_pm_begin_vm_topology_change` -/
def begin (vmid : Nat) : VmHost × Int :=
  let (d, status) := hvPmBeginVmTopologyChange vmid s.pm.host.data
  (s.setData d, status)

/-- `hv_pm_end_vm_topology_change` -/
def finish (vmid : Nat) : VmHost :=
  s.setData (hvPmEndVmTopologyChange vmid s.pm.host.data)

/-- The bits `make_reset_vm_request_internal` sets once the owner is known. -/
def publishReset (pcpuId vmid : Nat) : VmHost :=
  { s with
    resetVmBitmap :=
      Function.update s.resetVmBitmap pcpuId (bitmapSet vmid (s.resetVmBitmap pcpuId))
    needResetVm := Function.update s.needResetVm pcpuId true }

end VmHost

/-- The section of a reset request under the VM lock; whether the VM can be reset. -/
def claimReset (vm : AcrnVm) : AcrnVm × Bool :=
  let vm :=
    if vm.lifecycle.phase = .running ∨ vm.lifecycle.phase = .created then
      vm.lifecycleBegin .quiescing
    else vm
  if vm.lifecycle.phase = .quiescing then
    ({ vm with lifecycle := { vm.lifecycle with resetGeneration := vm.lifecycle.generation } }, true)
  else (vm, false)

/-- The section of `reset_vm_from_idle` under the VM lock. -/
def resetFromIdle (vm : AcrnVm) : AcrnVm × Int :=
  if vm.lifecycle.phase ≠ .quiescing ∨ vm.lifecycle.resetGeneration ≠ vm.lifecycle.generation then
    (vm, -eBusy)
  else restartVmLocked env true vm

/-- Take the bit of a VM and go on, or return the refusal. -/
def beginStep (s : VmHost) (vmid : Nat) (pc : CallerPc) : VmHost × CallerPc × Option Int :=
  let (s, status) := s.begin vmid
  if status ≠ 0 then (s, .idle, some status) else (s, pc, none)

/-- One step of a caller, with the status if the function returns. -/
def callerStep (s : VmHost) : CallerPc → VmHost × CallerPc × Option Int
  | .idle => (s, .idle, none)
  | .requestBegin pcpuId vmid wdtOwned =>
    if pcpuId ≥ s.pcpuNums ∨ vmid ≥ configMaxVmNum then (s, .idle, some (-eInval))
    else beginStep s vmid (.requestCheck pcpuId vmid wdtOwned)
  | .requestCheck pcpuId vmid wdtOwned =>
    if !(s.vm vmid).isPoweroff && !(s.vm vmid).isService then
      (s, .requestLock pcpuId vmid wdtOwned, none)
    else
      -- `ret` still is what `hv_pm_begin_vm_topology_change` returned, and the bit stays set
      (s, .idle, some 0)
  | .requestLock pcpuId vmid wdtOwned =>
    let (vm, claimed) := claimReset (s.vm vmid)
    (s.setVm vmid vm,
      if claimed then .requestOwner pcpuId vmid wdtOwned else .requestEnd vmid, none)
  | .requestOwner pcpuId vmid wdtOwned =>
    (if wdtOwned then
        { s with
          wdtResetVmBitmap := Function.update s.wdtResetVmBitmap pcpuId
            (bitmapSet vmid (s.wdtResetVmBitmap pcpuId)) }
      else s, .requestPublish pcpuId vmid, none)
  | .requestPublish pcpuId vmid => (s.publishReset pcpuId vmid, .idle, some 0)
  | .requestEnd vmid => (s.finish vmid, .idle, some (-eBusy))
  | .restartBegin vmid reloadImage => beginStep s vmid (.restartLocked vmid reloadImage)
  | .restartLocked vmid reloadImage =>
    let (vm, status) := restartVmLocked env reloadImage (s.vm vmid)
    (s.setVm vmid vm, .restartEnd vmid status, none)
  | .restartEnd vmid status => (s.finish vmid, .idle, some status)
  | .psciBegin vmid => beginStep s vmid (.psciEnd vmid env.arch)
  | .psciEnd vmid status => (s.finish vmid, .idle, some status)

def idleStep (s : VmHost) (pcpuId : Nat) : IdlePc → VmHost × IdlePc
  | .out =>
    -- `need_reset_vm`
    if s.needResetVm pcpuId then
      ({ s with needResetVm := Function.update s.needResetVm pcpuId false }, .scan)
    else (s, .out)
  | .scan =>
    match fls64 (s.resetVmBitmap pcpuId) with
    | none => (s, .out)
    | some vmid =>
      if vmid < configMaxVmNum then
        ({ s with
            wdtResetVmBitmap := Function.update s.wdtResetVmBitmap pcpuId
              (bitmapClear vmid (s.wdtResetVmBitmap pcpuId)) },
          .work vmid (bitmapTest vmid (s.wdtResetVmBitmap pcpuId)))
      else (s, .out)
  | .work vmid wdtOwned =>
    let (vm, status) := resetFromIdle env (s.vm vmid)
    (s.setVm vmid vm, .clear vmid wdtOwned status)
  | .clear vmid wdtOwned status =>
    ({ s with
        resetVmBitmap := Function.update s.resetVmBitmap pcpuId
          (bitmapClear vmid (s.resetVmBitmap pcpuId)) },
      .release vmid wdtOwned status)
  | .release vmid _ _ => (s.finish vmid, .scan)

/-! ### All callers together -/

/-- The host, the callers and the idle threads. -/
structure VmMachine where
  host : VmHost
  caller : Nat → CallerPc
  idle : Nat → IdlePc

/-- A life-cycle call from elsewhere. -/
inductive VmOp
  | start
  | pause
  | pauseAsync (generation : Nat)
  | destroy
  | create
  | reset
  | poweroffIfRt
  deriving DecidableEq

def VmOp.run (vm : AcrnVm) : VmOp → AcrnVm
  | .start => (startVm env vm).1
  | .pause => pauseVm env vm
  | .pauseAsync generation => (pauseVmAsync env generation vm).1
  | .destroy => (destroyVm env vm).1
  | .create => (createVm env vm).1
  | .reset => (resetVm env vm).1
  | .poweroffIfRt => poweroffIfRtVm vm

end

inductive VmCall
  /-- a caller enters `make_reset_vm_request` -/
  | makeResetVmRequest (caller pcpuId vmid : Nat)
  /-- a caller enters `request_vm_cold_restart` or `request_vm_wdt_restart` -/
  | requestVmRestart (caller vmid : Nat) (wdtOwned : Bool)
  /-- a caller enters `restart_vm` or `restart_vm_warm` -/
  | restartVm (caller vmid : Nat) (reloadImage : Bool)
  /-- a PSCI handler starts -/
  | psci (caller vmid : Nat)
  | caller (caller : Nat)
  | idle (pcpuId : Nat)
  | vm (vmid : Nat) (op : VmOp)
  /-- power management goes on; topology changes are made by the callers above -/
  | pm (env : PmEnv) (op : PmOp)

/-- Whether a call of power management takes or releases a topology bit. -/
def isTopologyOp : PmOp → Bool
  | .beginVmTopologyChange _ | .endVmTopologyChange _ => true
  | _ => false

/-- The checks of `request_vm_restart`. -/
def requestVmRestart (s : VmHost) (vmid : Nat) (wdtOwned : Bool) : Option CallerPc :=
  if vmid ≥ configMaxVmNum ∨ (s.vm vmid).createdVcpus = 0 ∨ (s.vm vmid).isPoweroff ∨
      (s.vm vmid).isService then none
  else some (.requestBegin (s.vm vmid).bspPcpuId vmid wdtOwned)

namespace VmMachine

/-- A caller that is not in a call enters one. -/
def enter (m : VmMachine) (c : Nat) (pc : CallerPc) : VmMachine :=
  if m.caller c = .idle then { m with caller := Function.update m.caller c pc } else m

def step (m : VmMachine) (call : VmEnv × VmCall) : VmMachine :=
  match call.2 with
  | .makeResetVmRequest c pcpuId vmid => m.enter c (.requestBegin pcpuId vmid false)
  | .requestVmRestart c vmid wdtOwned =>
    m.enter c ((requestVmRestart m.host vmid wdtOwned).getD .idle)
  | .restartVm c vmid reloadImage => m.enter c (.restartBegin vmid reloadImage)
  | .psci c vmid => m.enter c (.psciBegin vmid)
  | .caller c =>
    let (s, pc, _) := callerStep call.1 m.host (m.caller c)
    { m with host := s, caller := Function.update m.caller c pc }
  | .idle pcpuId =>
    let (s, pc) := idleStep call.1 m.host pcpuId (m.idle pcpuId)
    { m with host := s, idle := Function.update m.idle pcpuId pc }
  | .vm vmid op => { m with host := m.host.setVm vmid (op.run call.1 (m.host.vm vmid)) }
  | .pm env op =>
    if isTopologyOp op then m else { m with host := { m.host with pm := m.host.pm.step (env, op) } }

/-- Nothing is requested and nobody is in a call; the VMs are in any state. -/
def boot (tickrate pcpuNums : Nat) (vcpus : Nat → VcpuCount) (vm : Nat → AcrnVm) : VmMachine where
  host := ⟨PmMachine.boot tickrate vcpus, vm, fun _ => 0, fun _ => 0, fun _ => false, pcpuNums⟩
  caller := fun _ => .idle
  idle := fun _ => .out

end VmMachine

end BeauOs.Vm
