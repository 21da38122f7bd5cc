/-
The scheduler framework of one pCPU: `core/schedule.c`.

A policy fills in `struct acrn_scheduler`; the framework decides when each hook runs and
keeps the thread states around it.  Every function below is the body that the C function
of the same name runs under the pCPU's `scheduler_lock`, so one call is one step.  A step
reads the clock once: `Env.now` is the value of `cpu_ticks()` during it, and `Env.here`
says whether the caller runs on the pCPU the thread is bound to.

`schedule()` runs on its own pCPU.  The management work that makes it select idle is a
pending system suspend, a pending VM reset (both decided outside the scheduler and passed
in) and a pending quiesce request.
-/
import BeauOs.Sched.Thread

namespace BeauOs.Sched

/-- What a scheduler entry point sees of its caller. -/
structure Env where
  /-- `cpu_ticks()` -/
  now : Nat
  /-- `get_pcpu_id() == ctl->pcpu_id` -/
  here : Bool
  deriving DecidableEq, Repr

/--
`struct acrn_scheduler`.  An absent hook is `none`.  The timer handler also says whether
it calls `make_reschedule_request`; every handler calls `sched_account_tick`.
-/
structure AcrnScheduler (D P : Type) where
  pickNext : Nat → SchedControl → PolicyState D P → Tid × PolicyState D P
  sleep : Option (Env → SchedControl → Tid → PolicyState D P → PolicyState D P)
  wake : Option (Env → SchedControl → Tid → PolicyState D P → PolicyState D P)
  prioritize : Option (Nat → SchedControl → Tid → PolicyState D P → PolicyState D P)
  timerHandler : Nat → SchedControl → PolicyState D P → PolicyState D P × Bool

structure Pcpu (D P : Type) where
  ctl : SchedControl
  pol : PolicyState D P

variable {D P : Type}

namespace AcrnScheduler

variable (sch : AcrnScheduler D P)

def callSleep (env : Env) (ctl : SchedControl) (t : Tid) (p : PolicyState D P) : PolicyState D P :=
  match sch.sleep with
  | some sleep => sleep env ctl t p
  | none => p

def callWake (env : Env) (ctl : SchedControl) (t : Tid) (p : PolicyState D P) : PolicyState D P :=
  match sch.wake with
  | some wake => wake env ctl t p
  | none => p

def callPrioritize (now : Nat) (ctl : SchedControl) (t : Tid) (p : PolicyState D P) :
    PolicyState D P :=
  match sch.prioritize with
  | some prioritize => prioritize now ctl t p
  | none => p

end AcrnScheduler

/-! ### `schedule()` -/

def schedIdleWorkPending (ctl : SchedControl) (suspend reset : Bool) : Bool :=
  suspend || reset || decide (ctl.quiesceRequestVmMask ≠ 0)

variable (sch : AcrnScheduler D P)

/-- One thread of the registry scan that consumes priority requests. -/
def consumePriority (now : Nat) (s : Pcpu D P) (t : Tid) : Pcpu D P :=
  let obj := s.ctl.thread t
  if obj.pcpuId = s.ctl.pcpuId ∧ obj.priorityPending = true then
    let ctl := s.ctl.updThread t fun o => { o with priorityPending := false }
    if obj.isRunnableOrRunning = true ∧ obj.beBlocking = false then
      ⟨ctl, sch.callPrioritize now ctl t s.pol⟩
    else ⟨ctl, s.pol⟩
  else s

/-- The requests consumed before `pick_next`, if any was raised on this pCPU. -/
def consumePriorities (now : Nat) (s : Pcpu D P) : Pcpu D P :=
  if s.ctl.priorityPending then
    s.ctl.threadList.foldl (consumePriority sch now)
      { s with ctl := { s.ctl with priorityPending := false } }
  else s

/-- The state changes of a context switch; nothing happens when `next` is the current thread. -/
def switchTo (ctl : SchedControl) (now : Nat) (next : Tid) : SchedControl :=
  let prev := ctl.currObj
  if prev ≠ next then
    let ctl := ctl.updThread prev fun o =>
      { o with
        latency := o.latency.markNotRunning now (!o.beBlocking)
        status := if o.beBlocking then .blocked else .runnable
        beBlocking := false }
    let ctl := ctl.updThread next fun o =>
      { o with latency := o.latency.markRunning ctl.tickrate now, status := .running }
    { ctl with currObj := next, contextSwitches := ctl.contextSwitches + 1 }
  else ctl

/-- The thread `schedule()` selects, and the policy state the selection leaves. -/
def selectNext (now : Nat) (suspend reset : Bool) (s : Pcpu D P) : Tid × PolicyState D P :=
  if schedIdleWorkPending s.ctl suspend reset then (s.ctl.idle, s.pol)
  else sch.pickNext now s.ctl s.pol

def schedule (now : Nat) (suspend reset : Bool) (s : Pcpu D P) : Pcpu D P :=
  let s := consumePriorities sch now s
  let sel := selectNext sch now suspend reset s
  ⟨switchTo { s.ctl with needReschedule := false } now sel.1, sel.2⟩

/-! ### Sleep and wake -/

variable (env : Env)

/-- `sleep_thread_locked`; the flag says whether the caller owns a later wake. -/
def sleepThreadLocked (t : Tid) (s : Pcpu D P) : Pcpu D P × Bool :=
  let obj := s.ctl.thread t
  let wakeOwned := !obj.isBlocked && !obj.beBlocking
  let pol := sch.callSleep env s.ctl t s.pol
  let ctl :=
    if obj.isRunning then
      s.ctl.makeRescheduleRequest.updThread t fun o => { o with beBlocking := true }
    else
      s.ctl.updThread t fun o =>
        { o with latency := o.latency.markBlocked env.now, status := .blocked }
  (⟨ctl, pol⟩, wakeOwned)

def sleepThread (t : Tid) (s : Pcpu D P) : Pcpu D P :=
  (sleepThreadLocked sch env t s).1

def wakeThreadLocked (t : Tid) (s : Pcpu D P) : Pcpu D P :=
  let obj := s.ctl.thread t
  if obj.isBlocked || obj.beBlocking then
    let pol := sch.callWake env s.ctl t s.pol
    let ctl :=
      if obj.isBlocked then
        s.ctl.makeRescheduleRequest.updThread t fun o =>
          { o with latency := o.latency.markRunnable env.now, status := .runnable }
      else s.ctl
    ⟨ctl.updThread t fun o => { o with beBlocking := false }, pol⟩
  else s

def threadQuiesceActive (ctl : SchedControl) (t : Tid) : Bool :=
  let obj := ctl.thread t
  if obj.isVcpu = false ∨ configMaxVmNum ≤ obj.vmId then false
  else (ctl.quiesceSlots obj.vmId).obj = some t ∧ (ctl.quiesceSlots obj.vmId).requestGeneration ≠ 0

def wakeThread (t : Tid) (s : Pcpu D P) : Pcpu D P :=
  if threadQuiesceActive s.ctl t then s
  else if (s.ctl.thread t).freezeEpoch ≠ 0 then
    { s with ctl := s.ctl.updThread t fun o => { o with deferredWake := true } }
  else wakeThreadLocked sch env t s

/-! ### Freeze and thaw -/

/-- `freeze_thread`: the state, whether the thread is frozen and the wake ownership. -/
def freezeThread (t : Tid) (epoch : Nat) (s : Pcpu D P) : Pcpu D P × Bool × Bool :=
  if epoch = 0 then (s, false, false)
  else
    let obj := s.ctl.thread t
    if obj.freezeEpoch = 0 ∨ obj.freezeEpoch = epoch then
      let s :=
        if obj.freezeEpoch = 0 then
          { s with ctl := s.ctl.updThread t fun o =>
              { o with freezeEpoch := epoch, deferredWake := false } }
        else s
      let (s, wakeOwned) := sleepThreadLocked sch env t s
      (s, true, wakeOwned)
    else (s, false, false)

def thawThread (t : Tid) (epoch : Nat) (wakeOwned : Bool) (s : Pcpu D P) : Pcpu D P × Bool :=
  if epoch = 0 then (s, false)
  else
    let obj := s.ctl.thread t
    if obj.freezeEpoch = epoch then
      let replayWake := wakeOwned || obj.deferredWake
      let s := { s with ctl := s.ctl.updThread t fun o =>
        { o with freezeEpoch := 0, deferredWake := false } }
      (if replayWake then wakeThreadLocked sch env t s else s, true)
    else (s, false)

/-! ### Quiesce requests -/

def requestThreadQuiesce (t : Tid) (generation : Nat) (ctl : SchedControl) : SchedControl × Bool :=
  let obj := ctl.thread t
  if obj.isVcpu = false ∨ generation = 0 ∨ configMaxVmNum ≤ obj.vmId then (ctl, false)
  else
    let slot := ctl.quiesceSlots obj.vmId
    if slot.obj = none ∨ slot.obj = some t ∨ slot.requestGeneration = slot.ackGeneration then
      let slot := { slot with obj := some t, requestGeneration := generation }
      let ctl := { ctl with
        quiesceSlots := Function.update ctl.quiesceSlots obj.vmId slot
        quiesceRequestVmMask := bitmapSet obj.vmId ctl.quiesceRequestVmMask }
      (ctl.makeRescheduleRequest, true)
    else (ctl, false)

def isThreadQuiesced (ctl : SchedControl) (t : Tid) (generation : Nat) : Bool :=
  let obj := ctl.thread t
  if obj.isVcpu = false ∨ generation = 0 ∨ configMaxVmNum ≤ obj.vmId then false
  else
    let slot := ctl.quiesceSlots obj.vmId
    decide (slot.obj = some t) && decide (slot.requestGeneration = generation) &&
      decide (slot.ackGeneration = generation)

def releaseThreadQuiesce (t : Tid) (ctl : SchedControl) : SchedControl :=
  let obj := ctl.thread t
  if obj.isVcpu = false ∨ configMaxVmNum ≤ obj.vmId then ctl
  else if (ctl.quiesceSlots obj.vmId).obj = some t then
    { ctl with
      quiesceRequestVmMask := bitmapClear obj.vmId ctl.quiesceRequestVmMask
      quiesceSlots := Function.update ctl.quiesceSlots obj.vmId QuiesceSlot.empty }
  else ctl

/-- One VM of the walk over the requested bits in `sched_ack_quiesce_from_idle`. -/
def ackQuiesceVm (acc : SchedControl × Bool) (vmId : Nat) : SchedControl × Bool :=
  let ctl := acc.1
  let slot := ctl.quiesceSlots vmId
  match slot.obj with
  | none => acc
  | some t =>
    let obj := ctl.thread t
    if ctl.currObj = ctl.idle ∧ obj.isVcpu = true ∧ obj.pcpuId = ctl.pcpuId ∧
        obj.vmId = vmId ∧ slot.requestGeneration ≠ 0 ∧ obj.isBlocked = true ∧
        obj.beBlocking = false ∧ ctl.currObj ≠ t then
      ({ ctl with
          quiesceRequestVmMask := bitmapClear vmId ctl.quiesceRequestVmMask
          quiesceSlots := Function.update ctl.quiesceSlots vmId
            { slot with ackGeneration := slot.requestGeneration } }, true)
    else acc

/-- `sched_ack_quiesce_from_idle`: the requested VMs are visited lowest bit first. -/
def schedAckQuiesceFromIdle (ctl : SchedControl) : SchedControl × Bool :=
  ((List.range configMaxVmNum).filter fun vmId => bitmapTest vmId ctl.quiesceRequestVmMask).foldl
    ackQuiesceVm (ctl, false)

/-! ### Priority requests -/

def requestThreadPriorityNoResched (t : Tid) (s : Pcpu D P) : Pcpu D P :=
  match sch.prioritize with
  | some _ =>
    { s with ctl :=
      { (s.ctl.updThread t fun o => { o with priorityPending := true }) with
        priorityPending := true } }
  | none => s

def requestThreadPriority (t : Tid) (s : Pcpu D P) : Pcpu D P :=
  let s := requestThreadPriorityNoResched sch t s
  { s with ctl := s.ctl.makeRescheduleRequest }

/-! ### The policy's timer -/

/--
`timer_softirq` for the policy's one-shot timer: the node is unlinked before the callback,
a zero timeout skips the callback, and a callback that did not arm the timer again leaves
it with timeout zero.
-/
def timerCallback (now : Nat) (s : Pcpu D P) : Pcpu D P :=
  let pol := { s.pol with tickTimer := s.pol.tickTimer.del }
  let s :=
    if pol.tickTimer.timeout ≠ 0 then
      let ctl := s.ctl.schedAccountTick
      let (pol, request) := sch.timerHandler now ctl pol
      ⟨if request then ctl.makeRescheduleRequest else ctl, pol⟩
    else { s with pol := pol }
  if s.pol.tickTimer.started then s
  else { s with pol := { s.pol with tickTimer := { s.pol.tickTimer with timeout := 0 } } }

/-! ### Dropping a reschedule request -/

/-- A registered thread the scan of `sched_current_is_only_runnable_locked` counts. -/
def countsAsRunnable (ctl : SchedControl) (t : Tid) : Bool :=
  let obj := ctl.thread t
  decide (obj.pcpuId = ctl.pcpuId) && !ctl.isIdleThread t && !obj.beBlocking &&
    obj.isRunnableOrRunning

/--
The registry loop.  It returns the count and the value `obj` has when the loop is left:
the thread it broke at, or the last registered thread.
-/
def scanRunnable (ctl : SchedControl) : List Tid → Nat → Option Tid → Nat × Option Tid
  | [], runnable, obj => (runnable, obj)
  | t :: rest, runnable, _ =>
    if countsAsRunnable ctl t then
      if runnable + 1 > 1 ∨ t ≠ ctl.currObj then (runnable + 1, some t)
      else scanRunnable ctl rest (runnable + 1) (some t)
    else scanRunnable ctl rest runnable (some t)

def schedCurrentIsOnlyRunnable (ctl : SchedControl) : Bool :=
  let current := ctl.thread ctl.currObj
  if ctl.isIdleThread ctl.currObj || current.beBlocking || !current.isRunnableOrRunning then false
  else
    let (runnable, obj) := scanRunnable ctl ctl.threadList 0 none
    decide (runnable = 1) && decide (obj = some ctl.currObj)

def schedClearRescheduleIfCurrentOnly (suspend reset : Bool) (ctl : SchedControl) :
    SchedControl × Bool :=
  if !schedIdleWorkPending ctl suspend reset && ctl.needReschedule &&
      schedCurrentIsOnlyRunnable ctl then
    ({ ctl with needReschedule := false }, true)
  else (ctl, false)

/-! ### Steps -/

/-- One call into the scheduler of a pCPU. -/
inductive Op
  | wake (t : Tid)
  | sleep (t : Tid)
  | requestPriority (t : Tid)
  | freeze (t : Tid) (epoch : Nat)
  | thaw (t : Tid) (epoch : Nat) (wakeOwned : Bool)
  | requestQuiesce (t : Tid) (generation : Nat)
  | ackQuiesce
  | releaseQuiesce (t : Tid)
  | timer
  | schedule (suspend reset : Bool)
  deriving DecidableEq, Repr

def Op.target : Op → Option Tid
  | .wake t | .sleep t | .requestPriority t | .freeze t _ | .thaw t _ _ | .requestQuiesce t _
  | .releaseQuiesce t => some t
  | .ackQuiesce | .timer | .schedule _ _ => none

/-- Callers pass registered non-idle threads bound to this pCPU. -/
def Op.Valid (ctl : SchedControl) (op : Op) : Prop :=
  ∀ t ∈ op.target, t ≠ ctl.idle ∧ t ∈ ctl.threadList ∧ (ctl.thread t).pcpuId = ctl.pcpuId

instance (ctl : SchedControl) (op : Op) : Decidable (op.Valid ctl) :=
  match h : op.target with
  | none => isTrue (by simp [Op.Valid, h])
  | some t =>
    decidable_of_iff
      (t ≠ ctl.idle ∧ t ∈ ctl.threadList ∧ (ctl.thread t).pcpuId = ctl.pcpuId)
      (by simp [Op.Valid, h])

def step (s : Pcpu D P) (call : Env × Op) : Pcpu D P :=
  let env := call.1
  match call.2 with
  | .wake t => wakeThread sch env t s
  | .sleep t => sleepThread sch env t s
  | .requestPriority t => requestThreadPriority sch t s
  | .freeze t epoch => (freezeThread sch env t epoch s).1
  | .thaw t epoch wakeOwned => (thawThread sch env t epoch wakeOwned s).1
  | .requestQuiesce t generation => { s with ctl := (requestThreadQuiesce t generation s.ctl).1 }
  | .ackQuiesce =>
    -- `default_idle` follows a successful acknowledgement with a reschedule request
    let (ctl, acked) := schedAckQuiesceFromIdle s.ctl
    { s with ctl := if acked then ctl.makeRescheduleRequest else ctl }
  | .releaseQuiesce t => { s with ctl := releaseThreadQuiesce t s.ctl }
  | .timer => timerCallback sch env.now s
  | .schedule suspend reset => schedule sch env.now suspend reset s

/-! ### Boot -/

structure ThreadConfig (D : Type) where
  tid : Tid
  pcpuId : Nat
  isVcpu : Bool
  vmId : Nat
  vcpuId : Nat
  /-- the policy's data as `init_data` leaves it -/
  data : D
  /-- `cpu_ticks()` at `init_thread_data` -/
  createdAt : Nat

/-- The thread object after `init_thread_data`. -/
def ThreadConfig.object (cfg : ThreadConfig D) : ThreadObject where
  pcpuId := cfg.pcpuId
  status := .blocked
  beBlocking := false
  isVcpu := cfg.isVcpu
  priorityPending := false
  freezeEpoch := 0
  deferredWake := false
  vmId := cfg.vmId
  vcpuId := cfg.vcpuId
  latency := { LatencyStats.zero with stateSince := cfg.createdAt }

/-- The threads of the machine as this pCPU finds them, in any registration order. -/
structure BootConfig (D : Type) where
  pcpuId : Nat
  tickrate : Nat
  idle : ThreadConfig D
  threads : List (ThreadConfig D)
  registry : List Tid
  idle_pcpu : idle.pcpuId = pcpuId
  tids_nodup : (idle.tid :: threads.map (·.tid)).Nodup
  registry_perm : registry.Perm (idle.tid :: threads.map (·.tid))

namespace BootConfig

def find (cfg : BootConfig D) (t : Tid) : Option (ThreadConfig D) :=
  cfg.threads.find? fun c => c.tid = t

/-- The thread objects; an identity that was never created is bound to no pCPU of interest. -/
def thread (cfg : BootConfig D) (t : Tid) : ThreadObject :=
  if t = cfg.idle.tid then
    let obj := cfg.idle.object
    { obj with
      status := .running
      latency := obj.latency.markRunning cfg.tickrate cfg.idle.createdAt }
  else
    match cfg.find t with
    | some c => c.object
    | none => { cfg.idle.object with pcpuId := cfg.pcpuId + 1 }

/-- `init_sched`, `init_thread_data` for every thread and `run_thread` for idle. -/
def boot (cfg : BootConfig D) (priv : P) : Pcpu D P where
  ctl :=
    { pcpuId := cfg.pcpuId
      needReschedule := false
      currObj := cfg.idle.tid
      idle := cfg.idle.tid
      thread := cfg.thread
      threadList := cfg.registry
      schedulerTicks := 0
      contextSwitches := 0
      rescheduleRequests := 0
      quiesceRequestVmMask := 0
      quiesceSlots := fun _ => QuiesceSlot.empty
      priorityPending := false
      tickrate := cfg.tickrate }
  pol :=
    { data := fun t => ((cfg.find t).getD cfg.idle).data
      priv := priv
      tickTimer := HvTimer.init }

end BootConfig

end BeauOs.Sched
