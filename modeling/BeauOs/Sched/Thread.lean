/-
What the scheduler framework knows about threads and about one physical CPU.

`include/common/schedule.h` keeps the state of a thread in `struct thread_object` and
the state of a pCPU in `struct sched_control`.  The part of both that belongs to the
framework is modelled here.  The part that belongs to the scheduling policy, the bytes
in `thread_object::data`, the block behind `sched_control::priv` and the one-shot timer
in it, is `PolicyState`, so that a policy hook cannot touch what the framework owns.

A thread is named by its identity (`Tid`), which stands for the address of the C object.
The registry `thread_list` holds the threads of every pCPU, in registration order.
-/
import BeauOs.Lib.Word
import Mathlib.Logic.Function.Basic

namespace BeauOs.Sched

abbrev Tid := Nat

def configMaxVmNum : Nat := 16

inductive ThreadState
  | running
  | runnable
  | blocked
  deriving DecidableEq, Repr

/-! ### Wait and runtime statistics -/

structure LatencyStats where
  switches : Nat
  lastWaitTicks : Nat
  maxWaitTicks : Nat
  stateSince : Nat
  runnableSince : Nat
  runtimeTicks : Nat
  waitHist : Fin 8 → Nat

/-- The record as `memset` leaves it. -/
def LatencyStats.zero : LatencyStats := ⟨0, 0, 0, 0, 0, 0, fun _ => 0⟩

/-- `us_to_ticks`: `khz` is the tick rate `arch_cpu_tickrate()`. -/
def usToTicks (khz us : Nat) : Nat := us * khz / 1000

/-- `ticks_to_us`, which saturates instead of wrapping. -/
def ticksToUs (khz ticks : Nat) : Nat :=
  if khz ≠ 0 then
    let ms := ticks / khz
    let remUs := ticks % khz * 1000 / khz
    if ms > uint64Max / 1000 then uint64Max
    else if ms * 1000 > uint64Max - remUs then uint64Max else ms * 1000 + remUs
  else 0

def schedLatencyHistBucket (khz waitTicks : Nat) : Fin 8 :=
  let waitUs := ticksToUs khz waitTicks
  if waitUs < 100 then 0
  else if waitUs < 500 then 1
  else if waitUs < 1000 then 2
  else if waitUs < 5000 then 3
  else if waitUs < 10000 then 4
  else if waitUs < 15000 then 5
  else if waitUs < 20000 then 6
  else 7

section

variable (l : LatencyStats)

def LatencyStats.addRuntime (ticks : Nat) : LatencyStats :=
  if ticks > uint64Max - l.runtimeTicks then { l with runtimeTicks := uint64Max }
  else { l with runtimeTicks := l.runtimeTicks + ticks }

def LatencyStats.recordWait (khz waitTicks : Nat) : LatencyStats :=
  let bucket := schedLatencyHistBucket khz waitTicks
  { l with waitHist := Function.update l.waitHist bucket (countEvent (l.waitHist bucket)) }

def LatencyStats.markRunnable (now : Nat) : LatencyStats :=
  { l with stateSince := now, runnableSince := now }

def LatencyStats.markBlocked (now : Nat) : LatencyStats :=
  { l with stateSince := now, runnableSince := 0 }

def LatencyStats.markRunning (khz now : Nat) : LatencyStats :=
  let l :=
    if l.runnableSince ≠ 0 then
      let waitTicks := sub64 now l.runnableSince
      { l with lastWaitTicks := waitTicks, maxWaitTicks := max l.maxWaitTicks waitTicks }.recordWait
        khz waitTicks
    else l
  { l with switches := l.switches + 1, stateSince := now, runnableSince := 0 }

def LatencyStats.markNotRunning (now : Nat) (runnable : Bool) : LatencyStats :=
  let l := if l.stateSince ≠ 0 then l.addRuntime (sub64 now l.stateSince) else l
  { l with stateSince := now, runnableSince := if runnable then now else 0 }

end

/-! ### Threads -/

/-- `struct thread_object`, without the policy's bytes and the host stack. -/
structure ThreadObject where
  pcpuId : Nat
  status : ThreadState
  beBlocking : Bool
  isVcpu : Bool
  priorityPending : Bool
  freezeEpoch : Nat
  deferredWake : Bool
  vmId : Nat
  vcpuId : Nat
  latency : LatencyStats

namespace ThreadObject

variable (obj : ThreadObject)

def isBlocked : Bool := obj.status = .blocked

def isRunning : Bool := obj.status = .running

def isRunnableOrRunning : Bool :=
  obj.status = .running || obj.status = .runnable

end ThreadObject

structure QuiesceSlot where
  obj : Option Tid
  requestGeneration : Nat
  ackGeneration : Nat
  deriving DecidableEq, Repr

def QuiesceSlot.empty : QuiesceSlot := ⟨none, 0, 0⟩

/--
`struct sched_control` of one pCPU, with the thread objects, the registry and the
quiesce slots it works on.  `curr_obj` is never null here: the idle thread is installed
by `run_thread` before anything can be scheduled.
-/
structure SchedControl where
  pcpuId : Nat
  /-- the `NEED_RESCHEDULE` bit of `flags` -/
  needReschedule : Bool
  currObj : Tid
  /-- `per_cpu(idle, pcpu_id)` -/
  idle : Tid
  thread : Tid → ThreadObject
  threadList : List Tid
  schedulerTicks : Nat
  contextSwitches : Nat
  rescheduleRequests : Nat
  quiesceRequestVmMask : BitVec 64
  quiesceSlots : Nat → QuiesceSlot
  priorityPending : Bool
  tickrate : Nat

namespace SchedControl

variable (ctl : SchedControl)

/-- `is_idle_thread`, for the threads of this pCPU. -/
def isIdleThread (t : Tid) : Bool := t = ctl.idle

/-- The test `curr_obj == obj`, which every budget policy makes under its own name. -/
def isCurrent (t : Tid) : Bool := ctl.currObj = t

/--
The test of `cbs_is_active`, `rtds_is_active` and `bfp_is_active`.  `schedule()` marks the
outgoing thread runnable only after `pick_next`, so the current thread counts as active
unless it is about to block.
-/
def isActive (t : Tid) : Bool :=
  !ctl.isIdleThread t &&
    ((ctl.isCurrent t && !(ctl.thread t).beBlocking) || (ctl.thread t).status = .runnable)

def updThread (t : Tid) (f : ThreadObject → ThreadObject) : SchedControl :=
  { ctl with thread := Function.update ctl.thread t (f (ctl.thread t)) }

/-- `make_reschedule_request`; the SGI to a remote pCPU has no effect on this state. -/
def makeRescheduleRequest : SchedControl :=
  { ctl with rescheduleRequests := ctl.rescheduleRequests + 1, needReschedule := true }

def schedAccountTick : SchedControl :=
  { ctl with schedulerTicks := ctl.schedulerTicks + 1 }

@[simp] theorem updThread_self (t : Tid) (f : ThreadObject → ThreadObject) :
    (ctl.updThread t f).thread t = f (ctl.thread t) := by simp [updThread]

theorem updThread_of_ne {t u : Tid} (f : ThreadObject → ThreadObject) (h : u ≠ t) :
    (ctl.updThread t f).thread u = ctl.thread u := by simp [updThread, h]

end SchedControl

/-! ### Reservations

The budget policies give every thread an execution budget in every period.  Both come from
the thread's own parameters or the defaults of its CPU pool, in microseconds, and are kept
in ticks.
-/

/-- A budget in every period, in ticks. -/
structure Reservation where
  periodTicks : Nat
  budgetTicks : Nat
  budget_pos : 0 < budgetTicks
  budget_le_period : budgetTicks ≤ periodTicks
  deriving DecidableEq

/-- What the policies read of `struct sched_cpupool_config`. -/
structure PoolConfig where
  /-- the pool runs the policy that asks -/
  samePolicy : Bool
  periodUs : Nat
  budgetUs : Nat
  deriving DecidableEq

/-- A thread's own value, the pool's value if the thread has none, the built-in default last. -/
def poolDefault (param poolValue builtin : Nat) : Nat :=
  if param ≠ 0 then param else if poolValue ≠ 0 then poolValue else builtin

/-- The pool's period and budget, zero where it has none to offer. -/
def PoolConfig.values (pool : Option PoolConfig) : Nat × Nat :=
  match pool with
  | some cfg => if cfg.samePolicy then (cfg.periodUs, cfg.budgetUs) else (0, 0)
  | none => (0, 0)

/-- Microseconds as a policy accepts them: a budget of 500 or more, within the period. -/
abbrev NormalizedUs := { us : Nat × Nat // 500 ≤ us.2 ∧ us.2 ≤ us.1 }

/-- `enum sched_rtds_queue` and `enum sched_bfp_queue`: where a server is linked. -/
inductive ServerQueue
  | none
  | ready
  | depleted
  deriving DecidableEq, Repr

/-! ### What a policy owns -/

/-- `struct hv_timer` as the policies use it: a one-shot timer on the pCPU's own list. -/
structure HvTimer where
  timeout : Nat
  /-- `timer_is_started`: the node is on the timer list -/
  started : Bool
  deriving DecidableEq, Repr

namespace HvTimer

/-- `initialize_timer` with no timeout and no period. -/
def init : HvTimer := ⟨0, false⟩

def del (timer : HvTimer) : HvTimer := { timer with started := false }

/-- `update_timer` followed by `add_timer`, which refuses a zero timeout. -/
def arm (timer : HvTimer) (timeout : Nat) : HvTimer :=
  { timer with timeout := timeout, started := if timeout = 0 then timer.started else true }

end HvTimer

/-- `thread_object::data` of every thread, `sched_control::priv` and the timer in it. -/
structure PolicyState (D P : Type) where
  data : Tid → D
  priv : P
  tickTimer : HvTimer

namespace PolicyState

variable {D P : Type} (p : PolicyState D P)

def updData (t : Tid) (f : D → D) : PolicyState D P :=
  { p with data := Function.update p.data t (f (p.data t)) }

@[simp] theorem updData_self (t : Tid) (f : D → D) :
    (p.updData t f).data t = f (p.data t) := by simp [updData]

@[simp] theorem updData_of_ne {t u : Tid} (f : D → D) (h : u ≠ t) :
    (p.updData t f).data u = p.data u := by simp [updData, h]

@[simp] theorem updData_priv (t : Tid) (f : D → D) :
    (p.updData t f).priv = p.priv := rfl

end PolicyState

end BeauOs.Sched
