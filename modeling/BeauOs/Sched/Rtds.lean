/-
The periodic budget server policy: `core/sched/rtds.c`.

Each thread owns a budget in every period of a fixed grid.  Servers with budget left wait in
the ready queue, ordered by the end of their period; servers without wait in the depleted
queue until their period ends, and run before that only as slack, when nothing is ready.
A thread carries the name of the queue it is linked in (`ServerQueue`), and unlinking goes by
that name.

The period arithmetic wraps: `periods_missed * period_ticks` and the sum with the deadline
are 64-bit, as in the source.
-/
import BeauOs.Lib.Queue
import BeauOs.Sched.Framework

namespace BeauOs.Sched

structure RtdsData extends Reservation where
  remainingTicks : Nat
  deadlineTicks : Nat
  lastStartTicks : Nat
  queue : ServerQueue
  deriving DecidableEq

structure RtdsControl where
  readyQueue : List Tid
  depletedQueue : List Tid
  deriving DecidableEq

abbrev RtdsState := PolicyState RtdsData RtdsControl

/-- `rtds_next_period_boundary`; the product wraps. -/
def rtdsNextPeriodBoundary (now periodTicks : Nat) : Nat :=
  if periodTicks = 0 then now else (now / periodTicks + 1) * periodTicks % 2 ^ 64

namespace RtdsData

/-- The charge of `rtds_account_runtime`, once its guards are passed. -/
def account (d : RtdsData) (now : Nat) : RtdsData :=
  let delta := now - d.lastStartTicks
  { d with
    lastStartTicks := now
    remainingTicks := if delta ≥ d.remainingTicks then 0 else d.remainingTicks - delta }

/-- The test of `rtds_advance_period`: the period has ended. -/
def periodEnded (d : RtdsData) (now : Nat) : Bool := !decide (now < d.deadlineTicks)

/-- `rtds_advance_period`; its result is `periodEnded`. -/
def advancePeriod (d : RtdsData) (now : Nat) : RtdsData :=
  if d.periodEnded now then
    let periodsMissed := (now - d.deadlineTicks) / d.periodTicks + 1
    { d with
      deadlineTicks := (d.deadlineTicks + periodsMissed * d.periodTicks) % 2 ^ 64
      remainingTicks := d.budgetTicks }
  else d

/-- A fresh server, as `sched_rtds_init_data` sets it up. -/
def init (res : Reservation) (now : Nat) : RtdsData where
  toReservation := res
  remainingTicks := res.budgetTicks
  deadlineTicks := rtdsNextPeriodBoundary now res.periodTicks
  lastStartTicks := 0
  queue := .none

end RtdsData

/-! ### The queues -/

section

variable (ctl : SchedControl)

def rtdsIsCurrent (t : Tid) : Bool := ctl.isCurrent t

def rtdsIsActive (t : Tid) : Bool := ctl.isActive t

/-- `rtds_queue_remove`: `list_del_init` takes the node out of whichever queue it is in. -/
def rtdsQueueRemove (t : Tid) (p : RtdsState) : RtdsState :=
  if (p.data t).queue ≠ .none then
    { p.updData t (fun d => { d with queue := .none }) with
      priv :=
        { readyQueue := p.priv.readyQueue.erase t
          depletedQueue := p.priv.depletedQueue.erase t } }
  else p

def rtdsReadyInsert (t : Tid) (p : RtdsState) : RtdsState :=
  let p := if (p.data t).queue ≠ .none then rtdsQueueRemove t p else p
  { p.updData t (fun d => { d with queue := .ready }) with
    priv := { p.priv with
      readyQueue := Queue.insertBefore
        (fun u => (p.data t).deadlineTicks < (p.data u).deadlineTicks) t p.priv.readyQueue } }

def rtdsDepletedInsert (t : Tid) (p : RtdsState) : RtdsState :=
  if (p.data t).queue = .depleted then p
  else
    let p := if (p.data t).queue = .ready then rtdsQueueRemove t p else p
    { p.updData t (fun d => { d with queue := .depleted }) with
      priv := { p.priv with depletedQueue := p.priv.depletedQueue ++ [t] } }

variable (now : Nat)

def rtdsAccountRuntime (t : Tid) (p : RtdsState) : RtdsState :=
  if ctl.isIdleThread t || !(ctl.thread t).isRunning || decide ((p.data t).lastStartTicks = 0) ||
      decide (now ≤ (p.data t).lastStartTicks) then p
  else p.updData t (·.account now)

def rtdsRefreshThread (t : Tid) (p : RtdsState) : RtdsState :=
  let p := p.updData t (·.advancePeriod now)
  if rtdsIsActive ctl t then
    if (p.data t).remainingTicks > 0 then rtdsReadyInsert t p
    else if !(ctl.thread t).beBlocking then rtdsDepletedInsert t p
    else p
  else p

/-- The body of the ready-queue walk in `rtds_refresh_queues`. -/
def rtdsRefreshReady (t : Tid) (p : RtdsState) : RtdsState :=
  if (p.data t).periodEnded now then
    rtdsRefreshThread ctl now t (rtdsQueueRemove t (p.updData t (·.advancePeriod now)))
  else p

/-- `rtds_refresh_queues`: first the ready queue, then the depleted one. -/
def rtdsRefreshQueues (p : RtdsState) : RtdsState :=
  let p := Queue.forEachSafe (·.priv.readyQueue) (rtdsRefreshReady ctl now)
    (2 * p.priv.readyQueue.length) p.priv.readyQueue.head? p
  Queue.forEachSafe (·.priv.depletedQueue) (rtdsRefreshThread ctl now)
    p.priv.depletedQueue.length p.priv.depletedQueue.head? p

/-- The accumulation of `rtds_next_depleted_deadline`; 0 stands for no deadline yet. -/
def rtdsNextDepletedDeadline (p : RtdsState) : Nat :=
  p.priv.depletedQueue.foldl
    (fun next t =>
      if next = 0 ∨ (p.data t).deadlineTicks < next then (p.data t).deadlineTicks else next) 0

/-- One step of the search in `rtds_pick_depleted_slack`. -/
def rtdsBetterSlack (p : RtdsState) (best : Option Tid) (t : Tid) : Option Tid :=
  match best with
  | none => some t
  | some b => if (p.data t).deadlineTicks < (p.data b).deadlineTicks then some t else some b

/-- The search of `rtds_pick_depleted_slack`. -/
def rtdsBestSlack (p : RtdsState) : Option Tid :=
  p.priv.depletedQueue.foldl (rtdsBetterSlack p) none

/-! ### The local timer -/

/-- The time at which `running` needs EL2 again; 0 for none. -/
def rtdsRunningTimeout (running : Option Tid) (p : RtdsState) : Nat :=
  match running with
  | some t =>
    if ctl.isIdleThread t then 0
    else
      let d := p.data t
      if d.remainingTicks > 0 then
        let due :=
          if d.lastStartTicks ≠ 0 then add64 d.lastStartTicks d.remainingTicks
          else add64 now d.remainingTicks
        let timeout := if d.deadlineTicks < due then d.deadlineTicks else due
        if timeout ≤ now then now else timeout
      else if d.deadlineTicks > now then d.deadlineTicks
      else now
  | none => 0

def rtdsProgramLocalTimer (running : Option Tid) (p : RtdsState) : RtdsState :=
  let p := { p with tickTimer := p.tickTimer.del }
  let timeout := rtdsRunningTimeout ctl now running p
  let replenish := rtdsNextDepletedDeadline p
  let timeout :=
    if replenish ≠ 0 ∧ (timeout = 0 ∨ replenish < timeout) then replenish else timeout
  if timeout ≠ 0 then { p with tickTimer := p.tickTimer.arm timeout } else p

end

def rtdsProgramTimer (env : Env) (ctl : SchedControl) (running : Option Tid) (p : RtdsState) :
    RtdsState :=
  if env.here then rtdsProgramLocalTimer ctl env.now running p else p

/-! ### Hooks -/

/-- The accounting that `rtds_timer_handler` and `sched_rtds_pick_next` share. -/
def rtdsRefreshAll (ctl : SchedControl) (now : Nat) (p : RtdsState) : RtdsState :=
  let p :=
    if ctl.isIdleThread ctl.currObj then p
    else rtdsRefreshThread ctl now ctl.currObj (rtdsAccountRuntime ctl now ctl.currObj p)
  rtdsRefreshQueues ctl now p

/-- `rtds_timer_handler`; the timer is not armed again. -/
def rtdsTimerHandler (now : Nat) (ctl : SchedControl) (p : RtdsState) : RtdsState × Bool :=
  (rtdsRefreshAll ctl now p, true)

/-- The earliest ready server, else the depleted server that is replenished first, else idle. -/
def rtdsTakeFirst (ctl : SchedControl) (p : RtdsState) : Tid × RtdsState :=
  match p.priv.readyQueue with
  | first :: _ => (first, rtdsQueueRemove first p)
  | [] =>
    match rtdsBestSlack p with
    | some best => (best, rtdsQueueRemove best p)
    | none => (ctl.idle, p)

def schedRtdsPickNext (now : Nat) (ctl : SchedControl) (p : RtdsState) : Tid × RtdsState :=
  let (next, p) := rtdsTakeFirst ctl (rtdsRefreshAll ctl now p)
  let p :=
    if ctl.isIdleThread next then p
    else p.updData next fun d => { d with lastStartTicks := now }
  (next, rtdsProgramLocalTimer ctl now (some next) p)

def schedRtdsSleep (env : Env) (ctl : SchedControl) (t : Tid) (p : RtdsState) : RtdsState :=
  let p := if rtdsIsCurrent ctl t then rtdsAccountRuntime ctl env.now t p else p
  let p := rtdsQueueRemove t p
  let p := p.updData t fun d => { d with lastStartTicks := 0 }
  rtdsProgramTimer env ctl (if rtdsIsCurrent ctl t then none else some ctl.currObj) p

def schedRtdsWake (env : Env) (ctl : SchedControl) (t : Tid) (p : RtdsState) : RtdsState :=
  let p := p.updData t fun d => { d.advancePeriod env.now with lastStartTicks := 0 }
  let p := if (p.data t).remainingTicks > 0 then rtdsReadyInsert t p else rtdsDepletedInsert t p
  rtdsProgramTimer env ctl (some ctl.currObj) p

def schedRtdsPrioritize (now : Nat) (ctl : SchedControl) (t : Tid) (p : RtdsState) : RtdsState :=
  let p := p.updData t (·.advancePeriod now)
  if !rtdsIsCurrent ctl t && decide ((p.data t).remainingTicks > 0) then rtdsReadyInsert t p else p

def schedRtds : AcrnScheduler RtdsData RtdsControl where
  pickNext := schedRtdsPickNext
  sleep := some schedRtdsSleep
  wake := some schedRtdsWake
  prioritize := some schedRtdsPrioritize
  timerHandler := rtdsTimerHandler

/-- `sched_rtds_init`: empty queues. -/
def RtdsControl.init : RtdsControl := ⟨[], []⟩

end BeauOs.Sched
