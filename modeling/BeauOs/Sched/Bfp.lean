/-
The budgeted fixed-priority policy: `core/sched/bfp.c`.

A vCPU runs by fixed priority as long as it has budget left in its current period.  Without
budget it waits in the depleted queue for its period to end and, unlike under RTDS, does
not run on slack before that.  Replenishments lie on a fixed grid; a grid point past the
last 64-bit tick is kept as `uint64Max`, which no clock value passes, and such a server has
no budget any more.

`sched_bfp_init_data` leaves the data of the idle thread all zero and refuses every other
thread without a valid period and budget.  No hook reads the data of the idle thread, so the
data here are those of a vCPU, with its `Reservation`.
-/
import BeauOs.Lib.Queue
import BeauOs.Sched.Framework

namespace BeauOs.Sched

structure BfpData extends Reservation where
  remainingTicks : Nat
  nextReplenishTicks : Nat
  lastStartTicks : Nat
  depletedCount : Nat
  replenishCount : Nat
  overrunCount : Nat
  priority : Nat
  queue : ServerQueue
  deriving DecidableEq

/-- `struct sched_bfp_control`, without the number of admitted vCPUs. -/
structure BfpControl where
  readyQueue : List Tid
  depletedQueue : List Tid
  timerDeadlineTicks : Nat
  deriving DecidableEq

abbrev BfpState := PolicyState BfpData BfpControl

def bfpNextPeriodBoundary (now periodTicks : Nat) : Nat :=
  if periodTicks = 0 then uint64Max
  else if now / periodTicks ≥ uint64Max / periodTicks then uint64Max
  else (now / periodTicks + 1) * periodTicks

namespace BfpData

variable (d : BfpData)

/-- The test of `bfp_advance_inactive_period`: the period has ended. -/
def periodEnded (now : Nat) : Bool :=
  decide (d.nextReplenishTicks ≠ uint64Max) && decide (now ≥ d.nextReplenishTicks)

/-- The number of replenishments that are due at `now`. -/
def periodsDue (now : Nat) : Nat := (now - d.nextReplenishTicks) / d.periodTicks + 1

/-- The next replenishment would lie past the last tick. -/
def replenishSaturates (now : Nat) : Bool :=
  d.periodsDue now > (uint64Max - d.nextReplenishTicks) / d.periodTicks

/-- `bfp_advance_inactive_period`; its result is `periodEnded`. -/
def advanceInactivePeriod (now : Nat) : BfpData :=
  if d.periodEnded now then
    let periods := d.periodsDue now
    let d :=
      if d.replenishSaturates now then
        { d with nextReplenishTicks := uint64Max, remainingTicks := 0 }
      else
        { d with
          nextReplenishTicks := d.nextReplenishTicks + periods * d.periodTicks
          remainingTicks := d.budgetTicks }
    { d with replenishCount := counterAdd d.replenishCount periods }
  else d

def chargeCurrentPeriod (delta : Nat) : BfpData :=
  if delta > d.remainingTicks then
    { d with remainingTicks := 0, overrunCount := counterAdd d.overrunCount 1 }
  else { d with remainingTicks := d.remainingTicks - delta }

/-- The last part of `bfp_account_runtime`: the periods that ended, and the phase of the new one. -/
def chargeCrossed (boundary now : Nat) : BfpData :=
  let elapsed := now - boundary
  let fullPeriods := elapsed / d.periodTicks
  let phase := elapsed % d.periodTicks
  let replenishments := fullPeriods + 1
  if replenishments > (uint64Max - boundary) / d.periodTicks then
    { d with
      nextReplenishTicks := uint64Max
      remainingTicks := 0
      overrunCount := counterAdd d.overrunCount 1 }
  else
    let d :=
      { d with
        nextReplenishTicks := boundary + replenishments * d.periodTicks
        replenishCount := counterAdd d.replenishCount replenishments
        overrunCount :=
          if fullPeriods ≠ 0 ∧ d.budgetTicks < d.periodTicks then
            counterAdd d.overrunCount fullPeriods
          else d.overrunCount }
    if phase > d.budgetTicks then
      { d with remainingTicks := 0, overrunCount := counterAdd d.overrunCount 1 }
    else { d with remainingTicks := d.budgetTicks - phase }

/-- The charge of `bfp_account_runtime`, once its guards are passed. -/
def account (now : Nat) : BfpData :=
  let start := d.lastStartTicks
  let boundary := d.nextReplenishTicks
  let d := { d with lastStartTicks := now }
  if boundary = uint64Max ∨ now < boundary then d.chargeCurrentPeriod (now - start)
  else
    (if start < boundary then d.chargeCurrentPeriod (boundary - start) else d).chargeCrossed
      boundary now

/-- A fresh server, as `sched_bfp_init_data` sets it up. -/
def init (res : Reservation) (priority now : Nat) : BfpData where
  toReservation := res
  remainingTicks := res.budgetTicks
  nextReplenishTicks := bfpNextPeriodBoundary now res.periodTicks
  lastStartTicks := 0
  depletedCount := 0
  replenishCount := 0
  overrunCount := 0
  priority := priority
  queue := .none

end BfpData

/-! ### The queues -/

section

variable (ctl : SchedControl)

def bfpIsCurrent (t : Tid) : Bool := ctl.isCurrent t

def bfpIsActive (t : Tid) : Bool := ctl.isActive t

def bfpQueueRemove (t : Tid) (p : BfpState) : BfpState :=
  if (p.data t).queue ≠ .none then
    { p.updData t (fun d => { d with queue := .none }) with
      priv := { p.priv with
        readyQueue := p.priv.readyQueue.erase t
        depletedQueue := p.priv.depletedQueue.erase t } }
  else p

def bfpReadyInsert (t : Tid) (keepTurn : Bool) (p : BfpState) : BfpState :=
  let p := bfpQueueRemove t p
  { p.updData t (fun d => { d with queue := .ready }) with
    priv := { p.priv with
      readyQueue := Queue.insertBefore
        (fun u =>
          decide ((p.data t).priority > (p.data u).priority) ||
            (keepTurn && decide ((p.data t).priority = (p.data u).priority)))
        t p.priv.readyQueue } }

/-- `bfp_depleted_insert`; the plain counter wraps. -/
def bfpDepletedInsert (t : Tid) (p : BfpState) : BfpState :=
  let p := bfpQueueRemove t p
  { p.updData t (fun d =>
      { d with queue := .depleted, depletedCount := add64 d.depletedCount 1 }) with
    priv := { p.priv with
      depletedQueue := Queue.insertBefore
        (fun u => (p.data t).nextReplenishTicks < (p.data u).nextReplenishTicks)
        t p.priv.depletedQueue } }

variable (now : Nat)

def bfpAccountRuntime (t : Tid) (p : BfpState) : BfpState :=
  if ctl.isIdleThread t || !(ctl.thread t).isRunning || decide ((p.data t).lastStartTicks = 0) ||
      decide (now ≤ (p.data t).lastStartTicks) then p
  else p.updData t (·.account now)

def bfpRefreshThread (t : Tid) (keepTurn : Bool) (p : BfpState) : BfpState :=
  let p := p.updData t (·.advanceInactivePeriod now)
  if !bfpIsActive ctl t then bfpQueueRemove t p
  else if (p.data t).remainingTicks ≠ 0 then bfpReadyInsert t keepTurn p
  else bfpDepletedInsert t p

/-- The body of the depleted-queue walk in `bfp_refresh_queues`. -/
def bfpRefreshDepleted (t : Tid) (p : BfpState) : BfpState :=
  if (p.data t).periodEnded now then
    let p := bfpQueueRemove t (p.updData t (·.advanceInactivePeriod now))
    if bfpIsActive ctl t && decide ((p.data t).remainingTicks ≠ 0) then bfpReadyInsert t false p
    else p
  else p

/-- The ready-queue walk in `bfp_refresh_queues`, which moves nothing. -/
def bfpAdvanceReady (p : BfpState) : BfpState :=
  p.priv.readyQueue.foldl (fun p t => p.updData t (·.advanceInactivePeriod now)) p

def bfpRefreshQueues (p : BfpState) : BfpState :=
  let p := bfpAdvanceReady now p
  Queue.forEachSafe (·.priv.depletedQueue) (bfpRefreshDepleted ctl now)
    p.priv.depletedQueue.length p.priv.depletedQueue.head? p

def bfpNextDepletedReplenishment (p : BfpState) : Nat :=
  match p.priv.depletedQueue with
  | first :: _ => (p.data first).nextReplenishTicks
  | [] => 0

/-! ### The local timer -/

/-- The time at which `running` needs EL2 again; 0 for none. -/
def bfpRunningTimeout (running : Tid) (p : BfpState) : Nat :=
  if ctl.isIdleThread running then 0
  else
    let d := p.data running
    if d.remainingTicks ≠ 0 then
      let timeout :=
        if d.remainingTicks ≤ uint64Max - now then now + d.remainingTicks else uint64Max
      if d.nextReplenishTicks < timeout then d.nextReplenishTicks else timeout
    else 0

/-- The deadline `bfp_program_local_timer` settles on. -/
def bfpTimeout (running : Tid) (p : BfpState) : Nat :=
  let timeout := bfpRunningTimeout ctl now running p
  let replenish := bfpNextDepletedReplenishment p
  if replenish ≠ 0 ∧ (timeout = 0 ∨ replenish < timeout) then replenish else timeout

/-- `bfp_program_local_timer`; an armed timer with the wanted deadline is left alone. -/
def bfpProgramLocalTimer (running : Tid) (p : BfpState) : BfpState :=
  let timeout := bfpTimeout ctl now running p
  if timeout = p.priv.timerDeadlineTicks ∧ p.tickTimer.started = true then p
  else
    let timer := if p.tickTimer.started then p.tickTimer.del else p.tickTimer
    { p with
      priv := { p.priv with timerDeadlineTicks := timeout }
      tickTimer := if timeout ≠ 0 then timer.arm timeout else timer }

end

def bfpProgramTimer (env : Env) (ctl : SchedControl) (running : Tid) (p : BfpState) : BfpState :=
  if env.here then bfpProgramLocalTimer ctl env.now running p else p

/-! ### Hooks -/

/-- `bfp_timer_handler`: the current thread is charged but not requeued. -/
def bfpTimerHandler (now : Nat) (ctl : SchedControl) (p : BfpState) : BfpState × Bool :=
  let p := { p with priv := { p.priv with timerDeadlineTicks := 0 } }
  let p :=
    if ctl.isIdleThread ctl.currObj then p else bfpAccountRuntime ctl now ctl.currObj p
  (bfpRefreshQueues ctl now p, true)

/-- The accounting of `sched_bfp_pick_next`. -/
def bfpRefreshAll (ctl : SchedControl) (now : Nat) (p : BfpState) : BfpState :=
  let p :=
    if ctl.isIdleThread ctl.currObj then p
    else bfpRefreshThread ctl now ctl.currObj true (bfpAccountRuntime ctl now ctl.currObj p)
  bfpRefreshQueues ctl now p

/-- The first ready server, else idle; a depleted server never runs. -/
def bfpTakeFirst (ctl : SchedControl) (now : Nat) (p : BfpState) : Tid × BfpState :=
  match p.priv.readyQueue with
  | first :: _ =>
    (first, (bfpQueueRemove first p).updData first fun d => { d with lastStartTicks := now })
  | [] => (ctl.idle, p)

def schedBfpPickNext (now : Nat) (ctl : SchedControl) (p : BfpState) : Tid × BfpState :=
  let (next, p) := bfpTakeFirst ctl now (bfpRefreshAll ctl now p)
  (next, bfpProgramLocalTimer ctl now next p)

/-- `sched_bfp_sleep`; the timer stays as it is. -/
def schedBfpSleep (env : Env) (ctl : SchedControl) (t : Tid) (p : BfpState) : BfpState :=
  let p := if bfpIsCurrent ctl t then bfpAccountRuntime ctl env.now t p else p
  (bfpQueueRemove t p).updData t fun d => { d with lastStartTicks := 0 }

def schedBfpWake (env : Env) (ctl : SchedControl) (t : Tid) (p : BfpState) : BfpState :=
  let p := p.updData t fun d => { d.advanceInactivePeriod env.now with lastStartTicks := 0 }
  let p :=
    if (p.data t).remainingTicks ≠ 0 then bfpReadyInsert t false p else bfpDepletedInsert t p
  bfpProgramTimer env ctl ctl.currObj p

def schedBfp : AcrnScheduler BfpData BfpControl where
  pickNext := schedBfpPickNext
  sleep := some schedBfpSleep
  wake := some schedBfpWake
  prioritize := none
  timerHandler := bfpTimerHandler

/-- `sched_bfp_init`: empty queues and no timer deadline. -/
def BfpControl.init : BfpControl := ⟨[], [], 0⟩

end BeauOs.Sched
