/-
The borrowed virtual time policy: `core/sched/bvt.c`.

Every runnable thread stays in one run queue ordered by effective virtual time, the running
thread included: `pick_next` charges the running thread, moves it to its new place and
returns the head of the queue.  A one-shot timer is armed only if there is a second thread,
for the time at which the head is expected to catch up with it.

Virtual times are `int64_t`; they are kept as integers and wrapped to 64 bits where the code
adds to them.
-/
import BeauOs.Lib.Queue
import BeauOs.Sched.Framework

namespace BeauOs.Sched

def bvtMcuMs : Nat := 1

/-- `CONFIG_SCHED_BVT_CSA_MCU`, the context switch allowance. -/
def bvtCsaMcu : Nat := 3

def bvtVtRatioMax : Nat := 128 * 8 / 1

/-- `struct sched_bvt_data`; the weight is used for `vt_ratio` only. -/
structure BvtData where
  mcu : Nat
  vtRatio : Nat
  warpOn : Bool
  warpValue : Int
  warpLimit : Nat
  unwarpPeriod : Nat
  warpLeft : Nat
  lastUnwarpTsc : Nat
  avt : Int
  evt : Int
  residual : Nat
  startTsc : Nat
  deriving DecidableEq

structure BvtControl where
  runqueue : List Tid
  svt : Int
  deriving DecidableEq

abbrev BvtState := PolicyState BvtData BvtControl

namespace BvtData

variable (d : BvtData)

def updateEvt : BvtData :=
  { d with evt := if d.warpOn then wrapInt64 (d.avt - d.warpValue) else d.avt }

def canWarp (now : Nat) : Bool :=
  if d.warpValue > 0 then
    if d.unwarpPeriod ≠ 0 ∧ d.lastUnwarpTsc ≠ 0 then
      decide (sub64 now d.lastUnwarpTsc ≥ mul64 d.unwarpPeriod d.mcu)
    else true
  else false

/-- The part of `bvt_start_warp` that opens the window; requeueing is separate. -/
def startWarp : BvtData :=
  { d with
    warpOn := true
    warpLeft := if d.warpLimit ≠ 0 then d.warpLimit else 1 }.updateEvt

def updateWarpAfterCharge (chargedMcu now : Nat) : BvtData :=
  if !d.warpOn || decide (chargedMcu = 0) then d
  else if chargedMcu ≥ d.warpLeft then
    { d with warpOn := false, warpLeft := 0, lastUnwarpTsc := now }
  else { d with warpLeft := d.warpLeft - chargedMcu }

/-- The virtual ticks run since `start_tsc`, with the remainder of the last charge. -/
def virtualDelta (now : Nat) : Nat :=
  add64 (mul64 (now - d.startTsc) d.vtRatio) d.residual

/-- The units of mcu to charge at `now`. -/
def chargedMcu (now : Nat) : Nat :=
  if now > d.startTsc then d.virtualDelta now / d.mcu else 0

/-- `update_vt` without the requeueing. -/
def charge (now : Nat) : BvtData :=
  let delta := d.chargedMcu now
  let d := { d with
    residual := if now > d.startTsc then d.virtualDelta now % d.mcu else d.residual
    avt := wrapInt64 (d.avt + delta) }
  (d.updateWarpAfterCharge delta now).updateEvt

/-- The adjustment of `sched_bvt_wake` after a long sleep. -/
def adjustAvt (svt : Int) : BvtData :=
  { d with avt := if d.avt > wrapInt64 (svt - bvtCsaMcu) then d.avt else svt }

/-- `sched_bvt_init_data`; virtual times and the start time keep the values they had. -/
def init (old : BvtData) (khz weight : Nat) (warpValue : Int) (warpLimit unwarpPeriod : Nat) :
    BvtData :=
  { old with
    mcu := bvtMcuMs * usToTicks khz 1000
    warpValue := warpValue
    warpLimit := warpLimit
    unwarpPeriod := unwarpPeriod
    warpOn := false
    warpLeft := 0
    lastUnwarpTsc := 0
    vtRatio := bvtVtRatioMax / max 1 (min weight 128)
    residual := 0 }

end BvtData

/-! ### The run queue -/

def bvtIsInqueue (p : BvtState) (t : Tid) : Bool := t ∈ p.priv.runqueue

/-- `runqueue_add`: in front of the first later thread, at the tail if there is none. -/
def bvtRunqueueAdd (t : Tid) (p : BvtState) : BvtState :=
  let later := fun u => decide ((p.data u).evt > (p.data t).evt)
  if p.priv.runqueue.any later || !bvtIsInqueue p t then
    { p with priv := { p.priv with runqueue := Queue.insertBefore later t p.priv.runqueue } }
  else p

def bvtRunqueueRemove (t : Tid) (p : BvtState) : BvtState :=
  { p with priv := { p.priv with runqueue := p.priv.runqueue.erase t } }

/-- A queued thread whose key changed moves to its new place. -/
def bvtRequeue (t : Tid) (p : BvtState) : BvtState :=
  if bvtIsInqueue p t then bvtRunqueueAdd t (bvtRunqueueRemove t p) else p

def bvtStartWarp (now : Nat) (t : Tid) (p : BvtState) : BvtState :=
  if (p.data t).warpOn then p
  else if (p.data t).canWarp now then bvtRequeue t (p.updData t (·.startWarp))
  else p

def bvtUpdateVt (now : Nat) (t : Tid) (p : BvtState) : BvtState :=
  bvtRequeue t (p.updData t (·.charge now))

def bvtUpdateSvt (p : BvtState) : BvtState :=
  match p.priv.runqueue with
  | first :: _ => { p with priv := { p.priv with svt := (p.data first).avt } }
  | [] => p

/-! ### Hooks -/

/-- `sched_tick_handler`: nothing is charged and the timer is not armed again. -/
def bvtTickHandler (_now : Nat) (ctl : SchedControl) (p : BvtState) : BvtState × Bool :=
  (p, !ctl.isIdleThread ctl.currObj || !p.priv.runqueue.isEmpty)

/-- How long the head may run before it has caught up with the second thread. -/
def bvtRunCountdown (first second : BvtData) : Nat :=
  add64 (toWord64 (second.evt - first.evt) / first.vtRatio) bvtCsaMcu

/-- The timer of `sched_bvt_pick_next` for the first two threads of the queue. -/
def bvtArmTimer (ctl : SchedControl) (now : Nat) (runqueue : List Tid) (p : BvtState) : BvtState :=
  match runqueue with
  | first :: second :: _ =>
    let countdown := bvtRunCountdown (p.data first) (p.data second)
    let timeout := add64 now (mul64 countdown (bvtMcuMs * usToTicks ctl.tickrate 1000))
    if countdown ≠ uint64Max then { p with tickTimer := p.tickTimer.arm timeout } else p
  | _ => p

/-- The charge at the start of `sched_bvt_pick_next`. -/
def bvtChargeCurrent (now : Nat) (ctl : SchedControl) (p : BvtState) : BvtState :=
  if ctl.isIdleThread ctl.currObj then p else bvtUpdateVt now ctl.currObj p

/-- The head of the queue with the time it starts at, else idle. -/
def bvtTakeFirst (ctl : SchedControl) (now : Nat) (p : BvtState) : Tid × BvtState :=
  match p.priv.runqueue with
  | first :: rest =>
    (first, bvtArmTimer ctl now (first :: rest)
      (p.updData first fun d => { d with startTsc := now }))
  | [] => (ctl.idle, p)

/-- `sched_bvt_pick_next`; the selected thread stays in the queue. -/
def schedBvtPickNext (now : Nat) (ctl : SchedControl) (p : BvtState) : Tid × BvtState :=
  let p := bvtUpdateSvt (bvtChargeCurrent now ctl p)
  bvtTakeFirst ctl now { p with tickTimer := p.tickTimer.del }

def schedBvtSleep (_env : Env) (_ctl : SchedControl) (t : Tid) (p : BvtState) : BvtState :=
  bvtRunqueueRemove t p

/-- `sched_bvt_wake`; the timer stays as it is. -/
def schedBvtWake (env : Env) (_ctl : SchedControl) (t : Tid) (p : BvtState) : BvtState :=
  let p := p.updData t (·.adjustAvt p.priv.svt)
  let p := bvtStartWarp env.now t p
  bvtRunqueueAdd t (p.updData t (·.updateEvt))

def schedBvtPrioritize (now : Nat) (_ctl : SchedControl) (t : Tid) (p : BvtState) : BvtState :=
  bvtStartWarp now t p

def schedBvt : AcrnScheduler BvtData BvtControl where
  pickNext := schedBvtPickNext
  sleep := some schedBvtSleep
  wake := some schedBvtWake
  prioritize := some schedBvtPrioritize
  timerHandler := bvtTickHandler

/-- `sched_bvt_init`: an empty queue; the scheduler virtual time starts at zero. -/
def BvtControl.init : BvtControl := ⟨[], 0⟩

end BeauOs.Sched
