/-
The ARINC 653 policy: `core/sched/arinc653.c`.

A major frame is cut into windows, each owned by one vCPU; what is left at the end of the
frame is idle time.  A window is never given to anybody else: if its owner is missing or
cannot run, the pCPU idles until the window ends.  The policy keeps no run queue, so there are
no sleep, wake and priority hooks; `pick_next` advances the frame to the current time and
looks at the owner of the window it finds.

The frame is set with `sched_arinc653_set_schedule`, which is a step of its own here
(`ArincOp.setSchedule`).  `entry_count` is the length of the list of entries.
-/
import BeauOs.Sched.Framework

namespace BeauOs.Sched

def arincMaxEntries : Nat := 64

structure ArincEntry where
  vmId : Nat
  vcpuId : Nat
  runtimeTicks : Nat
  obj : Option Tid
  deriving DecidableEq

/-- `struct sched_arinc653_control`; the window timer is the policy's timer. -/
structure ArincControl where
  entries : List ArincEntry
  threadList : List Tid
  majorFrameTicks : Nat
  frameStartTicks : Nat
  nextMajorFrameTicks : Nat
  nextSwitchTicks : Nat
  timerDeadlineTicks : Nat
  schedIndex : Nat
  suspended : Bool
  deriving DecidableEq

/-- `struct sched_arinc653_thread_data` only links the thread into `thread_list`. -/
abbrev ArincState := PolicyState Unit ArincControl

structure ArincEntryConfig where
  vmId : Nat
  vcpuId : Nat
  runtimeUs : Nat
  deriving DecidableEq

structure ArincConfig where
  majorFrameUs : Nat
  entries : List ArincEntryConfig
  deriving DecidableEq

/-! ### The frame -/

def arincFindThread (ctl : SchedControl) (threads : List Tid) (vmId vcpuId : Nat) : Option Tid :=
  threads.find? fun t => decide ((ctl.thread t).vmId = vmId) && decide ((ctl.thread t).vcpuId = vcpuId)

namespace ArincControl

def resolveEntries (ctl : SchedControl) (c : ArincControl) : ArincControl :=
  { c with entries := c.entries.map fun e =>
      { e with obj := arincFindThread ctl c.threadList e.vmId e.vcpuId } }

variable (c : ArincControl)

/-- `entries[i].runtime_ticks`; an entry past the last one is all zero. -/
def runtimeAt (i : Nat) : Nat :=
  match c.entries[i]? with
  | some e => e.runtimeTicks
  | none => 0

def startFrame (now : Nat) : ArincControl × Bool :=
  if c.entries.length ≠ 0 ∧ c.majorFrameTicks ≠ 0 ∧ c.majorFrameTicks ≤ uint64Max - now then
    ({ c with
        frameStartTicks := now
        nextMajorFrameTicks := now + c.majorFrameTicks
        schedIndex := 0
        nextSwitchTicks := add64 now (c.runtimeAt 0) }, true)
  else (c, false)

/-- The part of `arinc653_advance` that finds the major frame of `now`. -/
def seekFrame (now : Nat) : ArincControl × Bool :=
  if c.nextMajorFrameTicks = 0 ∨ now < c.frameStartTicks then c.startFrame now
  else if now ≥ c.nextMajorFrameTicks then
    let remainder := (now - c.nextMajorFrameTicks) % c.majorFrameTicks
    let c := { c with frameStartTicks := now - remainder }
    if c.majorFrameTicks ≤ uint64Max - c.frameStartTicks then
      ({ c with
          nextMajorFrameTicks := c.frameStartTicks + c.majorFrameTicks
          schedIndex := 0
          nextSwitchTicks := add64 c.frameStartTicks (c.runtimeAt 0) }, true)
    else (c, false)
  else (c, true)

/-- The loop of `arinc653_advance` over the windows that have ended. -/
def skipWindows (now : Nat) : Nat → ArincControl → ArincControl
  | 0, c => c
  | steps + 1, c =>
    if c.schedIndex < c.entries.length ∧ now ≥ c.nextSwitchTicks then
      let index := c.schedIndex + 1
      skipWindows now steps
        { c with
          schedIndex := index
          nextSwitchTicks :=
            if index < c.entries.length then add64 c.nextSwitchTicks (c.runtimeAt index)
            else c.nextSwitchTicks }
    else c

/-- The end of the window or idle tail the frame is in. -/
def windowEnd : Nat :=
  if c.schedIndex < c.entries.length then c.nextSwitchTicks else c.nextMajorFrameTicks

/-- `arinc653_advance`: the new state, the deadline written back and the result. -/
def advance (now : Nat) : ArincControl × Nat × Bool :=
  if c.entries.length = 0 ∨ c.majorFrameTicks = 0 then (c, 0, false)
  else
    let (c, valid) := c.seekFrame now
    if valid then
      let c := skipWindows now arincMaxEntries c
      (c, c.windowEnd, decide (c.windowEnd > now))
    else (c, 0, false)

end ArincControl

/-! ### Hooks -/

def arincTimerHandler (_now : Nat) (_ctl : SchedControl) (p : ArincState) : ArincState × Bool :=
  ({ p with priv := { p.priv with timerDeadlineTicks := 0 } }, true)

/-- `arinc653_program_local_timer`; arming succeeds, since the deadline is not zero there. -/
def arincProgramLocalTimer (deadline : Nat) (p : ArincState) : ArincState :=
  if deadline = p.priv.timerDeadlineTicks ∧ p.tickTimer.started = true then p
  else
    let timer := if p.tickTimer.started then p.tickTimer.del else p.tickTimer
    { p with
      priv := { p.priv with timerDeadlineTicks := deadline }
      tickTimer := if deadline ≠ 0 then timer.arm deadline else timer }

/-- The test `sched_arinc653_pick_next` makes of a window's owner. -/
def arincMayRun (ctl : SchedControl) (t : Tid) : Bool :=
  let obj := ctl.thread t
  obj.isVcpu && decide (obj.pcpuId = ctl.pcpuId) && !obj.beBlocking && obj.isRunnableOrRunning

/-- The owner of the window the frame is in, if it may run, else idle. -/
def arincCandidate (ctl : SchedControl) (c : ArincControl) : Tid :=
  match c.entries[c.schedIndex]? with
  | some { obj := some t, .. } => if arincMayRun ctl t then t else ctl.idle
  | _ => ctl.idle

def schedArincPickNext (now : Nat) (ctl : SchedControl) (p : ArincState) : Tid × ArincState :=
  if p.priv.suspended then (ctl.idle, arincProgramLocalTimer 0 p)
  else
    let (c, deadline, valid) := p.priv.advance now
    (if valid then arincCandidate ctl c else ctl.idle,
      arincProgramLocalTimer deadline { p with priv := c })

def schedArinc653 : AcrnScheduler Unit ArincControl where
  pickNext := schedArincPickNext
  sleep := none
  wake := none
  prioritize := none
  timerHandler := arincTimerHandler

/-! ### Setting the schedule -/

/-- The checks of one entry in `arinc653_validate_config`; `maxVcpus` is `MAX_VCPUS_PER_VM`. -/
def ArincEntryConfig.valid (khz maxVcpus : Nat) (e : ArincEntryConfig) : Bool :=
  decide (e.runtimeUs ≠ 0) && decide (usToTicks khz e.runtimeUs ≠ 0) &&
    decide (e.vmId < configMaxVmNum) && decide (e.vcpuId < maxVcpus)

/-- The entry loop of `arinc653_validate_config`. -/
def arincValidateEntries (khz maxVcpus majorFrameUs : Nat) : List ArincEntryConfig → Nat → Bool
  | [], _ => true
  | e :: rest, total =>
    e.valid khz maxVcpus && decide (total + e.runtimeUs ≤ majorFrameUs) &&
      arincValidateEntries khz maxVcpus majorFrameUs rest (total + e.runtimeUs)

def arincValidateConfig (khz maxVcpus : Nat) (config : ArincConfig) : Bool :=
  decide (config.majorFrameUs ≠ 0) && decide (config.entries.length ≠ 0) &&
    decide (config.entries.length ≤ arincMaxEntries) &&
    decide (usToTicks khz config.majorFrameUs ≠ 0) &&
    arincValidateEntries khz maxVcpus config.majorFrameUs config.entries 0

/-- An entry before its owner is looked up. -/
def ArincEntry.ofConfig (khz : Nat) (e : ArincEntryConfig) : ArincEntry where
  vmId := e.vmId
  vcpuId := e.vcpuId
  runtimeTicks := usToTicks khz e.runtimeUs
  obj := none

/-- `sched_arinc653_set_schedule` on a pCPU that runs the policy; true stands for 0. -/
def schedArincSetSchedule (maxVcpus now : Nat) (config : ArincConfig) (s : Pcpu Unit ArincControl) :
    Pcpu Unit ArincControl × Bool :=
  let khz := s.ctl.tickrate
  let majorFrameTicks := usToTicks khz config.majorFrameUs
  if !arincValidateConfig khz maxVcpus config then (s, false)
  else if majorFrameTicks > uint64Max - now then (s, false)
  else
    let c := { s.pol.priv with
      majorFrameTicks := majorFrameTicks
      entries := config.entries.map (ArincEntry.ofConfig khz) }
    let (c, started) := (c.resolveEntries s.ctl).startFrame now
    let s := { s with pol := { s.pol with priv := c } }
    if started then ({ s with ctl := s.ctl.makeRescheduleRequest }, true) else (s, false)

inductive ArincOp
  | call (op : Op)
  | setSchedule (config : ArincConfig)
  deriving DecidableEq

/-- Calls into the scheduler are checked as under every policy. -/
def ArincOp.Valid (ctl : SchedControl) : ArincOp → Prop
  | .call op => op.Valid ctl
  | .setSchedule _ => True

instance (ctl : SchedControl) : (op : ArincOp) → Decidable (op.Valid ctl)
  | .call op => inferInstanceAs (Decidable (op.Valid ctl))
  | .setSchedule _ => isTrue trivial

def arincStep (maxVcpus : Nat) (s : Pcpu Unit ArincControl) (call : Env × ArincOp) :
    Pcpu Unit ArincControl :=
  match call.2 with
  | .call op => step schedArinc653 s (call.1, op)
  | .setSchedule config => (schedArincSetSchedule maxVcpus call.1.now config s).1

/-- `sched_arinc653_init`, followed by `sched_arinc653_init_data` for the vCPUs in `threads`. -/
def ArincControl.init (threads : List Tid) : ArincControl where
  entries := []
  threadList := threads
  majorFrameTicks := 0
  frameStartTicks := 0
  nextMajorFrameTicks := 0
  nextSwitchTicks := 0
  timerDeadlineTicks := 0
  schedIndex := 0
  suspended := false

end BeauOs.Sched
