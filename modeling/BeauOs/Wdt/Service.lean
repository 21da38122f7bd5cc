/-
The watchdog service: its thread, and everyone who calls it (`core/vm_wdt.c`).

All entries are guarded by one lock, and a section under that lock is one step.  The watchdog
thread goes from VM to VM: it looks at the VM, and carries a recovery on or claims a new one.
Only the thread claims restarts, but kicks, the idle thread that reports a finished reset, resets
of the VM, suspends and resumes and observers of the state come in between any two of its steps
(`ThreadPc` and `SnapshotPc` are the places where it can be).

What the service learns from elsewhere is handed to each step in `WdtEnv` and may be anything.
The two timers only wake the thread, which may go on at any time here.
-/
import BeauOs.Wdt.Entry

namespace BeauOs.Wdt

open BeauOs.Pm

/-- What a step finds outside the watchdog. -/
structure WdtEnv where
  /-- `cpu_ticks()` -/
  now : Nat
  vmState : Nat → VmState
  isService : Nat → Bool
  view : Nat → VcpuView
  configPresent : Nat → Bool
  /-- what `vm_wdt_classify_locked` says of a stuck VM -/
  classify : WdtCause
  /-- what `swtdbg_capture_timeout` returns -/
  sequence : Nat
  /-- what `pause_vm_async` returns -/
  waitVcpus : BitVec 64
  /-- what `request_vm_wdt_restart` returns -/
  restartRet : Int
  /-- what `add_timer` returns -/
  addTimer : Int

/-- The static data of `core/vm_wdt.c`. -/
structure WdtTable where
  entry : Nat → WdtEntry
  suspendEpoch : Nat
  suspendTicks : Nat
  nextQuiesceGeneration : Nat
  pmSuspended : Bool

/-- What happens to the claim on a restart of a VM. -/
inductive RecoveryEvent
  | claimed
  | completed (success : Bool)
  /-- the VM has been powered off and its history is cleared -/
  | instanceEnded
  deriving DecidableEq

namespace WdtTable

def zero : WdtTable := ⟨fun _ => .zero, 0, 0, 0, false⟩

def set (w : WdtTable) (vmid : Nat) (e : WdtEntry) : WdtTable :=
  { w with entry := Function.update w.entry vmid e }

/-- The generation after this one; zero is skipped. -/
def nextGeneration (generation : Nat) : Nat :=
  if add64 generation 1 = 0 then 1 else add64 generation 1

def claimRestart (cfg : WdtConfig) (env : WdtEnv) (vmid : Nat) (cause : WdtCause) (w : WdtTable) :
    WdtTable × Bool :=
  if vmid ≥ configMaxVmNum ∨ !cfg.restartEnabled vmid then (w, false)
  else
    let e := (w.entry vmid).refreshVcpus cfg (env.view vmid) env.now
    if e.canClaimRestart cfg env.now then
      let generation := nextGeneration w.nextQuiesceGeneration
      ({ w.set vmid (e.startRecovery cause env.now generation) with
          nextQuiesceGeneration := generation }, true)
    else (w.set vmid e, false)

/-- `vm_wdt_kick`, with its status and whether it verified a restart. -/
def kick (cfg : WdtConfig) (env : WdtEnv) (vmid vcpuId token flags : Nat) (w : WdtTable) :
    WdtTable × Int × Bool :=
  if vmid ≥ configMaxVmNum ∨ vcpuId ≥ cfg.maxVcpusPerVm then (w, -eInval, false)
  else
    let (e, status, verified) :=
      (w.entry vmid).kick cfg (env.view vmid) vmid vcpuId env.now token flags
    (w.set vmid e, status, verified)

def reset (env : WdtEnv) (vmid : Nat) (w : WdtTable) : WdtTable :=
  if vmid ≥ configMaxVmNum then w
  else w.set vmid ((w.entry vmid).reset (decide (env.vmState vmid = .poweredOff)) env.now)

def restartComplete (vmid : Nat) (resetRet : Int) (w : WdtTable) : WdtTable :=
  if vmid ≥ configMaxVmNum then w else w.set vmid ((w.entry vmid).restartComplete resetRet)

/-! ### Suspend and resume -/

variable (cfg : WdtConfig) (env : WdtEnv)

def pmSuspend (epoch : Nat) (w : WdtTable) : WdtTable × Int :=
  if epoch = 0 then (w, -eInval)
  else if w.pmSuspended then (w, if w.suspendEpoch = epoch then 0 else -eBusy)
  else
    ({ w with
        suspendEpoch := epoch
        suspendTicks := env.now
        pmSuspended := true
        entry := fun vmid =>
          if vmid < cfg.maxVmId then (w.entry vmid).suspend cfg (env.view vmid) env.now epoch
          else w.entry vmid }, 0)

/-- The entries `vm_wdt_pm_resume` insists on. -/
def allSuspended (epoch : Nat) (w : WdtTable) : Bool :=
  (List.range cfg.maxVmId).all fun vmid =>
    (w.entry vmid).pmSuspended && decide ((w.entry vmid).suspendEpoch = epoch)

def pmResume (epoch : Nat) (w : WdtTable) : WdtTable × Int :=
  if epoch = 0 then (w, -eInval)
  else if !w.pmSuspended then (w, 0)
  else if w.suspendEpoch ≠ epoch then (w, -eInval)
  else if !w.allSuspended cfg epoch then (w, -eFault)
  else
    ({ w with
        suspendEpoch := 0
        suspendTicks := 0
        pmSuspended := false
        entry := fun vmid =>
          if vmid < cfg.maxVmId then
            (w.entry vmid).resume cfg env.now (elapsedTicks env.now w.suspendTicks)
          else w.entry vmid },
      if env.addTimer ≠ 0 then -eIo else 0)

def pmSuspendVm (vmid epoch : Nat) (w : WdtTable) : WdtTable × Int :=
  if vmid ≥ configMaxVmNum ∨ epoch = 0 then (w, -eInval)
  else if !cfg.isMonitored vmid then (w, 0)
  else if w.pmSuspended then (w, -eBusy)
  else if (w.entry vmid).pmSuspended then
    (w, if (w.entry vmid).suspendEpoch = epoch then 0 else -eBusy)
  else if (w.entry vmid).restartPending then (w, -eBusy)
  else (w.set vmid ((w.entry vmid).suspend cfg (env.view vmid) env.now epoch), 0)

def pmResumeVm (vmid epoch : Nat) (w : WdtTable) : WdtTable × Int :=
  if vmid ≥ configMaxVmNum ∨ epoch = 0 then (w, -eInval)
  else if !cfg.isMonitored vmid then (w, 0)
  else if !(w.entry vmid).pmSuspended then (w, 0)
  else if (w.entry vmid).suspendEpoch ≠ epoch then (w, -eInval)
  else
    (w.set vmid ((w.entry vmid).resume cfg env.now
      (elapsedTicks env.now (w.entry vmid).suspendTicks)), 0)

end WdtTable

/-! ### Snapshots -/

inductive WdtStatus
  | unused
  | offline
  | unknown
  | alive
  | stuck
  deriving DecidableEq, Repr

/-- The part of `struct vm_wdt_snapshot` that the watchdog thread reads. -/
structure WdtSnapshot where
  status : WdtStatus
  cause : WdtCause
  timeoutCount : Nat
  restartCount : Nat
  restartEnabled : Bool
  deriving DecidableEq

/-- A place in `vm_wdt_get_snapshot`. -/
inductive SnapshotPc
  | begin
  /-- there was no kick within the timeout; the clock has been read -/
  | unstarted (now : Nat)
  /-- the last kick is too old; the clock has been read -/
  | overdue (now : Nat)
  deriving DecidableEq

/-- A section of `vm_wdt_get_snapshot` either returns or goes on to another. -/
abbrev SnapshotStep := SnapshotPc ⊕ WdtSnapshot

namespace WdtEntry

variable (cfg : WdtConfig)

def snapshot (vmid : Nat) (e : WdtEntry) (status : WdtStatus) (cause : WdtCause) : WdtSnapshot :=
  ⟨status, cause, e.timeoutCount, e.restartCount, cfg.restartEnabled vmid⟩

/-- What the first section of `vm_wdt_get_snapshot` does to the entry. -/
def observe (env : WdtEnv) (vmid : Nat) (e : WdtEntry) : WdtEntry :=
  if env.vmState vmid = .running ∧ !e.pmSuspended ∧ e.perVcpuMode then
    let e := (e.syncExpectedVcpus cfg (env.view vmid) env.now).updateStalledVcpus cfg env.now
    e.recordTimeout (decide (e.stalledVcpuMask ≠ 0))
  else e

/-- The verdict of a suspended entry, and of one that is not stuck. -/
def calmSnapshot (vmid : Nat) (e : WdtEntry) : WdtSnapshot :=
  if e.isHeartbeatStarted then e.snapshot cfg vmid .alive .heartbeat
  else e.snapshot cfg vmid .unknown .none

/-- The first section of `vm_wdt_get_snapshot`, after the copy of the entry has been made. -/
def judge (env : WdtEnv) (vmid : Nat) (e : WdtEntry) : SnapshotStep :=
  if env.vmState vmid ≠ .running then
    .inr ⟨.offline, .none, 0, 0, cfg.restartEnabled vmid⟩
  else if e.perVcpuMode then
    if e.pmSuspended then .inr (e.calmSnapshot cfg vmid)
    else if e.stalledVcpuMask ≠ 0 then .inr (e.snapshot cfg vmid .stuck .guestVcpuStall)
    else .inr (e.calmSnapshot cfg vmid)
  else if e.pmSuspended then .inr (e.calmSnapshot cfg vmid)
  else if cfg.isTimeoutAge (e.heartbeatAgeTicks cfg env.now) then
    if e.isHeartbeatStarted then .inl (.overdue env.now)
    else if cfg.isMonitored vmid then .inl (.unstarted env.now)
    else .inr (e.calmSnapshot cfg vmid)
  else .inr (e.calmSnapshot cfg vmid)

/-- The section for a VM that did not kick at all, looked at again under the lock. -/
def observeUnstarted (vmid now : Nat) (e : WdtEntry) : WdtEntry × SnapshotStep :=
  let late := cfg.isTimeoutAge (e.heartbeatAgeTicks cfg now)
  let e := if !e.isHeartbeatStarted && late then e.recordTimeout true else e
  (e,
    if !e.isHeartbeatStarted then
      .inr (if cfg.isMonitored vmid && late then e.snapshot cfg vmid .stuck .timeout
        else e.snapshot cfg vmid .unknown .none)
    else if late then .inl (.overdue now)
    else .inr (e.snapshot cfg vmid .alive .heartbeat))

/-- The section for a VM whose last kick is too old, looked at again under the lock. -/
def observeOverdue (classify : WdtCause) (vmid now : Nat) (e : WdtEntry) :
    WdtEntry × SnapshotStep :=
  let late := cfg.isTimeoutAge (e.heartbeatAgeTicks cfg now)
  let e := if e.isHeartbeatStarted then e.recordTimeout late else e
  (e,
    if !e.isHeartbeatStarted then .inr (e.snapshot cfg vmid .unknown .none)
    else if !late then .inr (e.snapshot cfg vmid .alive .heartbeat)
    else .inr (e.snapshot cfg vmid .stuck (if classify = .none then .timeout else classify)))

end WdtEntry

variable (cfg : WdtConfig)

/-- One section of `vm_wdt_get_snapshot`. -/
def snapshotStep (env : WdtEnv) (vmid : Nat) (w : WdtTable) :
    SnapshotPc → WdtTable × SnapshotStep
  | .begin =>
    if !env.configPresent vmid then (w, .inr ⟨.unused, .none, 0, 0, false⟩)
    else
      let e := (w.entry vmid).observe cfg env vmid
      (w.set vmid e, e.judge cfg env vmid)
  | .unstarted now =>
    let (e, next) := (w.entry vmid).observeUnstarted cfg vmid now
    (w.set vmid e, next)
  | .overdue now =>
    let (e, next) := (w.entry vmid).observeOverdue cfg env.classify vmid now
    (w.set vmid e, next)

/-! ### The watchdog thread -/

/-- A place in the loop of `vm_wdt_thread_main`. -/
inductive ThreadPc
  | sleeping
  /-- `vm_wdt_check_timeouts`, at the head of its loop -/
  | scan (vmid : Nat)
  /-- `vm_wdt_flush_recovery_notices`, which takes at most so many more -/
  | flush (vmid left : Nat)
  | snapshot (vmid : Nat) (pc : SnapshotPc)
  /-- `vm_wdt_capture_pending_timeouts`, which takes at most so many more -/
  | capture (vmid : Nat) (snap : WdtSnapshot) (left : Nat)
  /-- before `vm_wdt_bind_captured_event` -/
  | bind (vmid : Nat) (snap : WdtSnapshot) (left timeoutCount sequence : Nat)
  /-- before `vm_wdt_recovery_pending` -/
  | choose (vmid : Nat) (snap : WdtSnapshot)
  /-- before `vm_wdt_claim_restart` -/
  | claim (vmid : Nat) (snap : WdtSnapshot)
  /-- before `vm_wdt_mark_restart_exhausted` -/
  | exhausted (vmid : Nat) (snap : WdtSnapshot)
  /-- `vm_wdt_process_recovery`, before it reads the state -/
  | process (vmid : Nat)
  | quiescing (vmid generation : Nat)
  /-- before `pause_vm_async` -/
  | pause (vmid generation : Nat)
  /-- before `vm_wdt_begin_reset` -/
  | beginReset (vmid : Nat)
  /-- before `request_vm_wdt_restart` -/
  | request (vmid : Nat)
  /-- before `vm_wdt_update_quiesce` -/
  | updateQuiesce (vmid : Nat) (waitVcpus : BitVec 64)
  /-- before `vm_wdt_claim_reset_completion` -/
  | resetting (vmid : Nat)
  /-- before `vm_wdt_start_verification` -/
  | verify (vmid : Nat)
  /-- before `vm_wdt_verify_timed_out` -/
  | verifying (vmid : Nat)
  /-- before `vm_wdt_complete_recovery`; the thread completes only recoveries that failed -/
  | complete (vmid : Nat)
  deriving DecidableEq

/-- The next VM, after which the thread sleeps. -/
def ThreadPc.next (vmid : Nat) : ThreadPc :=
  if vmid + 1 < cfg.maxVmId then .scan (vmid + 1) else .sleeping

/-- One step of the thread, with what happened to the claim on the VM it looks at. -/
def threadStep (env : WdtEnv) (w : WdtTable) :
    ThreadPc → WdtTable × ThreadPc × Option (Nat × RecoveryEvent)
  | .sleeping =>
    (w, if !w.pmSuspended ∧ 0 < cfg.maxVmId then .scan 0 else .sleeping, none)
  | .scan vmid =>
    (w, if (w.entry vmid).pmSuspended then .next cfg vmid else .flush vmid recoveryNoticeNum, none)
  | .flush vmid 0 => (w, .snapshot vmid .begin, none)
  | .flush vmid (left + 1) =>
    match (w.entry vmid).notice with
    | [] => (w, .snapshot vmid .begin, none)
    | _ :: rest => (w.set vmid { w.entry vmid with notice := rest }, .flush vmid left, none)
  | .snapshot vmid pc =>
    match snapshotStep cfg env vmid w pc with
    | (w, .inl pc) => (w, .snapshot vmid pc, none)
    | (w, .inr snap) => (w, .capture vmid snap pendingTimeoutNum, none)
  | .capture vmid snap 0 => (w, .choose vmid snap, none)
  | .capture vmid snap (left + 1) =>
    match (w.entry vmid).pending with
    | [] => (w, .choose vmid snap, none)
    | context :: rest =>
      (w.set vmid { w.entry vmid with pending := rest },
        .bind vmid snap left context.timeoutCount env.sequence, none)
  | .bind vmid snap left timeoutCount sequence =>
    let e := w.entry vmid
    (if sequence ≠ 0 ∧ e.timeoutActive ∧ e.timeoutCount = timeoutCount then
        w.set vmid { e with candidateEventSequence := sequence }
      else w, .capture vmid snap left, none)
  | .choose vmid snap =>
    (w,
      if (w.entry vmid).restartPending then .process vmid
      else if snap.status = .stuck then .claim vmid snap
      else .next cfg vmid, none)
  | .claim vmid snap =>
    let (w, claimed) := w.claimRestart cfg env vmid snap.cause
    if claimed then (w, .process vmid, some (vmid, .claimed))
    else (w, .exhausted vmid snap, none)
  | .exhausted vmid snap =>
    (if snap.restartEnabled ∧ snap.restartCount ≥ cfg.restartMax then
        w.set vmid { w.entry vmid with candidateEventSequence := 0 }
      else w, .next cfg vmid, none)
  | .process vmid =>
    (w,
      match (w.entry vmid).recoveryState with
      | .quiescing => .quiescing vmid (w.entry vmid).recoveryQuiesceGeneration
      | .resetting => .resetting vmid
      | .verifying => .verifying vmid
      | .idle => .next cfg vmid, none)
  | .quiescing vmid generation =>
    (w,
      if env.vmState vmid ≠ .running ∨ env.isService vmid then .complete vmid
      else .pause vmid generation, none)
  | .pause vmid _ =>
    (w, if env.waitVcpus = 0 then .beginReset vmid else .updateQuiesce vmid env.waitVcpus, none)
  | .beginReset vmid =>
    let (e, begun) := (w.entry vmid).beginReset env.now
    (w.set vmid e, if begun then .request vmid else .next cfg vmid, none)
  | .request vmid => (w, if env.restartRet ≠ 0 then .complete vmid else .next cfg vmid, none)
  | .updateQuiesce vmid waitVcpus =>
    let (e, timedOut) := (w.entry vmid).updateQuiesce cfg env.now waitVcpus
    (w.set vmid e, if timedOut then .complete vmid else .next cfg vmid, none)
  | .resetting vmid =>
    (w,
      match (w.entry vmid).claimResetCompletion with
      | some ret => if ret ≠ 0 then .complete vmid else .verify vmid
      | none => .next cfg vmid, none)
  | .verify vmid =>
    let (e, verified) := (w.entry vmid).startVerification env.now
    (w.set vmid e, .next cfg vmid, if verified then some (vmid, .completed true) else none)
  | .verifying vmid =>
    (w, if (w.entry vmid).verifyTimedOut cfg env.now then .complete vmid else .next cfg vmid, none)
  | .complete vmid =>
    let (e, completed) := (w.entry vmid).completeRecovery false
    (w.set vmid e, .next cfg vmid, if completed then some (vmid, .completed false) else none)

/-! ### Everybody together -/

/-- The service, its thread, and the observers that are in `vm_wdt_get_snapshot`. -/
structure WdtMachine where
  wdt : WdtTable
  thread : ThreadPc
  reader : Nat → Option (Nat × SnapshotPc)

/-- A step of the system. -/
inductive WdtCall
  | thread
  /-- an observer enters `vm_wdt_get_snapshot` -/
  | getSnapshot (reader vmid : Nat)
  /-- an observer goes on -/
  | reader (reader : Nat)
  | kick (vmid vcpuId token flags : Nat)
  | reset (vmid : Nat)
  | restartComplete (vmid : Nat) (resetRet : Int)
  | pmSuspend (epoch : Nat)
  | pmResume (epoch : Nat)
  | pmSuspendVm (vmid epoch : Nat)
  | pmResumeVm (vmid epoch : Nat)
  deriving DecidableEq

namespace WdtMachine

def boot : WdtMachine := ⟨.zero, .sleeping, fun _ => none⟩

/-- One step, with what happened to a claim. -/
def run (m : WdtMachine) (call : WdtEnv × WdtCall) : WdtMachine × Option (Nat × RecoveryEvent) :=
  match call.2 with
  | .thread =>
    let (w, pc, event) := threadStep cfg call.1 m.wdt m.thread
    ({ m with wdt := w, thread := pc }, event)
  | .getSnapshot r vmid =>
    -- `vm_wdt_get_snapshot` refuses other VMs
    (if vmid < configMaxVmNum ∧ m.reader r = none then
        { m with reader := Function.update m.reader r (some (vmid, .begin)) }
      else m, none)
  | .reader r =>
    match m.reader r with
    | none => (m, none)
    | some (vmid, pc) =>
      match snapshotStep cfg call.1 vmid m.wdt pc with
      | (w, .inl pc) =>
        ({ m with wdt := w, reader := Function.update m.reader r (some (vmid, pc)) }, none)
      | (w, .inr _) => ({ m with wdt := w, reader := Function.update m.reader r none }, none)
  | .kick vmid vcpuId token flags =>
    let (w, _, verified) := m.wdt.kick cfg call.1 vmid vcpuId token flags
    ({ m with wdt := w }, if verified then some (vmid, .completed true) else none)
  | .reset vmid =>
    ({ m with wdt := m.wdt.reset call.1 vmid },
      if vmid < configMaxVmNum ∧ call.1.vmState vmid = .poweredOff then
        some (vmid, .instanceEnded)
      else none)
  | .restartComplete vmid resetRet => ({ m with wdt := m.wdt.restartComplete vmid resetRet }, none)
  | .pmSuspend epoch => ({ m with wdt := (m.wdt.pmSuspend cfg call.1 epoch).1 }, none)
  | .pmResume epoch => ({ m with wdt := (m.wdt.pmResume cfg call.1 epoch).1 }, none)
  | .pmSuspendVm vmid epoch => ({ m with wdt := (m.wdt.pmSuspendVm cfg call.1 vmid epoch).1 }, none)
  | .pmResumeVm vmid epoch => ({ m with wdt := (m.wdt.pmResumeVm cfg call.1 vmid epoch).1 }, none)

def step (m : WdtMachine) (call : WdtEnv × WdtCall) : WdtMachine :=
  (m.run cfg call).1

end WdtMachine

end BeauOs.Wdt
