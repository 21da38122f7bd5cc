/-
The watchdog of one VM: `struct vm_wdt_entry` of `core/vm_wdt.c`.

A guest proves that it is alive by kicks, either for the whole VM or for each of its vCPUs.
The age of a deadline is the time since its last kick, or since its start if there was none,
and it has timed out once its age is greater than the timeout.  While a VM is suspended its
deadlines are kept as the time that remained, and become times again when it is resumed.

The clock is read before the lock is taken, so the time a section gets may be earlier than a
time another pCPU has stored in the meantime; an age is never negative.  The evidence that is
only shown (samples of interrupts, the console, virtio queues and the daemon slot) is left out.
-/
import BeauOs.Pm.Transaction

namespace BeauOs.Wdt

open BeauOs.Pm

/-! ### Configuration and data -/

/-- `CONFIG_VM_WDT_*`, with the times in ticks. -/
structure WdtConfig where
  monitorVmNum : Nat
  restartVmMask : BitVec 64
  restartMax : Nat
  /-- `CONFIG_VM_WDT_TIMEOUT_MS` -/
  timeoutTicks : Nat
  /-- `CONFIG_VM_WDT_RESTART_QUIESCE_TIMEOUT_MS` -/
  quiesceTimeoutTicks : Nat
  maxVcpusPerVm : Nat
  restartMax_le : restartMax ≤ uint64Max
  timeoutTicks_le : timeoutTicks ≤ uint64Max
  maxVcpusPerVm_le : maxVcpusPerVm ≤ 64

namespace WdtConfig

variable (cfg : WdtConfig)

/-- `max_vm_id` of the loops over all monitored VMs. -/
def maxVmId : Nat :=
  if cfg.monitorVmNum < configMaxVmNum then cfg.monitorVmNum else configMaxVmNum

def isMonitored (vmid : Nat) : Bool := decide (vmid < cfg.maxVmId)

def restartEnabled (vmid : Nat) : Bool :=
  decide (vmid < 64) && cfg.isMonitored vmid && bitmapTest vmid cfg.restartVmMask

def isTimeoutAge (ageTicks : Nat) : Bool := decide (ageTicks > cfg.timeoutTicks)

/-- What is left of a deadline of the given age; an expired one has nothing left. -/
def remainingTicks (ageTicks : Nat) : Nat :=
  if ageTicks < cfg.timeoutTicks then cfg.timeoutTicks - ageTicks else 0

/-- The age a deadline gets back; if nothing was left it is one tick over the timeout. -/
def restoredAge (remaining : Nat) : Nat :=
  if remaining = 0 then add64 cfg.timeoutTicks 1 else cfg.timeoutTicks - remaining

end WdtConfig

/-- The time at which a deadline of the given age was kicked, not before zero. -/
def heartbeatBase (now ageTicks : Nat) : Nat := if now > ageTicks then now - ageTicks else 0

inductive RecoveryState
  | idle
  | quiescing
  | resetting
  | verifying
  deriving DecidableEq, Repr

inductive WdtCause
  | none
  | heartbeat
  | timeout
  | vcpuStall
  | irqStorm
  | consoleStuck
  | virtioStuck
  | guestVcpuStall
  deriving DecidableEq, Repr

inductive TimeoutKind
  | firstKick
  | runtime
  deriving DecidableEq, Repr

/-- `enum swtdbg_recovery_result` of the notices a kick leaves. -/
inductive RecoveryResult
  | lateKick
  | verified
  deriving DecidableEq, Repr

structure VcpuEntry where
  startTsc : Nat
  lastKickTsc : Nat
  lastToken : Nat
  remainingTicks : Nat
  deriving DecidableEq

def VcpuEntry.zero : VcpuEntry := ⟨0, 0, 0, 0⟩

/-- `struct vm_wdt_pending_timeout`, without what is only shown. -/
structure PendingTimeout where
  kind : TimeoutKind
  cause : WdtCause
  timeoutCount : Nat
  deriving DecidableEq

structure RecoveryNotice where
  sequence : Nat
  result : RecoveryResult
  deriving DecidableEq

/-- `struct vm_wdt_entry`; the two rings are lists, the oldest entry first. -/
structure WdtEntry where
  startTsc : Nat
  lastKickTsc : Nat
  timeoutCount : Nat
  lastToken : Nat
  restartCount : Nat
  restartFailCount : Nat
  recoveryState : RecoveryState
  recoveryCause : WdtCause
  recoveryStartTsc : Nat
  recoveryWaitVcpus : BitVec 64
  recoveryQuiesceGeneration : Nat
  resetRet : Int
  candidateEventSequence : Nat
  recoveryEventSequence : Nat
  pending : List PendingTimeout
  notice : List RecoveryNotice
  remainingTicks : Nat
  suspendEpoch : Nat
  suspendTicks : Nat
  expectedVcpuMask : BitVec 64
  startedVcpuMask : BitVec 64
  stalledVcpuMask : BitVec 64
  vcpu : Nat → VcpuEntry
  timeoutActive : Bool
  restartPending : Bool
  resetComplete : Bool
  pmSuspended : Bool
  heartbeatStarted : Bool
  perVcpuMode : Bool

/-- The entry as the kernel image has it. -/
def WdtEntry.zero : WdtEntry where
  startTsc := 0
  lastKickTsc := 0
  timeoutCount := 0
  lastToken := 0
  restartCount := 0
  restartFailCount := 0
  recoveryState := .idle
  recoveryCause := .none
  recoveryStartTsc := 0
  recoveryWaitVcpus := 0
  recoveryQuiesceGeneration := 0
  resetRet := 0
  candidateEventSequence := 0
  recoveryEventSequence := 0
  pending := []
  notice := []
  remainingTicks := 0
  suspendEpoch := 0
  suspendTicks := 0
  expectedVcpuMask := 0
  startedVcpuMask := 0
  stalledVcpuMask := 0
  vcpu := fun _ => .zero
  timeoutActive := false
  restartPending := false
  resetComplete := false
  pmSuspended := false
  heartbeatStarted := false
  perVcpuMode := false

/-- Append to a ring of the given size; a full ring loses its oldest entry. -/
def ringPush {α : Type} (size : Nat) (x : α) (ring : List α) : List α :=
  (if ring.length = size then ring.drop 1 else ring) ++ [x]

def pendingTimeoutNum : Nat := 4

def recoveryNoticeNum : Nat := 4

/-! ### Ages -/

def elapsedTicks (now since : Nat) : Nat := if now ≥ since then now - since else 0

namespace WdtEntry

/-- The time the deadline of a vCPU counts from. -/
def vcpuSince (e : WdtEntry) (vcpuId : Nat) : Nat :=
  if bitmapTest vcpuId e.startedVcpuMask then (e.vcpu vcpuId).lastKickTsc
  else (e.vcpu vcpuId).startTsc

def vcpuAgeTicks (now : Nat) (e : WdtEntry) (vcpuId : Nat) : Nat :=
  elapsedTicks now (e.vcpuSince vcpuId)

def perVcpuAgeTicks (cfg : WdtConfig) (now : Nat) (e : WdtEntry) : Nat :=
  (List.range cfg.maxVcpusPerVm).foldl
    (fun maxAge vcpuId =>
      if bitmapTest vcpuId e.expectedVcpuMask ∧ e.vcpuAgeTicks now vcpuId > maxAge then
        e.vcpuAgeTicks now vcpuId
      else maxAge) 0

/-- The time the deadline of the VM counts from. -/
def vmSince (e : WdtEntry) : Nat := if !e.heartbeatStarted then e.startTsc else e.lastKickTsc

def heartbeatAgeTicks (cfg : WdtConfig) (now : Nat) (e : WdtEntry) : Nat :=
  if e.perVcpuMode then e.perVcpuAgeTicks cfg now else elapsedTicks now e.vmSince

def isHeartbeatStarted (e : WdtEntry) : Bool :=
  if e.perVcpuMode then
    decide (e.expectedVcpuMask ≠ 0) &&
      decide (e.startedVcpuMask &&& e.expectedVcpuMask = e.expectedVcpuMask)
  else e.heartbeatStarted

/-! ### The vCPUs of an entry -/

def clearVcpu (e : WdtEntry) (vcpuId : Nat) : WdtEntry :=
  { e with
    expectedVcpuMask := bitmapClear vcpuId e.expectedVcpuMask
    startedVcpuMask := bitmapClear vcpuId e.startedVcpuMask
    stalledVcpuMask := bitmapClear vcpuId e.stalledVcpuMask
    vcpu := Function.update e.vcpu vcpuId .zero }

/-- A deadline that starts now. -/
def expectVcpu (now : Nat) (e : WdtEntry) (vcpuId : Nat) : WdtEntry :=
  { e with
    expectedVcpuMask := bitmapSet vcpuId e.expectedVcpuMask
    vcpu := Function.update e.vcpu vcpuId { e.vcpu vcpuId with startTsc := now } }

end WdtEntry

/-- The vCPUs of a VM as the watchdog sees them. -/
structure VcpuView where
  /-- `vm->hw.created_vcpus` -/
  created : Nat
  state : Nat → VcpuState

namespace WdtEntry

variable (cfg : WdtConfig) (view : VcpuView)

/-- `running_mask`: a paused vCPU keeps its deadline, but gets no new one. -/
def runningVcpus (e : WdtEntry) : BitVec 64 :=
  bitmapOf cfg.maxVcpusPerVm fun vcpuId =>
    decide (vcpuId < view.created) &&
      (decide (view.state vcpuId = .running) ||
        decide (view.state vcpuId = .paused) && bitmapTest vcpuId e.expectedVcpuMask)

/-- `vm_wdt_sync_expected_vcpus_locked`, one vCPU. -/
def syncVcpu (runningMask : BitVec 64) (now : Nat) (e : WdtEntry) (vcpuId : Nat) : WdtEntry :=
  if bitmapTest vcpuId e.expectedVcpuMask && !bitmapTest vcpuId runningMask then e.clearVcpu vcpuId
  else if !bitmapTest vcpuId e.expectedVcpuMask && bitmapTest vcpuId runningMask then
    e.expectVcpu now vcpuId
  else e

def syncExpectedVcpus (now : Nat) (e : WdtEntry) : WdtEntry :=
  if !e.perVcpuMode then e
  else (List.range cfg.maxVcpusPerVm).foldl (syncVcpu (e.runningVcpus cfg view) now) e

def updateStalledVcpus (now : Nat) (e : WdtEntry) : WdtEntry :=
  { e with
    stalledVcpuMask := bitmapOf cfg.maxVcpusPerVm fun vcpuId =>
      bitmapTest vcpuId e.expectedVcpuMask && cfg.isTimeoutAge (e.vcpuAgeTicks now vcpuId) }

def suspendVcpuDeadlines (now : Nat) (e : WdtEntry) : WdtEntry :=
  if !e.perVcpuMode then e
  else
    { e with
      vcpu := fun vcpuId =>
        if vcpuId < cfg.maxVcpusPerVm ∧ bitmapTest vcpuId e.expectedVcpuMask then
          { e.vcpu vcpuId with remainingTicks := cfg.remainingTicks (e.vcpuAgeTicks now vcpuId) }
        else e.vcpu vcpuId }

def resumeVcpuDeadlines (now : Nat) (e : WdtEntry) : WdtEntry :=
  if !e.perVcpuMode then e
  else
    { e with
      vcpu := fun vcpuId =>
        if vcpuId < cfg.maxVcpusPerVm ∧ bitmapTest vcpuId e.expectedVcpuMask then
          let base := heartbeatBase now (cfg.restoredAge (e.vcpu vcpuId).remainingTicks)
          if bitmapTest vcpuId e.startedVcpuMask then
            { e.vcpu vcpuId with lastKickTsc := base, remainingTicks := 0 }
          else { e.vcpu vcpuId with startTsc := base, remainingTicks := 0 }
        else e.vcpu vcpuId }

/-! ### Timeouts -/

def queueTimeout (e : WdtEntry) : WdtEntry :=
  { e with
    pending := ringPush pendingTimeoutNum
      ⟨if !e.isHeartbeatStarted then .firstKick else .runtime,
        if e.perVcpuMode then .guestVcpuStall else .timeout, e.timeoutCount⟩ e.pending }

/-- `vm_wdt_record_timeout_locked`: a timeout counts once until it is over. -/
def recordTimeout (timedOut : Bool) (e : WdtEntry) : WdtEntry :=
  if timedOut then
    if e.timeoutActive then e
    else
      { e with
        timeoutCount := add64 e.timeoutCount 1
        timeoutActive := true }.queueTimeout
  else { e with timeoutActive := false }

def queueRecoveryNotice (sequence : Nat) (result : RecoveryResult) (e : WdtEntry) : WdtEntry :=
  if sequence = 0 then e
  else { e with notice := ringPush recoveryNoticeNum ⟨sequence, result⟩ e.notice }

/-! ### Recovery -/

/-- The fields that every completed recovery clears. -/
def clearRecovery (e : WdtEntry) : WdtEntry :=
  { e with
    restartPending := false
    recoveryState := .idle
    recoveryCause := .none
    recoveryStartTsc := 0
    recoveryWaitVcpus := 0
    recoveryQuiesceGeneration := 0
    resetRet := 0
    recoveryEventSequence := 0
    resetComplete := false
    restartCount := add64 e.restartCount 1 }

/-- `vm_wdt_complete_recovery`; whether there was a recovery to complete. -/
def completeRecovery (success : Bool) (e : WdtEntry) : WdtEntry × Bool :=
  if e.restartPending then
    ({ e.clearRecovery with
        restartFailCount :=
          if success then e.restartFailCount else add64 e.restartFailCount 1 }, true)
  else (e, false)

/-- The test of `vm_wdt_claim_restart`. -/
def canClaimRestart (now : Nat) (e : WdtEntry) : Bool :=
  !e.restartPending && decide (e.restartCount < cfg.restartMax) &&
    cfg.isTimeoutAge (e.heartbeatAgeTicks cfg now) &&
    (!e.perVcpuMode || decide (e.stalledVcpuMask ≠ 0))

/-- What `vm_wdt_claim_restart` brings up to date before its test. -/
def refreshVcpus (now : Nat) (e : WdtEntry) : WdtEntry :=
  let e := e.syncExpectedVcpus cfg view now
  if e.perVcpuMode then e.updateStalledVcpus cfg now else e

/-- The recovery `vm_wdt_claim_restart` starts. -/
def startRecovery (cause : WdtCause) (now generation : Nat) (e : WdtEntry) : WdtEntry :=
  { e with
    restartPending := true
    recoveryState := .quiescing
    recoveryCause := cause
    recoveryStartTsc := now
    recoveryWaitVcpus := 0
    recoveryQuiesceGeneration := generation
    resetRet := 0
    recoveryEventSequence := e.candidateEventSequence
    candidateEventSequence := 0
    resetComplete := false }

def recoveryTimedOut (now timeoutTicks : Nat) (e : WdtEntry) : Bool :=
  decide (elapsedTicks now e.recoveryStartTsc > timeoutTicks)

/-- `vm_wdt_update_quiesce`; whether the quiesce has timed out. -/
def updateQuiesce (now : Nat) (waitVcpus : BitVec 64) (e : WdtEntry) : WdtEntry × Bool :=
  if e.restartPending ∧ e.recoveryState = .quiescing then
    ({ e with recoveryWaitVcpus := waitVcpus },
      decide (waitVcpus ≠ 0) && e.recoveryTimedOut now cfg.quiesceTimeoutTicks)
  else (e, false)

def beginReset (now : Nat) (e : WdtEntry) : WdtEntry × Bool :=
  if e.restartPending ∧ e.recoveryState = .quiescing then
    ({ e with
        recoveryState := .resetting
        recoveryStartTsc := now
        recoveryWaitVcpus := 0
        resetRet := 0
        resetComplete := false }, true)
  else (e, false)

/-- `vm_wdt_restart_complete`, which the idle thread calls when the reset is over. -/
def restartComplete (resetRet : Int) (e : WdtEntry) : WdtEntry :=
  if e.restartPending ∧ e.recoveryState = .resetting ∧ !e.resetComplete then
    { e with resetRet := resetRet, resetComplete := true }
  else e

def claimResetCompletion (e : WdtEntry) : Option Int :=
  if e.restartPending ∧ e.recoveryState = .resetting ∧ e.resetComplete then some e.resetRet
  else none

/-- The heartbeat that verifies a restart. -/
def isVerified (e : WdtEntry) : Bool :=
  e.isHeartbeatStarted && (!e.perVcpuMode || decide (e.stalledVcpuMask = 0))

/-- `vm_wdt_start_verification`; whether the restart is verified already. -/
def startVerification (now : Nat) (e : WdtEntry) : WdtEntry × Bool :=
  if e.restartPending ∧ e.recoveryState = .resetting then
    if e.isVerified then (e.clearRecovery, true)
    else
      ({ e with
          resetComplete := false
          resetRet := 0
          recoveryState := .verifying
          recoveryStartTsc := now
          recoveryWaitVcpus := 0 }, false)
  else (e, false)

def verifyTimedOut (now : Nat) (e : WdtEntry) : Bool :=
  decide (e.restartPending ∧ e.recoveryState = .verifying) &&
    e.recoveryTimedOut now cfg.timeoutTicks

/-! ### Kicks -/

/-- `vm_wdt_kick` of a VM with one deadline, with the sequence of the event it is late for. -/
def kickVm (vmid now token : Nat) (e : WdtEntry) : WdtEntry × Nat :=
  let e :=
    if e.isHeartbeatStarted || cfg.isMonitored vmid then
      e.recordTimeout (cfg.isTimeoutAge (e.heartbeatAgeTicks cfg now))
    else e
  ({ e with
      candidateEventSequence := 0
      lastKickTsc := now
      heartbeatStarted := true
      timeoutActive := false
      lastToken := token }, e.candidateEventSequence)

/-- The switch to one deadline for each vCPU, with the first kick that asks for it. -/
def enterPerVcpuMode (e : WdtEntry) : WdtEntry × Nat :=
  if e.perVcpuMode then (e, 0)
  else
    ({ e with
        candidateEventSequence := 0
        timeoutActive := false
        expectedVcpuMask := 0
        startedVcpuMask := 0
        stalledVcpuMask := 0
        vcpu := fun _ => .zero
        perVcpuMode := true }, e.candidateEventSequence)

/-- The deadline of the vCPU that kicks, which may be a new one. -/
def kickExpect (now vcpuId : Nat) (e : WdtEntry) : WdtEntry :=
  if !bitmapTest vcpuId e.expectedVcpuMask then e.expectVcpu now vcpuId else e

/-- A kick with a new token, with the sequence of the event it is late for. -/
def kickAccept (now vcpuId token late : Nat) (e : WdtEntry) : WdtEntry × Nat :=
  let e := e.updateStalledVcpus cfg now
  let e := e.recordTimeout (decide (e.stalledVcpuMask ≠ 0))
  let e := { e with
    vcpu := Function.update e.vcpu vcpuId
      { e.vcpu vcpuId with lastKickTsc := now, lastToken := token }
    startedVcpuMask := bitmapSet vcpuId e.startedVcpuMask
    lastKickTsc := now
    heartbeatStarted := true
    lastToken := token }
  let e := e.updateStalledVcpus cfg now
  if e.stalledVcpuMask = 0 then
    ({ e with candidateEventSequence := 0, timeoutActive := false },
      if late = 0 then e.candidateEventSequence else late)
  else (e, late)

/-- The end of a kick: it verifies a restart that waits for it, and leaves its notices. -/
def kickVerify (late : Nat) (e : WdtEntry) : WdtEntry × Bool :=
  if (e.restartPending ∧ e.recoveryState = .verifying) ∧ e.isVerified then
    ((e.clearRecovery.queueRecoveryNotice late .lateKick).queueRecoveryNotice
      e.recoveryEventSequence .verified, true)
  else (e.queueRecoveryNotice late .lateKick, false)

def kickPerVcpuV1 : Nat := 0x4257445400000001

/-- `vm_wdt_kick` under the lock, with its status and whether it verified a restart. -/
def kick (vmid vcpuId now token flags : Nat) (e : WdtEntry) : WdtEntry × Int × Bool :=
  if flags ≠ kickPerVcpuV1 then
    if e.perVcpuMode then (e, -ePerm, false)
    else
      let (e, late) := e.kickVm cfg vmid now token
      let (e, verified) := e.kickVerify late
      (e, 0, verified)
  else
    let (e, late) := e.enterPerVcpuMode
    let e := (e.syncExpectedVcpus cfg view now).kickExpect now vcpuId
    if bitmapTest vcpuId e.startedVcpuMask ∧ (e.vcpu vcpuId).lastToken = token then
      (e, -eAgain, false)
    else
      let (e, late) := e.kickAccept cfg now vcpuId token late
      let (e, verified) := e.kickVerify late
      (e, 0, verified)

/-! ### Reset -/

/--
`vm_wdt_reset`: a powered-off VM makes room for another guest, so its history is cleared; a VM
that is restarted keeps its counters and the recovery that restarts it.
-/
def reset (poweroff : Bool) (now : Nat) (e : WdtEntry) : WdtEntry :=
  let restartPending := !poweroff && e.restartPending
  { WdtEntry.zero with
    startTsc := now
    restartCount := if poweroff then 0 else e.restartCount
    restartFailCount := if poweroff then 0 else e.restartFailCount
    recoveryState := if restartPending then e.recoveryState else .idle
    recoveryCause := if restartPending then e.recoveryCause else .none
    recoveryStartTsc := if restartPending then e.recoveryStartTsc else 0
    recoveryWaitVcpus := if restartPending then e.recoveryWaitVcpus else 0
    recoveryQuiesceGeneration := if restartPending then e.recoveryQuiesceGeneration else 0
    recoveryEventSequence := if restartPending then e.recoveryEventSequence else 0
    resetRet := if restartPending then e.resetRet else 0
    resetComplete := restartPending && e.resetComplete
    candidateEventSequence := if poweroff then 0 else e.candidateEventSequence
    pending := if poweroff then [] else e.pending
    notice := if poweroff then [] else e.notice
    restartPending := restartPending }

/-! ### Suspend and resume -/

/-- The deadlines of an entry become the time that is left of them. -/
def suspend (now epoch : Nat) (e : WdtEntry) : WdtEntry :=
  let e := e.syncExpectedVcpus cfg view now
  let e := { e with remainingTicks := cfg.remainingTicks (e.heartbeatAgeTicks cfg now) }
  { e.suspendVcpuDeadlines cfg now with
    suspendEpoch := epoch
    suspendTicks := now
    pmSuspended := true }

/-- `vm_wdt_resume_entry_locked`, after the given time asleep. -/
def resume (now sleepTicks : Nat) (e : WdtEntry) : WdtEntry :=
  let base := heartbeatBase now (cfg.restoredAge e.remainingTicks)
  let e := if !e.heartbeatStarted then { e with startTsc := base } else { e with lastKickTsc := base }
  let e := e.resumeVcpuDeadlines cfg now
  { e with
    recoveryStartTsc :=
      if e.restartPending ∧ e.recoveryStartTsc ≠ 0 then add64 e.recoveryStartTsc sleepTicks
      else e.recoveryStartTsc
    remainingTicks := 0
    suspendEpoch := 0
    suspendTicks := 0
    pmSuspended := false }

end WdtEntry

end BeauOs.Wdt
