/-
A restart is claimed, and completed, and there are not too many of them.

Of an entry three things matter here: whether a restart is pending, whether the recovery is
idle, and how many restarts were completed (`RecoveryView`).  Whatever a section of the watchdog
does, to these it does one of four things (`RecoveryStep`): nothing, claim a restart, complete
the pending one, or forget everything because the VM has been powered off.  What is said of
whole runs is derived from these four cases alone.

The events of a VM are kept beside the machine, in the order in which they happened.  A claim is
followed by its completion at once; the one exception is the last claim of an instance of the VM,
which may still be outstanding, or was when the VM was powered off.
-/
import BeauOs.Lib.Run
import BeauOs.Wdt.Service
import Mathlib.Data.List.DropRight

namespace BeauOs.Wdt

open BeauOs.Pm

/-- What a claim on a restart is about. -/
structure RecoveryView where
  pending : Bool
  idle : Bool
  count : Nat

def WdtEntry.recovery (e : WdtEntry) : RecoveryView :=
  ⟨e.restartPending, decide (e.recoveryState = .idle), e.restartCount⟩

structure RecoveryView.Valid (cfg : WdtConfig) (v : RecoveryView) : Prop where
  pending_eq : v.pending = !v.idle
  bound : v.count + v.pending.toNat ≤ cfg.restartMax

inductive RecoveryStep (cfg : WdtConfig) :
    RecoveryView → Option RecoveryEvent → RecoveryView → Prop
  | keep (v : RecoveryView) : RecoveryStep cfg v none v
  | claim {v : RecoveryView} (hfree : v.pending = false) (hroom : v.count < cfg.restartMax) :
      RecoveryStep cfg v (some .claimed) ⟨true, false, v.count⟩
  | complete {v : RecoveryView} (success : Bool) (hpending : v.pending = true) :
      RecoveryStep cfg v (some (.completed success)) ⟨false, true, add64 v.count 1⟩
  | ended (v : RecoveryView) : RecoveryStep cfg v (some .instanceEnded) ⟨false, true, 0⟩

section

variable {cfg : WdtConfig}

theorem RecoveryStep.of_eq {v v' : RecoveryView} (h : v' = v) : RecoveryStep cfg v none v' := by
  rw [h]
  exact .keep v

/-- The count does not wrap: a pending restart is within the bound. -/
theorem RecoveryView.Valid.count_succ {v : RecoveryView} (hv : v.Valid cfg)
    (hpending : v.pending = true) : add64 v.count 1 = v.count + 1 := by
  have hbound := hv.bound
  rw [hpending] at hbound
  exact add64_eq (Nat.le_trans hbound cfg.restartMax_le)

theorem RecoveryStep.valid {v v' : RecoveryView} {event : Option RecoveryEvent}
    (h : RecoveryStep cfg v event v') (hv : v.Valid cfg) : v'.Valid cfg := by
  cases h with
  | keep => exact hv
  | claim _ hroom => exact ⟨rfl, hroom⟩
  | complete _ hpending =>
    refine ⟨rfl, ?_⟩
    have hbound := hv.bound
    rw [hpending] at hbound
    rw [hv.count_succ hpending]
    exact hbound
  | ended => exact ⟨rfl, Nat.zero_le _⟩

/-! ### The sections of an entry -/

namespace WdtEntry

theorem syncVcpu_recovery (runningMask : BitVec 64) (now : Nat) (e : WdtEntry) (vcpuId : Nat) :
    (e.syncVcpu runningMask now vcpuId).recovery = e.recovery := by
  unfold syncVcpu
  split
  · rfl
  · split <;> rfl

theorem syncExpectedVcpus_recovery (view : VcpuView) (now : Nat) (e : WdtEntry) :
    (e.syncExpectedVcpus cfg view now).recovery = e.recovery := by
  have hfold : ∀ (runningMask : BitVec 64) (vcpus : List Nat) (e : WdtEntry),
      (vcpus.foldl (syncVcpu runningMask now) e).recovery = e.recovery := by
    intro runningMask vcpus
    induction vcpus with
    | nil => exact fun e => rfl
    | cons vcpuId rest ih =>
      intro e
      rw [List.foldl_cons, ih, syncVcpu_recovery]
  unfold syncExpectedVcpus
  split
  · rfl
  · exact hfold (e.runningVcpus cfg view) (List.range cfg.maxVcpusPerVm) e

theorem recordTimeout_recovery (timedOut : Bool) (e : WdtEntry) :
    (e.recordTimeout timedOut).recovery = e.recovery := by
  unfold recordTimeout
  split
  · split <;> rfl
  · rfl

theorem queueRecoveryNotice_recovery (sequence : Nat) (result : RecoveryResult) (e : WdtEntry) :
    (e.queueRecoveryNotice sequence result).recovery = e.recovery := by
  unfold queueRecoveryNotice
  split <;> rfl

theorem refreshVcpus_recovery (cfg : WdtConfig) (view : VcpuView) (now : Nat) (e : WdtEntry) :
    (e.refreshVcpus cfg view now).recovery = e.recovery := by
  unfold refreshVcpus
  simp only
  split
  · exact syncExpectedVcpus_recovery view now e
  · exact syncExpectedVcpus_recovery view now e

/-- A recovery in one of its working states goes on. -/
theorem recovery_eq_of_working {e e' : WdtEntry} (hpending : e'.restartPending = e.restartPending)
    (hcount : e'.restartCount = e.restartCount) (hstate : e.recoveryState ≠ .idle)
    (hstate' : e'.recoveryState ≠ .idle) : e'.recovery = e.recovery := by
  simp only [recovery, hpending, hcount, hstate, hstate', decide_false]

theorem completeRecovery_step (cfg : WdtConfig) (success : Bool) (e : WdtEntry) :
    RecoveryStep cfg e.recovery
      (if (e.completeRecovery success).2 then some (.completed success) else none)
      (e.completeRecovery success).1.recovery := by
  unfold completeRecovery
  split
  next hpending => exact .complete success hpending
  next => exact .keep _

theorem updateQuiesce_recovery (now : Nat) (waitVcpus : BitVec 64) (e : WdtEntry) :
    (e.updateQuiesce cfg now waitVcpus).1.recovery = e.recovery := by
  unfold updateQuiesce
  split <;> rfl

theorem beginReset_recovery (now : Nat) (e : WdtEntry) :
    (e.beginReset now).1.recovery = e.recovery := by
  unfold beginReset
  split
  next h => exact recovery_eq_of_working rfl rfl (by rw [h.2]; decide) (fun h => nomatch h)
  next => rfl

theorem restartComplete_recovery (resetRet : Int) (e : WdtEntry) :
    (e.restartComplete resetRet).recovery = e.recovery := by
  unfold restartComplete
  split <;> rfl

theorem startVerification_step (cfg : WdtConfig) (now : Nat) (e : WdtEntry) :
    RecoveryStep cfg e.recovery
      (if (e.startVerification now).2 then some (.completed true) else none)
      (e.startVerification now).1.recovery := by
  unfold startVerification
  split
  next h =>
    split
    · exact .complete true h.1
    · exact .of_eq (recovery_eq_of_working rfl rfl (by rw [h.2]; decide) (fun h => nomatch h))
  next => exact .keep _

theorem kickVm_recovery (vmid now token : Nat) (e : WdtEntry) :
    (e.kickVm cfg vmid now token).1.recovery = e.recovery := by
  unfold kickVm
  simp only
  split
  · exact recordTimeout_recovery _ e
  · rfl

theorem enterPerVcpuMode_recovery (e : WdtEntry) : e.enterPerVcpuMode.1.recovery = e.recovery := by
  unfold enterPerVcpuMode
  split <;> rfl

theorem kickExpect_recovery (now vcpuId : Nat) (e : WdtEntry) :
    (e.kickExpect now vcpuId).recovery = e.recovery := by
  unfold kickExpect
  split <;> rfl

theorem kickAccept_recovery (now vcpuId token late : Nat) (e : WdtEntry) :
    (e.kickAccept cfg now vcpuId token late).1.recovery = e.recovery := by
  unfold kickAccept
  simp only
  split
  · exact recordTimeout_recovery _ (e.updateStalledVcpus cfg now)
  · exact recordTimeout_recovery _ (e.updateStalledVcpus cfg now)

theorem kickVerify_step (cfg : WdtConfig) (late : Nat) (e : WdtEntry) :
    RecoveryStep cfg e.recovery (if (e.kickVerify late).2 then some (.completed true) else none)
      (e.kickVerify late).1.recovery := by
  unfold kickVerify
  split
  next h =>
    rw [queueRecoveryNotice_recovery, queueRecoveryNotice_recovery]
    exact .complete true h.1.1
  next => exact .of_eq (queueRecoveryNotice_recovery late .lateKick e)

theorem kick_step (cfg : WdtConfig) (view : VcpuView) (vmid vcpuId now token flags : Nat) (e : WdtEntry) :
    RecoveryStep cfg e.recovery
      (if (e.kick cfg view vmid vcpuId now token flags).2.2 then some (.completed true) else none)
      (e.kick cfg view vmid vcpuId now token flags).1.recovery := by
  unfold kick
  simp only
  split
  · split
    · exact .keep _
    · have h := kickVerify_step cfg (e.kickVm cfg vmid now token).2
        (e.kickVm cfg vmid now token).1
      rw [kickVm_recovery] at h
      exact h
  · have hexpect : (((e.enterPerVcpuMode.1).syncExpectedVcpus cfg view now).kickExpect now
        vcpuId).recovery = e.recovery := by
      rw [kickExpect_recovery, syncExpectedVcpus_recovery, enterPerVcpuMode_recovery]
    split
    · exact .of_eq hexpect
    generalize ((e.enterPerVcpuMode.1).syncExpectedVcpus cfg view now).kickExpect now vcpuId = e'
      at hexpect
    have h := kickVerify_step cfg
      (e'.kickAccept cfg now vcpuId token e.enterPerVcpuMode.2).2
      (e'.kickAccept cfg now vcpuId token e.enterPerVcpuMode.2).1
    rw [kickAccept_recovery, hexpect] at h
    exact h

theorem reset_step (poweroff : Bool) (now : Nat) {e : WdtEntry} (hv : e.recovery.Valid cfg) :
    RecoveryStep cfg e.recovery (if poweroff then some .instanceEnded else none)
      (e.reset poweroff now).recovery := by
  cases poweroff with
  | true => exact .ended _
  | false =>
    refine .of_eq ?_
    have hidle : e.restartPending = !decide (e.recoveryState = .idle) := hv.pending_eq
    cases hpending : e.restartPending with
    | true => simp [recovery, reset, hpending]
    | false =>
      have hstate : e.recoveryState = .idle := by
        rw [hpending] at hidle
        simpa using hidle
      simp [recovery, reset, hpending, hstate]

theorem suspend_recovery (view : VcpuView) (now epoch : Nat) (e : WdtEntry) :
    (e.suspend cfg view now epoch).recovery = e.recovery := by
  unfold suspend suspendVcpuDeadlines
  simp only
  split
  · exact syncExpectedVcpus_recovery view now e
  · exact syncExpectedVcpus_recovery view now e

theorem resume_recovery (now sleepTicks : Nat) (e : WdtEntry) :
    (e.resume cfg now sleepTicks).recovery = e.recovery := by
  unfold resume resumeVcpuDeadlines
  simp only
  split <;> split <;> rfl

theorem observe_recovery (env : WdtEnv) (vmid : Nat) (e : WdtEntry) :
    (e.observe cfg env vmid).recovery = e.recovery := by
  unfold observe
  split
  · rw [recordTimeout_recovery]
    exact syncExpectedVcpus_recovery (env.view vmid) env.now e
  · rfl

theorem observeUnstarted_recovery (vmid now : Nat) (e : WdtEntry) :
    (e.observeUnstarted cfg vmid now).1.recovery = e.recovery := by
  unfold observeUnstarted
  simp only
  split
  · exact recordTimeout_recovery true e
  · rfl

theorem observeOverdue_recovery (classify : WdtCause) (vmid now : Nat) (e : WdtEntry) :
    (e.observeOverdue cfg classify vmid now).1.recovery = e.recovery := by
  unfold observeOverdue
  simp only
  split
  · exact recordTimeout_recovery _ e
  · rfl

end WdtEntry

/-! ### The sections of the service -/

/-- The part of an event that concerns one VM. -/
def eventOf (vmid : Nat) (event : Option (Nat × RecoveryEvent)) : Option RecoveryEvent :=
  event.bind fun x => if x.1 = vmid then some x.2 else none

/-- Every entry makes a step, with the event if it is about that entry. -/
def TableStep (cfg : WdtConfig) (w : WdtTable) (event : Option (Nat × RecoveryEvent))
    (w' : WdtTable) : Prop :=
  ∀ vmid, RecoveryStep cfg (w.entry vmid).recovery (eventOf vmid event) (w'.entry vmid).recovery

namespace TableStep

theorem refl (w : WdtTable) : TableStep cfg w none w := fun _ => .keep _

theorem set {w : WdtTable} (vmid : Nat) {e : WdtEntry} (event : Option RecoveryEvent)
    (h : RecoveryStep cfg (w.entry vmid).recovery event e.recovery) :
    TableStep cfg w (event.map (vmid, ·)) (w.set vmid e) := by
  intro v
  by_cases hv : v = vmid
  · subst hv
    have hevent : eventOf v (event.map (v, ·)) = event := by
      cases event with
      | none => rfl
      | some x => simp [eventOf]
    rw [hevent]
    simpa [WdtTable.set] using h
  · have hevent : eventOf v (event.map (vmid, ·)) = none := by
      cases event with
      | none => rfl
      | some x => simp [eventOf, Ne.symm hv]
    rw [hevent]
    exact .of_eq (by simp [WdtTable.set, hv])

theorem set_keep {w : WdtTable} {vmid : Nat} {e : WdtEntry}
    (h : e.recovery = (w.entry vmid).recovery) : TableStep cfg w none (w.set vmid e) :=
  set vmid none (.of_eq h)

end TableStep

namespace WdtTable

theorem claimRestart_step (cfg : WdtConfig) (env : WdtEnv) (vmid : Nat) (cause : WdtCause) (w : WdtTable) :
    TableStep cfg w
      (if (w.claimRestart cfg env vmid cause).2 then some (vmid, .claimed) else none)
      (w.claimRestart cfg env vmid cause).1 := by
  unfold claimRestart
  split
  · exact .refl w
  simp only
  have hfresh := WdtEntry.refreshVcpus_recovery cfg (env.view vmid) env.now (w.entry vmid)
  split
  next hcan =>
    simp only [WdtEntry.canClaimRestart, Bool.and_eq_true, Bool.not_eq_true',
      decide_eq_true_eq] at hcan
    obtain ⟨⟨⟨hfree, hroom⟩, -⟩, -⟩ := hcan
    refine TableStep.set vmid (some .claimed) ?_
    rw [← hfresh]
    exact .claim hfree hroom
  next => exact .set_keep hfresh

theorem kick_step (env : WdtEnv) (vmid vcpuId token flags : Nat) (w : WdtTable) :
    TableStep cfg w
      (if (w.kick cfg env vmid vcpuId token flags).2.2 then some (vmid, .completed true) else none)
      (w.kick cfg env vmid vcpuId token flags).1 := by
  unfold kick
  split
  · exact .refl w
  have h := TableStep.set vmid _ (WdtEntry.kick_step cfg (env.view vmid) vmid vcpuId env.now
      token flags (w.entry vmid))
  refine cast ?_ h
  simp only
  split <;> rfl

theorem reset_step (env : WdtEnv) (vmid : Nat) {w : WdtTable}
    (hv : (w.entry vmid).recovery.Valid cfg) :
    TableStep cfg w
      (if vmid < configMaxVmNum ∧ env.vmState vmid = .poweredOff then some (vmid, .instanceEnded)
        else none)
      (w.reset env vmid) := by
  by_cases hout : vmid ≥ configMaxVmNum
  · rw [if_neg (fun h => absurd h.1 (Nat.not_lt.mpr hout)), reset, if_pos hout]
    exact .refl w
  have h := TableStep.set vmid _
    (WdtEntry.reset_step (decide (env.vmState vmid = .poweredOff)) env.now hv)
  rw [reset, if_neg hout]
  by_cases hoff : env.vmState vmid = .poweredOff
  · simpa [hoff, Nat.not_le.mp hout] using h
  · simpa [hoff] using h

theorem restartComplete_step (vmid : Nat) (resetRet : Int) (w : WdtTable) :
    TableStep cfg w none (w.restartComplete vmid resetRet) := by
  unfold restartComplete
  split
  · exact .refl w
  · exact .set_keep (WdtEntry.restartComplete_recovery resetRet _)

variable (env : WdtEnv)

theorem pmSuspend_step (epoch : Nat) (w : WdtTable) :
    TableStep cfg w none (w.pmSuspend cfg env epoch).1 := by
  unfold pmSuspend
  split
  · exact .refl w
  split
  · exact .refl w
  intro vmid
  refine .of_eq ?_
  simp only
  split
  · exact WdtEntry.suspend_recovery _ _ _ _
  · rfl

theorem pmResume_step (epoch : Nat) (w : WdtTable) :
    TableStep cfg w none (w.pmResume cfg env epoch).1 := by
  unfold pmResume
  split
  · exact .refl w
  split
  · exact .refl w
  split
  · exact .refl w
  split
  · exact .refl w
  intro vmid
  refine .of_eq ?_
  simp only
  split
  · exact WdtEntry.resume_recovery _ _ _
  · rfl

theorem pmSuspendVm_step (vmid epoch : Nat) (w : WdtTable) :
    TableStep cfg w none (w.pmSuspendVm cfg env vmid epoch).1 := by
  unfold pmSuspendVm
  repeat' split
  all_goals first
    | exact .refl w
    | exact .set_keep (WdtEntry.suspend_recovery _ _ _ _)

theorem pmResumeVm_step (vmid epoch : Nat) (w : WdtTable) :
    TableStep cfg w none (w.pmResumeVm cfg env vmid epoch).1 := by
  unfold pmResumeVm
  repeat' split
  all_goals first
    | exact .refl w
    | exact .set_keep (WdtEntry.resume_recovery _ _ _)

end WdtTable

theorem snapshotStep_step (cfg : WdtConfig) (env : WdtEnv) (vmid : Nat) (w : WdtTable) (pc : SnapshotPc) :
    TableStep cfg w none (snapshotStep cfg env vmid w pc).1 := by
  cases pc with
  | begin =>
    simp only [snapshotStep]
    split
    · exact .refl w
    · exact .set_keep (WdtEntry.observe_recovery env vmid _)
  | unstarted now => exact .set_keep (WdtEntry.observeUnstarted_recovery vmid now _)
  | overdue now => exact .set_keep (WdtEntry.observeOverdue_recovery env.classify vmid now _)

/-! ### One step of the system -/

theorem threadStep_step (env : WdtEnv) (w : WdtTable) (pc : ThreadPc) :
    TableStep cfg w (threadStep cfg env w pc).2.2 (threadStep cfg env w pc).1 := by
  cases pc with
  | flush vmid left | capture vmid snap left =>
    cases left with
    | zero => exact .refl w
    | succ left =>
      simp only [threadStep]
      split
      · exact .refl w
      · exact .set_keep rfl
  | snapshot vmid pc =>
    have h := snapshotStep_step cfg env vmid w pc
    simp only [threadStep]
    split
    next heq => rw [heq] at h; exact h
    next heq => rw [heq] at h; exact h
  | bind vmid snap left timeoutCount sequence | exhausted vmid snap =>
    simp only [threadStep]
    split
    · exact .set_keep rfl
    · exact .refl w
  | claim vmid snap =>
    have h := WdtTable.claimRestart_step cfg env vmid snap.cause w
    simp only [threadStep]
    split
    next hclaimed => rw [if_pos hclaimed] at h; exact h
    next hclaimed => rw [if_neg hclaimed] at h; exact h
  | beginReset => exact .set_keep (WdtEntry.beginReset_recovery env.now _)
  | updateQuiesce _ waitVcpus =>
    exact .set_keep (WdtEntry.updateQuiesce_recovery env.now waitVcpus _)
  | verify vmid =>
    have h := TableStep.set vmid _ (WdtEntry.startVerification_step cfg env.now (w.entry vmid))
    refine cast ?_ h
    simp only [threadStep]
    split <;> rfl
  | complete vmid =>
    have h := TableStep.set vmid _ (WdtEntry.completeRecovery_step cfg false (w.entry vmid))
    refine cast ?_ h
    simp only [threadStep]
    split <;> rfl
  | _ => exact .refl w

/-- **Every step does one of the four things to every entry.** -/
theorem WdtMachine.run_step {m : WdtMachine} (hv : ∀ vmid, (m.wdt.entry vmid).recovery.Valid cfg)
    (call : WdtEnv × WdtCall) : TableStep cfg m.wdt (m.run cfg call).2 (m.run cfg call).1.wdt := by
  obtain ⟨env, call⟩ := call
  cases call with
  | thread => exact threadStep_step env m.wdt m.thread
  | getSnapshot =>
    simp only [WdtMachine.run]
    split <;> exact .refl _
  | reader =>
    simp only [WdtMachine.run]
    split
    next => exact .refl _
    next vmid pc _ =>
      have h := snapshotStep_step cfg env vmid m.wdt pc
      split
      next heq => rw [heq] at h; exact h
      next heq => rw [heq] at h; exact h
  | kick vmid vcpuId token flags => exact WdtTable.kick_step env vmid vcpuId token flags m.wdt
  | reset vmid => exact WdtTable.reset_step env vmid (hv vmid)
  | restartComplete vmid resetRet => exact WdtTable.restartComplete_step vmid resetRet m.wdt
  | pmSuspend epoch => exact WdtTable.pmSuspend_step env epoch m.wdt
  | pmResume epoch => exact WdtTable.pmResume_step env epoch m.wdt
  | pmSuspendVm vmid epoch => exact WdtTable.pmSuspendVm_step env vmid epoch m.wdt
  | pmResumeVm vmid epoch => exact WdtTable.pmResumeVm_step env vmid epoch m.wdt

end

/-! ### Whole runs -/

/-- The machine with everything that happened to claims, the oldest event first. -/
structure WdtHistory where
  machine : WdtMachine
  events : List (Nat × RecoveryEvent)

namespace WdtHistory

def boot : WdtHistory := ⟨.boot, []⟩

variable (cfg : WdtConfig)

def step (h : WdtHistory) (call : WdtEnv × WdtCall) : WdtHistory :=
  ⟨(h.machine.run cfg call).1, h.events ++ (h.machine.run cfg call).2.toList⟩

/-- What happened to the claims on one VM. -/
def eventsOf (h : WdtHistory) (vmid : Nat) : List RecoveryEvent :=
  h.events.filterMap fun x => eventOf vmid (some x)

/-- The history is only added: the machine runs as before. -/
theorem machine_exec (calls : List (WdtEnv × WdtCall)) (h : WdtHistory) :
    (Run.exec (step cfg) h calls).machine = Run.exec (WdtMachine.step cfg) h.machine calls := by
  induction calls generalizing h with
  | nil => rfl
  | cons call rest ih => exact ih (h.step cfg call)

theorem eventsOf_step (h : WdtHistory) (call : WdtEnv × WdtCall) (vmid : Nat) :
    (h.step cfg call).eventsOf vmid =
      h.eventsOf vmid ++ (eventOf vmid (h.machine.run cfg call).2).toList := by
  unfold eventsOf step
  rw [List.filterMap_append]
  cases (h.machine.run cfg call).2 with
  | none => rfl
  | some x =>
    cases hx : eventOf vmid (some x) with
    | none | some event => simp [hx]

end WdtHistory

/-- The events since the VM was last powered off: those of its present instance. -/
def presentInstance (events : List RecoveryEvent) : List RecoveryEvent :=
  events.rtakeWhile (· ≠ .instanceEnded)

def RecoveryEvent.isCompleted : RecoveryEvent → Bool
  | .completed _ => true
  | _ => false

/-- The books of the claims on one VM, over all that happened to them. -/
structure RestartBooks (cfg : WdtConfig) (events : List RecoveryEvent) (v : RecoveryView) : Prop where
  valid : v.Valid cfg
  /-- a claim is followed by its completion, unless it is outstanding or the instance has ended -/
  completed : ∀ before after, events = before ++ .claimed :: after →
    after = [] ∧ v.pending = true ∨ (∃ success rest, after = .completed success :: rest) ∨
      ∃ rest, after = .instanceEnded :: rest
  /-- nothing else is completed -/
  claimed : ∀ before after success, events = before ++ .completed success :: after →
    ∃ earlier, before = earlier ++ [.claimed]
  /-- what is pending has been claimed -/
  pending : v.pending = true → ∃ earlier, events = earlier ++ [.claimed]
  count : v.count = (presentInstance events).countP (·.isCompleted)

/-- An event in the middle of a list that has grown by one is the new one or an old one. -/
theorem cut_concat {α : Type*} {events before after : List α} {x y : α}
    (h : events ++ [y] = before ++ x :: after) :
    after = [] ∧ x = y ∧ before = events ∨
      ∃ earlier, after = earlier ++ [y] ∧ events = before ++ x :: earlier := by
  rcases List.eq_nil_or_concat after with rfl | ⟨earlier, z, rfl⟩
  · obtain ⟨hevents, hy⟩ := List.append_inj' h rfl
    exact .inl ⟨rfl, (List.cons.inj hy).1.symm, hevents.symm⟩
  · rw [List.concat_eq_append, ← List.cons_append, ← List.append_assoc] at h
    obtain ⟨hevents, hy⟩ := List.append_inj' h rfl
    exact .inr ⟨earlier, by rw [List.concat_eq_append, (List.cons.inj hy).1], hevents⟩

theorem presentInstance_concat {events : List RecoveryEvent} {event : RecoveryEvent}
    (h : event ≠ .instanceEnded) :
    presentInstance (events ++ [event]) = presentInstance events ++ [event] :=
  List.rtakeWhile_concat_pos _ _ _ (by simpa using h)

theorem presentInstance_ended (events : List RecoveryEvent) :
    presentInstance (events ++ [.instanceEnded]) = [] :=
  List.rtakeWhile_concat_neg _ _ _ (by simp)

namespace RestartBooks

variable {cfg : WdtConfig} {events : List RecoveryEvent} {v v' : RecoveryView}

/-- While nothing is pending, every claim has been followed by something. -/
theorem followed (h : RestartBooks cfg events v) (hfree : v.pending = false)
    {before after : List RecoveryEvent} (hcut : events = before ++ .claimed :: after) :
    (∃ success rest, after = .completed success :: rest) ∨
      ∃ rest, after = .instanceEnded :: rest := by
  rcases h.completed before after hcut with ⟨-, hpending⟩ | hafter
  · exact nomatch hfree.symm.trans hpending
  · exact hafter

/-- One more event after something that already followed a claim. -/
theorem followed_concat {after : List RecoveryEvent} (event : RecoveryEvent)
    (h : (∃ success rest, after = .completed success :: rest) ∨
      ∃ rest, after = .instanceEnded :: rest) :
    (∃ success rest, after ++ [event] = .completed success :: rest) ∨
      ∃ rest, after ++ [event] = .instanceEnded :: rest := by
  rcases h with ⟨success, rest, rfl⟩ | ⟨rest, rfl⟩
  · exact .inl ⟨success, rest ++ [event], rfl⟩
  · exact .inr ⟨rest ++ [event], rfl⟩

/-- A new event completes a claim only if one is outstanding. -/
theorem claimed_concat (h : RestartBooks cfg events v) {event : RecoveryEvent}
    {before after : List RecoveryEvent} {success : Bool}
    (hcut : events ++ [event] = before ++ .completed success :: after)
    (hnew : ∀ success, event = .completed success → v.pending = true) :
    ∃ earlier, before = earlier ++ [.claimed] := by
  rcases cut_concat hcut with ⟨-, rfl, rfl⟩ | ⟨earlier, -, hevents⟩
  · exact h.pending (hnew success rfl)
  · exact h.claimed before earlier success hevents

theorem claim (h : RestartBooks cfg events v) (hfree : v.pending = false)
    (hroom : v.count < cfg.restartMax) :
    RestartBooks cfg (events ++ [.claimed]) ⟨true, false, v.count⟩ where
  valid := (RecoveryStep.claim hfree hroom).valid h.valid
  completed before after hcut := by
    rcases cut_concat hcut with ⟨hafter, -, -⟩ | ⟨earlier, rfl, hevents⟩
    · exact .inl ⟨hafter, rfl⟩
    · exact .inr (followed_concat .claimed (h.followed hfree hevents))
  claimed _ _ _ hcut := h.claimed_concat hcut nofun
  pending _ := ⟨events, rfl⟩
  count := by
    rw [presentInstance_concat (by decide), List.countP_append]
    exact h.count

theorem complete (h : RestartBooks cfg events v) (success : Bool) (hpending : v.pending = true) :
    RestartBooks cfg (events ++ [.completed success]) ⟨false, true, add64 v.count 1⟩ where
  valid := (RecoveryStep.complete success hpending).valid h.valid
  completed before after hcut := by
    rcases cut_concat hcut with ⟨-, heq, -⟩ | ⟨earlier, rfl, hevents⟩
    · exact nomatch heq
    -- the claim that was outstanding is the one that is completed now
    rcases h.completed before earlier hevents with ⟨rfl, -⟩ | hafter
    · exact .inr (.inl ⟨success, [], rfl⟩)
    · exact .inr (followed_concat _ hafter)
  claimed _ _ _ hcut := h.claimed_concat hcut fun _ _ => hpending
  pending hfalse := nomatch hfalse
  count := by
    have hne : RecoveryEvent.completed success ≠ .instanceEnded := fun heq => nomatch heq
    rw [presentInstance_concat hne, List.countP_append, ← h.count]
    exact h.valid.count_succ hpending

theorem ended (h : RestartBooks cfg events v) :
    RestartBooks cfg (events ++ [.instanceEnded]) ⟨false, true, 0⟩ where
  valid := (RecoveryStep.ended v).valid h.valid
  completed before after hcut := by
    rcases cut_concat hcut with ⟨-, heq, -⟩ | ⟨earlier, rfl, hevents⟩
    · exact nomatch heq
    · rcases h.completed before earlier hevents with ⟨rfl, -⟩ | hafter
      · exact .inr (.inr ⟨[], rfl⟩)
      · exact .inr (followed_concat _ hafter)
  claimed _ _ _ hcut := h.claimed_concat hcut nofun
  pending hfalse := nomatch hfalse
  count := by
    rw [presentInstance_ended]
    rfl

theorem step (h : RestartBooks cfg events v) {event : Option RecoveryEvent}
    (hstep : RecoveryStep cfg v event v') : RestartBooks cfg (events ++ event.toList) v' := by
  cases hstep with
  | keep =>
    rw [Option.toList_none, List.append_nil]
    exact h
  | claim hfree hroom => exact h.claim hfree hroom
  | complete success hpending => exact h.complete success hpending
  | ended => exact h.ended

theorem boot (cfg : WdtConfig) : RestartBooks cfg [] WdtEntry.zero.recovery where
  valid := ⟨rfl, Nat.zero_le _⟩
  completed before after hcut := absurd hcut.symm (List.append_ne_nil_of_right_ne_nil before (by simp))
  claimed before after success hcut :=
    absurd hcut.symm (List.append_ne_nil_of_right_ne_nil before (by simp))
  pending hfalse := nomatch hfalse
  count := rfl

end RestartBooks

def WdtHistory.Books (cfg : WdtConfig) (h : WdtHistory) : Prop :=
  ∀ vmid, RestartBooks cfg (h.eventsOf vmid) (h.machine.wdt.entry vmid).recovery

theorem WdtHistory.Books.step {cfg : WdtConfig} {h : WdtHistory} (hb : h.Books cfg)
    (call : WdtEnv × WdtCall) : (h.step cfg call).Books cfg := by
  intro vmid
  rw [h.eventsOf_step cfg call vmid]
  exact (hb vmid).step (WdtMachine.run_step (fun v => (hb v).valid) call vmid)

/-- What is said of the recovery of one VM after a run. -/
structure RestartBounded (cfg : WdtConfig) (events : List RecoveryEvent) (e : WdtEntry) : Prop where
  /-- `restart_pending` holds exactly if the recovery is not idle -/
  pending_iff : e.restartPending = true ↔ e.recoveryState ≠ .idle
  /-- every claim of the present instance but an outstanding one is followed by its completion,
  and so is every claim of an earlier instance that was not outstanding when it ended -/
  claim_completed : ∀ before after, events = before ++ .claimed :: after →
    after = [] ∧ e.restartPending = true ∨ (∃ success rest, after = .completed success :: rest) ∨
      ∃ rest, after = .instanceEnded :: rest
  /-- a completion follows its claim, so no claim is completed twice -/
  completed_claimed : ∀ before after success, events = before ++ .completed success :: after →
    ∃ earlier, before = earlier ++ [.claimed]
  /-- the outstanding claim is the last event, so there is only one -/
  outstanding : e.restartPending = true → ∃ earlier, events = earlier ++ [.claimed]
  restartCount_eq : e.restartCount = (presentInstance events).countP (·.isCompleted)
  bound : e.restartCount + (if e.restartPending then 1 else 0) ≤ cfg.restartMax

theorem RestartBooks.bounded {cfg : WdtConfig} {events : List RecoveryEvent} {e : WdtEntry}
    (h : RestartBooks cfg events e.recovery) : RestartBounded cfg events e where
  pending_iff := by
    have hpending : e.restartPending = !decide (e.recoveryState = .idle) := h.valid.pending_eq
    simp [hpending]
  claim_completed := h.completed
  completed_claimed := h.claimed
  outstanding := h.pending
  restartCount_eq := h.count
  bound := by
    have hbound : e.restartCount + e.restartPending.toNat ≤ cfg.restartMax := h.valid.bound
    cases hpending : e.restartPending with
    | true | false => simpa [hpending] using hbound

/--
**Restart bound.**  In every run of the watchdog, whatever the order of kicks, timeouts, polls of
the thread, observers, finished resets, suspends, resumes and resets: a restart is pending exactly
if the recovery of the VM is not idle, there is at most one outstanding claim, every claim of an
instance of the VM is completed exactly once or is the outstanding one, and the completed restarts
of the instance with the outstanding one are within the configured maximum.
-/
theorem wdt_restart_bound (cfg : WdtConfig) (calls : List (WdtEnv × WdtCall)) (vmid : Nat) :
    RestartBounded cfg ((Run.exec (WdtHistory.step cfg) .boot calls).eventsOf vmid)
      ((Run.exec (WdtMachine.step cfg) .boot calls).wdt.entry vmid) := by
  have hbooks : (Run.exec (WdtHistory.step cfg) .boot calls).Books cfg :=
    Run.inv_always (WdtHistory.Books cfg) (fun _ call hb => hb.step call) calls fun _ =>
      RestartBooks.boot cfg
  have h := (hbooks vmid).bounded
  rw [WdtHistory.machine_exec] at h
  exact h

end BeauOs.Wdt
