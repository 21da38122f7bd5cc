/-
What a suspend does to the deadlines of the watchdog.

A deadline counts from its last kick, and what matters of it is its age.  A suspend keeps what
is left of the timeout, and the resume moves the last kick so that the age is the same again.
A guest that slept is then judged as if the clock had stood still.

That is not so for a deadline of exactly the age of the timeout.  It has not timed out, but
nothing is left of it either, and nothing left is read as timed out when it is resumed.
A deadline that was kicked after the clock of the suspend was read loses that time as well.
`FrozenExactly` is the rest, for both ways to suspend: one VM, or the host with all its VMs.
-/
import BeauOs.Wdt.Service

namespace BeauOs.Wdt

open BeauOs.Pm

/-! ### Times -/

@[simp] theorem elapsedTicks_eq (now since : Nat) : elapsedTicks now since = now - since := by
  unfold elapsedTicks
  split <;> omega

@[simp] theorem heartbeatBase_eq (now ageTicks : Nat) : heartbeatBase now ageTicks = now - ageTicks := by
  unfold heartbeatBase
  split <;> omega

/-- The time a deadline counts from after it slept from `ts` to `tr`. -/
def WdtConfig.resumedSince (cfg : WdtConfig) (since ts tr : Nat) : Nat :=
  heartbeatBase tr (cfg.restoredAge (cfg.remainingTicks (elapsedTicks ts since)))

/-- The sleeps after which a deadline is judged as if the clock had stood still. -/
def FrozenExactly (timeout since ts tr t : Nat) : Prop :=
  if since ≤ ts then ts - since = timeout → t = tr → tr ≤ timeout
  else if timeout = 0 then t = 0 ∨ since < ts + (t - tr)
  else t - tr ≤ timeout ∨ since + timeout < ts + (t - tr)

instance (timeout since ts tr t : Nat) : Decidable (FrozenExactly timeout since ts tr t) :=
  inferInstanceAs (Decidable (ite _ _ _))

namespace WdtConfig

variable (cfg : WdtConfig)

theorem restoredAge_remainingTicks_of_lt {age : Nat} (h : age < cfg.timeoutTicks) :
    cfg.restoredAge (cfg.remainingTicks age) = age := by
  unfold restoredAge remainingTicks
  rw [if_pos h, if_neg (by omega)]
  omega

theorem restoredAge_remainingTicks_of_ge {age : Nat} (h : cfg.timeoutTicks ≤ age) :
    cfg.restoredAge (cfg.remainingTicks age) = add64 cfg.timeoutTicks 1 := by
  have hnone : cfg.remainingTicks age = 0 := if_neg (Nat.not_lt.mpr h)
  rw [hnone, restoredAge, if_pos rfl]

/-- The age a deadline gets back is in excess of the timeout, if there are such ages at all. -/
theorem restoredAge_expired {age tr : Nat} (h : cfg.timeoutTicks ≤ age) (hage : age ≤ tr)
    (htr : tr ≤ uint64Max) :
    cfg.restoredAge (cfg.remainingTicks age) = cfg.timeoutTicks + 1 ∨
      cfg.timeoutTicks = uint64Max ∧ cfg.restoredAge (cfg.remainingTicks age) = 0 ∧
        tr = uint64Max := by
  rw [cfg.restoredAge_remainingTicks_of_ge h]
  by_cases hmax : cfg.timeoutTicks = uint64Max
  · refine .inr ⟨hmax, ?_, by omega⟩
    rw [hmax]
    decide
  · have hle := cfg.timeoutTicks_le
    exact .inl (add64_eq (by omega))

variable {since ts tr t : Nat}

/-- A deadline that was kicked before the suspend. -/
theorem timeout_resumed_of_le (hsince : since ≤ ts) (htr : ts ≤ tr)
    (ht : tr ≤ t) (hmax : t ≤ uint64Max) :
    (cfg.isTimeoutAge (elapsedTicks t (cfg.resumedSince since ts tr)) =
        cfg.isTimeoutAge (elapsedTicks (ts + (t - tr)) since)) ↔
      (ts - since = cfg.timeoutTicks → t = tr → tr ≤ cfg.timeoutTicks) := by
  simp only [isTimeoutAge, resumedSince, elapsedTicks_eq, heartbeatBase_eq, decide_eq_decide]
  rcases Nat.lt_or_ge (ts - since) cfg.timeoutTicks with hlt | hge
  · rw [cfg.restoredAge_remainingTicks_of_lt hlt]
    omega
  rcases cfg.restoredAge_expired hge (Nat.le_trans (Nat.sub_le ts since) htr)
    (Nat.le_trans ht hmax) with hage | ⟨htimeout, hage, htr'⟩
  · rw [hage]
    omega
  · rw [hage]
    omega

/-- A deadline that was kicked after the clock of the suspend was read: its age is zero. -/
theorem timeout_resumed_of_gt (hsince : ts < since) (htr : ts ≤ tr)
    (ht : tr ≤ t) :
    (cfg.isTimeoutAge (elapsedTicks t (cfg.resumedSince since ts tr)) =
        cfg.isTimeoutAge (elapsedTicks (ts + (t - tr)) since)) ↔
      if cfg.timeoutTicks = 0 then t = 0 ∨ since < ts + (t - tr)
      else t - tr ≤ cfg.timeoutTicks ∨ since + cfg.timeoutTicks < ts + (t - tr) := by
  have hage : ts - since = 0 := by omega
  simp only [isTimeoutAge, resumedSince, elapsedTicks_eq, heartbeatBase_eq, decide_eq_decide, hage]
  by_cases hzero : cfg.timeoutTicks = 0
  · have hrestored : cfg.restoredAge (cfg.remainingTicks 0) = 1 := by
      rw [cfg.restoredAge_remainingTicks_of_ge (by omega), hzero]
      decide
    rw [if_pos hzero, hrestored]
    omega
  · rw [if_neg hzero, cfg.restoredAge_remainingTicks_of_lt (by omega)]
    omega

/-- **When a sleep is not noticed.** -/
theorem timeout_resumed (htr : ts ≤ tr) (ht : tr ≤ t) (hmax : t ≤ uint64Max) :
    (cfg.isTimeoutAge (elapsedTicks t (cfg.resumedSince since ts tr)) =
        cfg.isTimeoutAge (elapsedTicks (ts + (t - tr)) since)) ↔
      FrozenExactly cfg.timeoutTicks since ts tr t := by
  unfold FrozenExactly
  by_cases hsince : since ≤ ts
  · rw [if_pos hsince]
    exact cfg.timeout_resumed_of_le hsince htr ht hmax
  · rw [if_neg hsince]
    exact cfg.timeout_resumed_of_gt (Nat.lt_of_not_le hsince) htr ht

end WdtConfig

/-! ### The deadlines of an entry -/

inductive Deadline
  | vm
  | vcpu (vcpuId : Nat)
  deriving DecidableEq

namespace WdtEntry

/-- The deadlines an entry has: one for the VM, or one for each expected vCPU. -/
def HasDeadline (cfg : WdtConfig) (e : WdtEntry) : Deadline → Prop
  | .vm => e.perVcpuMode = false
  | .vcpu vcpuId => e.perVcpuMode = true ∧ vcpuId < cfg.maxVcpusPerVm ∧
      bitmapTest vcpuId e.expectedVcpuMask = true

instance (cfg : WdtConfig) (e : WdtEntry) (d : Deadline) : Decidable (e.HasDeadline cfg d) :=
  match d with
  | .vm => inferInstanceAs (Decidable (e.perVcpuMode = false))
  | .vcpu _ => inferInstanceAs (Decidable (e.perVcpuMode = true ∧ _ ∧ _))

/-- The time a deadline counts from. -/
def since (e : WdtEntry) : Deadline → Nat
  | .vm => e.vmSince
  | .vcpu vcpuId => e.vcpuSince vcpuId

/-- The verdict of the watchdog: the age of the VM, or the bit of a vCPU among the stalled ones. -/
def verdict (cfg : WdtConfig) (now : Nat) (e : WdtEntry) : Deadline → Bool
  | .vm => cfg.isTimeoutAge (e.heartbeatAgeTicks cfg now)
  | .vcpu vcpuId => bitmapTest vcpuId (e.updateStalledVcpus cfg now).stalledVcpuMask

theorem verdict_eq {cfg : WdtConfig} {e : WdtEntry} {d : Deadline} (hd : e.HasDeadline cfg d)
    (now : Nat) : e.verdict cfg now d = cfg.isTimeoutAge (elapsedTicks now (e.since d)) := by
  cases d with
  | vm =>
    have hmode : e.perVcpuMode = false := hd
    simp only [verdict, heartbeatAgeTicks, hmode, since]
    rfl
  | vcpu vcpuId =>
    obtain ⟨-, hlt, hbit⟩ := hd
    have h64 : vcpuId < 64 := Nat.lt_of_lt_of_le hlt cfg.maxVcpusPerVm_le
    simp only [verdict, updateStalledVcpus, bitmapTest_bitmapOf cfg.maxVcpusPerVm_le h64, hlt,
      hbit, vcpuAgeTicks, since, decide_true, Bool.true_and]

/-- The entry after a sleep, as the resume leaves it. -/
def slept (cfg : WdtConfig) (view : VcpuView) (ts tr epoch : Nat) (e : WdtEntry) : WdtEntry :=
  (e.suspend cfg view ts epoch).resume cfg tr (elapsedTicks tr ts)

section

variable {cfg : WdtConfig} {view : VcpuView} {ts tr epoch : Nat} {e : WdtEntry}

/-- A suspend of a VM with one deadline keeps what is left of it; the resume restores it. -/
theorem slept_of_vm (hmode : (e.syncExpectedVcpus cfg view ts).perVcpuMode = false) :
    (e.slept cfg view ts tr epoch).perVcpuMode = false ∧
      (e.slept cfg view ts tr epoch).vmSince =
        cfg.resumedSince (e.syncExpectedVcpus cfg view ts).vmSince ts tr := by
  unfold slept suspend resume suspendVcpuDeadlines resumeVcpuDeadlines
  generalize e.syncExpectedVcpus cfg view ts = e' at *
  cases hstarted : e'.heartbeatStarted with
  | true =>
    simp [hmode, hstarted, vmSince, heartbeatAgeTicks, WdtConfig.resumedSince]
  | false =>
    simp [hmode, hstarted, vmSince, heartbeatAgeTicks, WdtConfig.resumedSince]

theorem slept_of_vcpu {vcpuId : Nat}
    (hd : (e.syncExpectedVcpus cfg view ts).HasDeadline cfg (.vcpu vcpuId)) :
    (e.slept cfg view ts tr epoch).HasDeadline cfg (.vcpu vcpuId) ∧
      (e.slept cfg view ts tr epoch).vcpuSince vcpuId =
        cfg.resumedSince ((e.syncExpectedVcpus cfg view ts).vcpuSince vcpuId) ts tr := by
  unfold slept suspend resume suspendVcpuDeadlines resumeVcpuDeadlines
  generalize e.syncExpectedVcpus cfg view ts = e' at *
  obtain ⟨hmode, hlt, hbit⟩ := hd
  unfold HasDeadline
  cases hstarted : e'.heartbeatStarted <;>
    cases hkicked : bitmapTest vcpuId e'.startedVcpuMask <;>
      simp [hmode, hlt, hbit, hstarted, hkicked, vcpuSince, vcpuAgeTicks, WdtConfig.resumedSince]

/-- Every deadline is still there after a sleep, and counts from the time the resume computes. -/
theorem slept_deadline (tr epoch : Nat) {d : Deadline}
    (hd : (e.syncExpectedVcpus cfg view ts).HasDeadline cfg d) :
    (e.slept cfg view ts tr epoch).HasDeadline cfg d ∧
      (e.slept cfg view ts tr epoch).since d =
        cfg.resumedSince ((e.syncExpectedVcpus cfg view ts).since d) ts tr := by
  cases d with
  | vm => exact slept_of_vm hd
  | vcpu => exact slept_of_vcpu hd

end

end WdtEntry

/-! ### The two ways to suspend -/

inductive PmPath
  /-- `vm_wdt_pm_suspend` and `vm_wdt_pm_resume` -/
  | host
  /-- `vm_wdt_pm_suspend_vm` and `vm_wdt_pm_resume_vm` -/
  | vm
  deriving DecidableEq

namespace PmPath

def suspend (cfg : WdtConfig) (env : WdtEnv) (vmid epoch : Nat) (w : WdtTable) :
    PmPath → WdtTable × Int
  | .host => w.pmSuspend cfg env epoch
  | .vm => w.pmSuspendVm cfg env vmid epoch

def resume (cfg : WdtConfig) (env : WdtEnv) (vmid epoch : Nat) (w : WdtTable) :
    PmPath → WdtTable × Int
  | .host => w.pmResume cfg env epoch
  | .vm => w.pmResumeVm cfg env vmid epoch

end PmPath

/-- A VM that is watched and not suspended, and a suspend that succeeds. -/
structure Suspends (cfg : WdtConfig) (path : PmPath) (env : WdtEnv) (vmid epoch : Nat)
    (w : WdtTable) : Prop where
  monitored : cfg.isMonitored vmid = true
  host : w.pmSuspended = false
  vm : (w.entry vmid).pmSuspended = false
  status : (path.suspend cfg env vmid epoch w).2 = 0

section

variable {cfg : WdtConfig} {env env' : WdtEnv} {vmid epoch : Nat} {w : WdtTable}

theorem WdtConfig.lt_of_isMonitored (h : cfg.isMonitored vmid = true) :
    vmid < cfg.maxVmId ∧ vmid < configMaxVmNum := by
  have hlt : vmid < cfg.maxVmId := of_decide_eq_true h
  refine ⟨hlt, ?_⟩
  unfold WdtConfig.maxVmId at hlt
  split at hlt <;> omega

/-- The table while the host sleeps. -/
theorem pmSuspend_eq (hepoch : epoch ≠ 0) (hhost : w.pmSuspended = false) :
    w.pmSuspend cfg env epoch =
      ({ w with
          suspendEpoch := epoch
          suspendTicks := env.now
          pmSuspended := true
          entry := fun vmid =>
            if vmid < cfg.maxVmId then (w.entry vmid).suspend cfg (env.view vmid) env.now epoch
            else w.entry vmid }, 0) := by
  rw [WdtTable.pmSuspend, if_neg hepoch, if_neg (by simp [hhost])]

/-- A host-wide suspend leaves no monitored VM out. -/
theorem allSuspended_pmSuspend (cfg : WdtConfig) (env : WdtEnv) (hepoch : epoch ≠ 0)
    (hhost : w.pmSuspended = false) :
    (w.pmSuspend cfg env epoch).1.allSuspended cfg epoch = true := by
  rw [pmSuspend_eq hepoch hhost]
  simp only [WdtTable.allSuspended, List.all_eq_true, List.mem_range]
  intro v hv
  simp [hv, WdtEntry.suspend]

theorem slept_host (h : Suspends cfg .host env vmid epoch w) :
    (PmPath.host.resume cfg env' vmid epoch (PmPath.host.suspend cfg env vmid epoch w).1).1.entry
        vmid = (w.entry vmid).slept cfg (env.view vmid) env.now env'.now epoch := by
  have hepoch : epoch ≠ 0 := by
    intro hzero
    have hstatus := h.status
    rw [PmPath.suspend, WdtTable.pmSuspend, if_pos hzero] at hstatus
    exact absurd (show -eInval = 0 from hstatus) (by decide)
  have hall := allSuspended_pmSuspend cfg env hepoch h.host
  obtain ⟨hlt, -⟩ := WdtConfig.lt_of_isMonitored h.monitored
  rw [PmPath.suspend, PmPath.resume, WdtTable.pmResume, if_neg hepoch]
  simp only [hall]
  rw [pmSuspend_eq hepoch h.host]
  simp [hlt, WdtEntry.slept]

theorem pmSuspendVm_eq (hvalid : ¬ (vmid ≥ configMaxVmNum ∨ epoch = 0))
    (hmonitored : cfg.isMonitored vmid = true) (hhost : w.pmSuspended = false)
    (hvm : (w.entry vmid).pmSuspended = false) :
    w.pmSuspendVm cfg env vmid epoch =
      if (w.entry vmid).restartPending then (w, -eBusy)
      else (w.set vmid ((w.entry vmid).suspend cfg (env.view vmid) env.now epoch), 0) := by
  rw [WdtTable.pmSuspendVm, if_neg hvalid, if_neg (by simp [hmonitored]), if_neg (by simp [hhost]),
    if_neg (by simp [hvm])]

theorem slept_vm (h : Suspends cfg .vm env vmid epoch w) :
    (PmPath.vm.resume cfg env' vmid epoch (PmPath.vm.suspend cfg env vmid epoch w).1).1.entry
        vmid = (w.entry vmid).slept cfg (env.view vmid) env.now env'.now epoch := by
  have hstatus := h.status
  rw [PmPath.suspend] at hstatus
  have hvalid : ¬ (vmid ≥ configMaxVmNum ∨ epoch = 0) := by
    intro hbad
    rw [WdtTable.pmSuspendVm, if_pos hbad] at hstatus
    exact absurd (show -eInval = 0 from hstatus) (by decide)
  rw [pmSuspendVm_eq hvalid h.monitored h.host h.vm] at hstatus
  have hfree : ¬ (w.entry vmid).restartPending = true := by
    intro hpending
    rw [if_pos hpending] at hstatus
    exact absurd (show -eBusy = 0 from hstatus) (by decide)
  rw [PmPath.suspend, PmPath.resume, pmSuspendVm_eq hvalid h.monitored h.host h.vm, if_neg hfree,
    WdtTable.pmResumeVm, if_neg hvalid, if_neg (by simp [h.monitored])]
  simp [WdtTable.set, WdtEntry.suspend, WdtEntry.slept]

/-- After either way the entry of the VM has slept. -/
theorem slept_path {path : PmPath} (h : Suspends cfg path env vmid epoch w) :
    (path.resume cfg env' vmid epoch (path.suspend cfg env vmid epoch w).1).1.entry vmid =
      (w.entry vmid).slept cfg (env.view vmid) env.now env'.now epoch := by
  cases path with
  | host => exact slept_host h
  | vm => exact slept_vm h

end

/--
**A suspend is not noticed, with the exception of `FrozenExactly`.**  For every deadline of a VM
that is suspended at `env.now` and resumed at `env'.now`, alone or with the host, the verdict at a
later time is the verdict on the deadline without the sleep exactly if the condition holds.
-/
theorem wdt_pm_transparency (cfg : WdtConfig) (path : PmPath) (env env' : WdtEnv)
    (vmid epoch : Nat) (w : WdtTable) (d : Deadline) (t : Nat)
    (hsuspend : Suspends cfg path env vmid epoch w)
    (hd : ((w.entry vmid).syncExpectedVcpus cfg (env.view vmid) env.now).HasDeadline cfg d)
    (htr : env.now ≤ env'.now) (ht : env'.now ≤ t) (hmax : t ≤ uint64Max) :
    ((path.resume cfg env' vmid epoch (path.suspend cfg env vmid epoch w).1).1.entry
        vmid).verdict cfg t d =
      ((w.entry vmid).syncExpectedVcpus cfg (env.view vmid) env.now).verdict cfg
        (env.now + (t - env'.now)) d ↔
      FrozenExactly cfg.timeoutTicks
        (((w.entry vmid).syncExpectedVcpus cfg (env.view vmid) env.now).since d) env.now env'.now
        t := by
  rw [slept_path hsuspend]
  obtain ⟨hslept, hsince⟩ := WdtEntry.slept_deadline env'.now epoch hd
  rw [WdtEntry.verdict_eq hslept, WdtEntry.verdict_eq hd, hsince]
  exact cfg.timeout_resumed htr ht hmax

/-! ### A guest with one vCPU and a timeout of ten ticks -/

def tenTicks : WdtConfig :=
  ⟨2, 0#64, 0, 10, 5, 1, Nat.zero_le _, Nat.le_of_ble_eq_true rfl, Nat.succ_pos 63⟩

/-- The clock, and a VM whose one vCPU runs. -/
def clockAt (now : Nat) : WdtEnv where
  now := now
  vmState := fun _ => .running
  isService := fun _ => false
  view := fun _ => ⟨1, fun _ => .running⟩
  configPresent := fun _ => true
  classify := .none
  sequence := 0
  waitVcpus := 0
  restartRet := 0
  addTimer := 0

/-- The vCPU of VM 1 has kicked at time 3. -/
def kickedAtThree : WdtTable :=
  (WdtTable.zero.kick tenTicks (clockAt 3) 1 0 7 WdtEntry.kickPerVcpuV1).1

/-- A sleep from 8 to 100: the deadline is over at 106, as it would have been at 14. -/
theorem wdt_pm_transparency_midway :
    ((PmPath.vm.resume tenTicks (clockAt 100) 1 9
        (PmPath.vm.suspend tenTicks (clockAt 8) 1 9 kickedAtThree).1).1.entry 1).verdict tenTicks
          106 (.vcpu 0) =
      ((kickedAtThree.entry 1).syncExpectedVcpus tenTicks ((clockAt 8).view 1) 8).verdict tenTicks
        (8 + (106 - 100)) (.vcpu 0) :=
  (wdt_pm_transparency tenTicks .vm (clockAt 8) (clockAt 100) 1 9 kickedAtThree (.vcpu 0) 106
    ⟨by decide, by decide, by decide, by decide⟩ (by decide) (by decide) (by decide)
    (by decide)).mpr (by decide)

/-- The verdict at the moment of the resume on a deadline suspended at the given time. -/
def verdictAtResume (path : PmPath) (ts tr : Nat) : Bool :=
  ((path.resume tenTicks (clockAt tr) 1 9
    (path.suspend tenTicks (clockAt ts) 1 9 kickedAtThree).1).1.entry 1).verdict tenTicks tr (.vcpu 0)

/--
At time 13 the age of the deadline is the timeout, and it has not timed out; suspended there it
has timed out as soon as it is resumed, in both ways.
-/
theorem wdt_pm_boundary_expires :
    ((kickedAtThree.entry 1).syncExpectedVcpus tenTicks ((clockAt 13).view 1) 13).verdict tenTicks
        13 (.vcpu 0) = false ∧
      verdictAtResume .host 13 100 = true ∧ verdictAtResume .vm 13 100 = true := by
  decide

end BeauOs.Wdt
