/-
What a woken thread may be behind.

A thread that wakes after a long sleep is moved up to the scheduler virtual time, `svt`.  This is
the virtual time of the running thread as it was when `pick_next` chose it: between two scheduling
decisions nothing charges the running thread and nothing refreshes `svt` (`SvtInv`).  A thread that
runs alone gets no timer, so there may be any time between two decisions, and a thread woken then
keeps a virtual time that lies behind by all that the running thread has used meanwhile
(`sleeper_keeps_credit`).

If the running thread stays runnable and has used up at most one unit since it was picked, `svt` is
at most one behind the smallest virtual time, and the wake puts the thread no further back than the
allowance (`wake_no_credit`).
-/
import BeauOs.Proofs.Sched.BvtVirtualTime

namespace BeauOs.Sched

/-- The virtual time of a thread, with the runtime up to `now` charged. -/
def avtAt (now : Nat) (s : Pcpu BvtData BvtControl) (t : Tid) : Int :=
  (chargedData now s.ctl s.pol t).avt

/-- Another thread of the pCPU that is runnable or running. -/
def OtherRunnable (ctl : SchedControl) (t u : Tid) : Prop :=
  u ≠ t ∧ ctl.Local u ∧ ctl.isActive u = true

instance (ctl : SchedControl) (t u : Tid) : Decidable (OtherRunnable ctl t u) :=
  inferInstanceAs (Decidable (_ ∧ _ ∧ _))

def Wakes (s : Pcpu BvtData BvtControl) (call : Env × Op) (t : Tid) : Prop :=
  s.ctl.isActive t = false ∧ (step schedBvt s call).ctl.isActive t = true

instance (s : Pcpu BvtData BvtControl) (call : Env × Op) (t : Tid) : Decidable (Wakes s call t) :=
  inferInstanceAs (Decidable (_ ∧ _))

/-- A thread that is woken is behind some other thread by no more than the allowance. -/
def NoCredit (s : Pcpu BvtData BvtControl) (call : Env × Op) (t : Tid) : Prop :=
  Wakes s call t → (∃ u ∈ s.ctl.threadList, OtherRunnable s.ctl t u) →
    ∃ u ∈ s.ctl.threadList, OtherRunnable s.ctl t u ∧
      avtAt call.1.now s u - bvtCsaMcu ≤ ((step schedBvt s call).pol.data t).avt

instance (s : Pcpu BvtData BvtControl) (call : Env × Op) (t : Tid) : Decidable (NoCredit s call t) :=
  inferInstanceAs (Decidable (_ → _ → _))

/-- The running thread goes on and has used at most one unit since it was picked. -/
def JustPicked (s : Pcpu BvtData BvtControl) (now : Nat) (t : Tid) : Prop :=
  OtherRunnable s.ctl t s.ctl.currObj ∧ (s.pol.data s.ctl.currObj).chargedMcu now ≤ 1

instance (s : Pcpu BvtData BvtControl) (now : Nat) (t : Tid) : Decidable (JustPicked s now t) :=
  inferInstanceAs (Decidable (_ ∧ _))

/-! ### Signed words -/

def IsInt64 (a : Int) : Prop := -9223372036854775808 ≤ a ∧ a < 9223372036854775808

theorem isInt64_wrap (a : Int) : IsInt64 (wrapInt64 a) := by
  unfold wrapInt64
  exact ⟨Int.le_bmod (by decide), Int.bmod_lt (by decide)⟩

theorem wrapInt64_le {a : Int} (h : -9223372036854775808 ≤ a) : wrapInt64 a ≤ a := by
  unfold wrapInt64 Int.bmod
  dsimp only
  split <;> omega

theorem le_wrapInt64 {a : Int} (h : a < 9223372036854775808) : a ≤ wrapInt64 a := by
  unfold wrapInt64 Int.bmod
  dsimp only
  split <;> omega

/-! ### The scheduler virtual time -/

/-- The scheduler virtual time is the running thread's, as it was when it was picked. -/
structure SvtInv (s : Pcpu BvtData BvtControl) : Prop where
  svt : s.ctl.currObj ≠ s.ctl.idle → (s.pol.data s.ctl.currObj).avt = s.pol.priv.svt
  svt_word : IsInt64 s.pol.priv.svt
  avt_word : ∀ t, IsInt64 (s.pol.data t).avt

section Steps

variable {mcu : Nat} {ratio : Tid → Nat} {s : Pcpu BvtData BvtControl} {t : Tid}

/-- A woken thread is not put further back than the allowance. -/
theorem adjustAvt_ge {d : BvtData} {svt : Int} (hsvt : IsInt64 svt) :
    svt - bvtCsaMcu < (d.adjustAvt svt).avt := by
  have hwrap : svt - bvtCsaMcu ≤ wrapInt64 (svt - bvtCsaMcu) := le_wrapInt64 (by
    have := hsvt.2
    unfold bvtCsaMcu
    omega)
  unfold BvtData.adjustAvt
  dsimp only
  split
  · omega
  · unfold bvtCsaMcu
    omega

/-- A thread that is at the scheduler virtual time stays there. -/
theorem adjustAvt_self {d : BvtData} : (d.adjustAvt d.avt).avt = d.avt := by
  unfold BvtData.adjustAvt
  dsimp only
  split <;> rfl

theorem SvtInv.wake (h : SvtInv s) (hplain : (s.pol.data t).Plain mcu (ratio t)) (env : Env)
    {ctl : SchedControl} (hcur : ctl.currObj = s.ctl.currObj) (hidle : ctl.idle = s.ctl.idle)
    {s' : Pcpu BvtData BvtControl} (hctl : s'.ctl.currObj = ctl.currObj)
    (hctl' : s'.ctl.idle = ctl.idle) (hpol : s'.pol = schedBvtWake env ctl t s.pol) : SvtInv s' := by
  have hdata := schedBvtWake_data hplain env ctl
  have hpriv : (schedBvtWake env ctl t s.pol).priv.svt = s.pol.priv.svt := by
    rw [schedBvtWake_plain hplain]
    unfold bvtRunqueueAdd
    dsimp only
    split <;> rfl
  have hwoken : (((s.pol.data t).adjustAvt s.pol.priv.svt).updateEvt).avt =
      ((s.pol.data t).adjustAvt s.pol.priv.svt).avt := rfl
  refine ⟨fun hne => ?_, ?_, fun u => ?_⟩
  · rw [hctl, hctl', hcur, hidle] at hne
    rw [hpol, hctl, hcur, hdata, hpriv]
    split
    next hu => rw [hwoken, ← hu, ← h.svt hne, adjustAvt_self]
    next => exact h.svt hne
  · rw [hpol, hpriv]
    exact h.svt_word
  · rw [hpol, hdata]
    split
    · rw [hwoken]
      unfold BvtData.adjustAvt
      dsimp only
      split
      · exact h.avt_word t
      · exact h.svt_word
    · exact h.avt_word u

theorem SvtInv.pickNext (h : SvtInv s) (hplain : ∀ t, (s.pol.data t).Plain mcu (ratio t))
    (now : Nat) {s' : Pcpu BvtData BvtControl}
    (hpol : s'.pol = (schedBvtPickNext now s.ctl s.pol).2)
    (hcur : s'.ctl.currObj = (schedBvtPickNext now s.ctl s.pol).1)
    (hidle : s'.ctl.idle = s.ctl.idle) : SvtInv s' := by
  have havt : ∀ t, IsInt64 (chargedData now s.ctl s.pol t).avt := by
    intro t
    unfold chargedData
    split
    · rw [((hplain t).charge now).2.2.1]
      exact isInt64_wrap _
    · exact h.avt_word t
  have hword : ∀ t, IsInt64 (s'.pol.data t).avt := fun t => by
    rw [hpol, (pickNext_avt now s.ctl s.pol t).1]
    exact havt t
  cases hq : (schedBvtPickNext now s.ctl s.pol).2.priv.runqueue with
  | nil =>
    -- nobody to run: the old value stays, and idle is current
    obtain ⟨hqueue, hnext⟩ := schedBvtPickNext_queue now s.ctl s.pol
    rw [← hqueue, hq] at hnext
    refine ⟨fun hne => ?_, ?_, hword⟩
    · rw [hcur, hnext, hidle] at hne
      exact absurd rfl hne
    · rw [hpol, pickNext_svt_idle hq]
      exact h.svt_word
  | cons first rest =>
    obtain ⟨hnext, hfirst, hsvt, -⟩ := pickNext_head hq
    refine ⟨fun _ => ?_, ?_, hword⟩
    · rw [hpol, hcur, hnext, hsvt, hfirst]
    · rw [hpol, hsvt]
      exact havt first

theorem schedule_idle (now : Nat) (suspend reset : Bool) :
    (schedule schedBvt now suspend reset s).ctl.idle = s.ctl.idle :=
  switchTo_idle.trans (consumePriorities_view schedBvt now s).1.idle

theorem SvtInv.step (h : SvtInv s) (hvt : VtInv mcu ratio s) (call : Env × Op)
    (hvalid : call.2.Valid s.ctl) : SvtInv (step schedBvt s call) := by
  have hkind := step_kind schedBvt s call hvalid
  generalize BeauOs.Sched.step schedBvt s call = s' at hkind ⊢
  -- nothing moves but flags
  have hsame {s' : Pcpu BvtData BvtControl} (hcur : s'.ctl.currObj = s.ctl.currObj)
      (hidle : s'.ctl.idle = s.ctl.idle) (hdata : s'.pol.data = s.pol.data)
      (hsvt : s'.pol.priv.svt = s.pol.priv.svt) : SvtInv s' := by
    refine ⟨fun hne => ?_, hsvt ▸ h.svt_word, fun u => hdata ▸ h.avt_word u⟩
    rw [hcur, hdata, hsvt]
    exact h.svt (by rwa [hcur, hidle] at hne)
  cases hkind with
  | view hview => exact hsame hview.currObj hview.idle rfl rfl
  | @sleep env _ ctl t hview =>
    obtain ⟨hcur, hidle⟩ := sleepThreadLocked_curr schedBvt env t ⟨ctl, s.pol⟩
    exact hsame (hcur.trans hview.currObj) (hidle.trans hview.idle) rfl rfl
  | @wake env _ ctl t hview _ hwake =>
    obtain ⟨hcur, hidle⟩ := wakeThreadLocked_curr schedBvt env t ⟨ctl, s.pol⟩
    exact h.wake (hvt.plain t) env hview.currObj hview.idle hcur hidle
      (wakeThreadLocked_pol (s := ⟨ctl, s.pol⟩) schedBvt env hwake)
  | @timer env =>
    obtain ⟨hdata, hpriv⟩ := timerCallback_bvt env.now s
    have hview := (timerCallback_cases schedBvt env.now s).1
    exact hsame hview.currObj hview.idle hdata (by rw [hpriv])
  | @schedule env suspend reset =>
    obtain ⟨hwork, hpick⟩ := schedule_plain hvt.link.ctl hvt.plain env.now suspend reset
    have hidle := schedule_idle (s := s) env.now suspend reset
    cases hw : schedIdleWorkPending s.ctl suspend reset with
    | true =>
      obtain ⟨hpol, hcur⟩ := hwork hw
      refine ⟨fun hne => ?_, hpol ▸ h.svt_word, fun u => hpol ▸ h.avt_word u⟩
      rw [hcur, hidle] at hne
      exact absurd rfl hne
    | false =>
      obtain ⟨hpol, hcur⟩ := hpick hw
      exact h.pickNext hvt.plain env.now hpol hcur hidle

/-- Only a wake makes a thread active. -/
theorem Wakes.wake (hvt : VtInv mcu ratio s) {call : Env × Op} (hvalid : call.2.Valid s.ctl)
    (h : Wakes s call t) :
    (step schedBvt s call).pol.data t =
      ((s.pol.data t).adjustAvt s.pol.priv.svt).updateEvt := by
  obtain ⟨hbefore, hafter⟩ := h
  have hkind := step_kind schedBvt s call hvalid
  generalize BeauOs.Sched.step schedBvt s call = s' at hkind hafter ⊢
  have hsame (h : s'.ctl.isActive t = s.ctl.isActive t) : False := by
    rw [h, hbefore] at hafter
    exact Bool.false_ne_true hafter
  cases hkind with
  | view hview => exact (hsame (hview.isActive t)).elim
  | @sleep env _ ctl u hview htarget =>
    obtain ⟨-, -, -, hinact, -, hother⟩ := sleepThreadLocked_ctl schedBvt env (s := ⟨ctl, s.pol⟩)
      (hview.ctlInv hvt.link.ctl) (htarget.sameView hview)
    by_cases hu : t = u
    · rw [hu, hinact] at hafter
      exact absurd hafter Bool.false_ne_true
    · exact (hsame ((hother t hu).1.trans (hview.isActive t))).elim
  | @wake env _ ctl u hview htarget hwake =>
    obtain ⟨-, -, -, -, hother⟩ := wakeThreadLocked_ctl schedBvt env (s := ⟨ctl, s.pol⟩)
      (hview.ctlInv hvt.link.ctl) (htarget.sameView hview) hwake
    by_cases hu : t = u
    · rw [wakeThreadLocked_pol (s := ⟨ctl, s.pol⟩) schedBvt env hwake]
      show (schedBvtWake env ctl u s.pol).data t = _
      rw [schedBvtWake_data (hvt.plain u), if_pos hu, hu]
    · exact (hsame ((hother t hu).1.trans (hview.isActive t))).elim
  | @timer env => exact (hsame ((timerCallback_cases schedBvt env.now s).1.isActive t)).elim
  | @schedule env suspend reset =>
    -- a context switch leaves active what was active
    obtain ⟨h', -, -⟩ := consumePriorities_inv bvtLinkSpec hvt.link env.now
    have hview := (consumePriorities_view schedBvt env.now s).1
    obtain ⟨-, hlocal, hst, -⟩ := selectNext_inv bvtLinkSpec h' env.now suspend reset
    have hclear : SameView (consumePriorities schedBvt env.now s).ctl
        { (consumePriorities schedBvt env.now s).ctl with needReschedule := false } :=
      SameView.of_eq rfl rfl rfl rfl rfl
    exact (hsame ((isActive_switchTo (hclear.ctlInv h'.ctl) (hclear.local_iff.mpr hlocal) hst
      t).trans ((hclear.isActive t).trans (hview.isActive t)))).elim

/-- With a running thread that was just picked, a wake earns no credit. -/
theorem noCredit_of_justPicked (hvt : VtInv mcu ratio s) (h : SvtInv s) {call : Env × Op}
    (hvalid : call.2.Valid s.ctl)
    (hpicked : (∃ u ∈ s.ctl.threadList, OtherRunnable s.ctl t u) → JustPicked s call.1.now t) :
    NoCredit s call t := by
  intro hwakes hother
  obtain ⟨hcur, hcharged⟩ := hpicked hother
  have hidle : s.ctl.currObj ≠ s.ctl.idle := (SchedControl.isActive_iff.mp hcur.2.2).1
  have hstatus : (s.ctl.thread s.ctl.currObj).status ≠ .blocked := by
    rw [hvt.link.ctl.curr_running]
    exact ThreadState.noConfusion
  refine ⟨s.ctl.currObj, hvt.link.ctl.registered _ hcur.2.1 hstatus, hcur, ?_⟩
  rw [hwakes.wake hvt hvalid]
  show avtAt call.1.now s s.ctl.currObj - bvtCsaMcu ≤
    ((s.pol.data t).adjustAvt s.pol.priv.svt).avt
  have hge : s.pol.priv.svt - bvtCsaMcu < ((s.pol.data t).adjustAvt s.pol.priv.svt).avt :=
    adjustAvt_ge h.svt_word
  have hle : avtAt call.1.now s s.ctl.currObj ≤ s.pol.priv.svt + 1 := by
    unfold avtAt
    rw [chargedData_cur _ _ hidle, ((hvt.plain _).charge _).2.2.1, h.svt hidle]
    have hlo := h.svt_word.1
    exact (wrapInt64_le (by omega)).trans (by omega)
  omega

end Steps

/-! ### Main result -/

/-- Virtual times a thread may be created with. -/
def BvtData.IsFresh (khz : Nat) (d : BvtData) : Prop := d.IsInit khz ∧ IsInt64 d.avt

theorem svtInv_reached {cfg : BootConfig BvtData}
    (hfresh : cfg.Fresh (BvtData.IsFresh cfg.tickrate)) (hrate : 0 < cfg.tickrate) {calls : List (Env × Op)}
    (hrun : Admitted schedBvt cfg BvtControl.init calls) :
    VtInv (bvtMcuMs * usToTicks cfg.tickrate 1000) cfg.vtRatio
        (reached schedBvt cfg BvtControl.init calls) ∧
      SvtInv (reached schedBvt cfg BvtControl.init calls) := by
  have hinit : cfg.Fresh (BvtData.IsInit cfg.tickrate) := fun c hc => (hfresh c hc).1
  have hboot : SvtInv (cfg.boot BvtControl.init) :=
    ⟨fun hne => absurd rfl hne, show IsInt64 0 from ⟨by decide, by decide⟩,
      fun t => (cfg.boot_data hfresh BvtControl.init t).2⟩
  exact Run.inv_exec (fun s call (hs : VtInv _ _ s ∧ SvtInv s) hvalid =>
    ⟨hs.1.step call hvalid, hs.2.step hs.1 call hvalid⟩)
    ⟨vtInv_reached hinit hrate (show Admitted schedBvt cfg BvtControl.init [] from trivial), hboot⟩
    hrun

/--
**A wake soon after a scheduling decision earns no credit.**  In every reachable state, a thread
that is woken while another one is runnable is behind the smallest virtual time by no more than the
allowance, if the running thread goes on and has used at most one unit since it was picked.
-/
theorem wake_no_credit (cfg : BootConfig BvtData)
    (hfresh : cfg.Fresh (BvtData.IsFresh cfg.tickrate)) (hrate : 0 < cfg.tickrate)
    (history : List (Env × Op)) (hhistory : Admitted schedBvt cfg BvtControl.init history)
    (call : Env × Op) (t : Tid)
    (hvalid : call.2.Valid (reached schedBvt cfg BvtControl.init history).ctl)
    (hpicked : (∃ u ∈ (reached schedBvt cfg BvtControl.init history).ctl.threadList,
        OtherRunnable (reached schedBvt cfg BvtControl.init history).ctl t u) →
      JustPicked (reached schedBvt cfg BvtControl.init history) call.1.now t) :
    NoCredit (reached schedBvt cfg BvtControl.init history) call t := by
  obtain ⟨hvt, hsvt⟩ := svtInv_reached hfresh hrate hhistory
  exact noCredit_of_justPicked hvt hsvt hvalid hpicked

/-- Two vCPUs run, the second sleeps, and the first goes on alone without a timer. -/
def sleeperHistory : List (Env × Op) :=
  [(⟨1, true⟩, .wake 1), (⟨2, true⟩, .schedule false false), (⟨3, true⟩, .wake 2),
    (⟨4, true⟩, .schedule false false), (⟨5, true⟩, .sleep 2), (⟨6, true⟩, .schedule false false)]

theorem wake_no_credit_soon :
    Wakes (reached schedBvt (.pair plainBvt) BvtControl.init sleeperHistory)
        (⟨7, true⟩, .wake 2) 2 ∧
      NoCredit (reached schedBvt (.pair plainBvt) BvtControl.init sleeperHistory)
        (⟨7, true⟩, .wake 2) 2 := by
  have hfresh : (BootConfig.pair plainBvt).Fresh (BvtData.IsFresh 1000) := by
    intro c hc
    simp only [BootConfig.pair, List.mem_cons, List.not_mem_nil, or_false] at hc
    rcases hc with rfl | rfl | rfl <;>
      exact ⟨⟨_, 1, 0, 0, rfl⟩, by unfold IsInt64; decide⟩
  exact ⟨by decide +kernel, wake_no_credit (.pair plainBvt) hfresh (by decide) sleeperHistory
    (by decide +kernel) (⟨7, true⟩, .wake 2) 2 (by decide +kernel) (by decide +kernel)⟩

/--
**A sleeper is paid for its sleep.**  After ten seconds in which the first vCPU ran alone, the
second one is woken with the virtual time of before, ten million units behind.
-/
theorem sleeper_keeps_credit :
    let s := reached schedBvt (.pair plainBvt) BvtControl.init sleeperHistory
    let call : Env × Op := (⟨10000006, true⟩, .wake 2)
    Admitted schedBvt (.pair plainBvt) BvtControl.init sleeperHistory ∧ call.2.Valid s.ctl ∧
      Wakes s call 2 ∧ OtherRunnable s.ctl 2 1 ∧
      ((step schedBvt s call).pol.data 2).avt = 2 ∧ avtAt 10000006 s 1 = 10240002 ∧
      ¬NoCredit s call 2 := by
  decide +kernel

end BeauOs.Sched
