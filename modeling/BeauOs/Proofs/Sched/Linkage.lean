/-
No runnable thread is lost, for any policy that keeps its queues the way CBS, RTDS and
BFP do.

Those three policies unlink the thread they select, leave it unlinked while it runs, and
link it again in a later `pick_next`.  `LinkSpec` says what each hook may do to the
queues; it is all the framework proof below knows about a policy.  It does not ask that the
selected thread is unlinked, so it also fits a policy that keeps the running thread queued.

Two facts are kept apart.  `LinkInv` needs no assumption: a thread is linked at most once,
and only threads that are active (current and not about to block, or RUNNABLE) are
linked, so a BLOCKED thread is in no queue.  `RunnableLinked`, that every RUNNABLE thread
is linked, is lost in one branch of `schedule()`: pending management work selects idle
without asking the policy, and the outgoing thread becomes RUNNABLE without being linked.
`KeepsLinked` is the condition on a step under which that does not happen: the outgoing
thread is idle, about to block, or already linked.
-/
import BeauOs.Lib.Run
import BeauOs.Proofs.Sched.Steps

namespace BeauOs.Sched

variable {D P : Type}

/-- No thread a refresh can meet is active and about to block at once. -/
def ActiveNotBlocking (ctl : SchedControl) (links : P → Tid → Nat) (priv : P) : Prop :=
  ∀ u, (links priv u ≠ 0 ∨ u = ctl.currObj) → ctl.isActive u = true →
    (ctl.thread u).beBlocking = false

/--
What the hooks of a policy do to its queues.  `links` counts how often a thread is linked,
`Wf` is the policy's own queue invariant, and `Relinks now` is the condition, if any, under
which a refresh at time `now` drops no thread.
-/
structure LinkSpec (sch : AcrnScheduler D P) (links : P → Tid → Nat)
    (Wf : (Tid → D) → P → Prop) (Relinks : Nat → (Tid → D) → P → Prop) : Prop where
  le_one : ∀ {data priv}, Wf data priv → ∀ t, links priv t ≤ 1
  wake : ∀ (env : Env) (ctl : SchedControl) (t : Tid) (p : PolicyState D P),
    Wf p.data p.priv → links p.priv t = 0 →
    let p' := sch.callWake env ctl t p
    Wf p'.data p'.priv ∧ links p'.priv t = 1 ∧ ∀ u, u ≠ t → links p'.priv u = links p.priv u
  sleep : ∀ (env : Env) (ctl : SchedControl) (t : Tid) (p : PolicyState D P), Wf p.data p.priv →
    let p' := sch.callSleep env ctl t p
    Wf p'.data p'.priv ∧ links p'.priv t = 0 ∧ ∀ u, u ≠ t → links p'.priv u = links p.priv u
  prioritize : ∀ (now : Nat) (ctl : SchedControl) (t : Tid) (p : PolicyState D P),
    Wf p.data p.priv →
    let p' := sch.callPrioritize now ctl t p
    Wf p'.data p'.priv ∧ (∀ u, u ≠ t → links p'.priv u = links p.priv u) ∧
      (links p.priv t ≠ 0 → links p'.priv t ≠ 0) ∧
      (t = ctl.currObj → links p'.priv t = links p.priv t)
  prioritize_relinks : ∀ (now : Nat) (ctl : SchedControl) (t : Tid) (p : PolicyState D P),
    Relinks now p.data p.priv →
    let p' := sch.callPrioritize now ctl t p
    Relinks now p'.data p'.priv
  timer : ∀ (now : Nat) (ctl : SchedControl) (p : PolicyState D P), Wf p.data p.priv →
    (∀ u, links p.priv u ≠ 0 → ctl.isActive u = true) → ActiveNotBlocking ctl links p.priv →
    let p' := (sch.timerHandler now ctl p).1
    Wf p'.data p'.priv ∧
      (∀ u, links p'.priv u ≠ 0 →
        links p.priv u ≠ 0 ∨ (u = ctl.currObj ∧ ctl.isActive u = true)) ∧
      (Relinks now p.data p.priv → ∀ u, links p.priv u ≠ 0 → links p'.priv u ≠ 0)
  pickNext : ∀ (now : Nat) (ctl : SchedControl) (p : PolicyState D P), Wf p.data p.priv →
    (∀ u, links p.priv u ≠ 0 → ctl.isActive u = true) → ActiveNotBlocking ctl links p.priv →
    let next := (sch.pickNext now ctl p).1
    let p' := (sch.pickNext now ctl p).2
    Wf p'.data p'.priv ∧
      (next ≠ ctl.idle →
        links p.priv next ≠ 0 ∨ (next = ctl.currObj ∧ ctl.isActive next = true)) ∧
      (∀ u, links p'.priv u ≠ 0 →
        links p.priv u ≠ 0 ∨ (u = ctl.currObj ∧ ctl.isActive u = true)) ∧
      (Relinks now p.data p.priv → ∀ u, u ≠ next →
        (links p.priv u ≠ 0 ∨ (u = ctl.currObj ∧ ctl.isActive u = true)) → links p'.priv u ≠ 0)

/-- What holds of the queues without any assumption on the run. -/
structure LinkInv (links : P → Tid → Nat) (Wf : (Tid → D) → P → Prop) (s : Pcpu D P) : Prop where
  ctl : CtlInv s.ctl
  wf : Wf s.pol.data s.pol.priv
  linked : ∀ t, links s.pol.priv t ≠ 0 → s.ctl.isActive t = true ∧ s.ctl.Local t

def RunnableLinked (links : P → Tid → Nat) (s : Pcpu D P) : Prop :=
  ∀ t, s.ctl.Local t → t ≠ s.ctl.idle → (s.ctl.thread t).status = .runnable →
    links s.pol.priv t ≠ 0

/-- The steps after which no RUNNABLE thread is left unlinked. -/
def KeepsLinked (links : P → Tid → Nat) (Relinks : Nat → (Tid → D) → P → Prop) (s : Pcpu D P)
    (call : Env × Op) : Prop :=
  match call.2 with
  | .timer => Relinks call.1.now s.pol.data s.pol.priv
  | .schedule suspend reset =>
    if schedIdleWorkPending s.ctl suspend reset = true then
      s.ctl.currObj = s.ctl.idle ∨ (s.ctl.thread s.ctl.currObj).beBlocking = true ∨
        links s.pol.priv s.ctl.currObj ≠ 0
    else Relinks call.1.now s.pol.data s.pol.priv
  | _ => True

section Steps

variable {sch : AcrnScheduler D P} {links : P → Tid → Nat} {Wf : (Tid → D) → P → Prop}
  {Relinks : Nat → (Tid → D) → P → Prop} {s : Pcpu D P} {env : Env} {t : Tid}

/-! ### Steps that touch neither thread states nor queues -/

theorem LinkInv.sameView (h : LinkInv links Wf s) {ctl : SchedControl}
    (hview : SameView s.ctl ctl) : LinkInv links Wf ⟨ctl, s.pol⟩ where
  ctl := hview.ctlInv h.ctl
  wf := h.wf
  linked u hu := by
    rw [hview.isActive, hview.local_iff]
    exact h.linked u hu

theorem RunnableLinked.sameView (h : RunnableLinked links s) {ctl : SchedControl}
    (hview : SameView s.ctl ctl) : RunnableLinked links ⟨ctl, s.pol⟩ := by
  intro u hu hidle hst
  have hidle' : u ≠ s.ctl.idle := hview.idle ▸ hidle
  exact h u (hview.local_iff.mp hu) hidle' ((hview.status u).symm.trans hst)

theorem LinkInv.activeNotBlocking (h : LinkInv links Wf s) :
    ActiveNotBlocking s.ctl links s.pol.priv := by
  intro u hu hact
  have hlocal : s.ctl.Local u := by
    rcases hu with hl | rfl
    · exact (h.linked u hl).2
    · exact h.ctl.curr_local
  rw [Bool.eq_false_iff]
  intro hb
  rw [h.ctl.not_active_of_blocking hlocal hb] at hact
  cases hact

/-! ### Sleep and wake -/

variable (spec : LinkSpec sch links Wf Relinks)

include spec

section

variable (h : LinkInv links Wf s)

include h

theorem LinkInv.sleepThreadLocked
    (ht : s.ctl.Target t) : LinkInv links Wf (sleepThreadLocked sch env t s).1 := by
  obtain ⟨hctl, hloc, -, -, -, hother⟩ :=
    sleepThreadLocked_ctl sch env h.ctl ht
  obtain ⟨hwf, hzero, hsame⟩ := spec.sleep env s.ctl t s.pol h.wf
  refine ⟨hctl, hwf, ?_⟩
  intro u hu
  by_cases hut : u = t
  · exact absurd (hut ▸ hzero) hu
  · obtain ⟨hact, hl⟩ := h.linked u (by rw [← hsame u hut]; exact hu)
    exact ⟨(hother u hut).1.trans hact, (hloc u).mpr hl⟩

theorem RunnableLinked.sleepThreadLocked (hrl : RunnableLinked links s)
    (ht : s.ctl.Target t) : RunnableLinked links (sleepThreadLocked sch env t s).1 := by
  obtain ⟨-, hloc, hid, -, hst, hother⟩ :=
    sleepThreadLocked_ctl sch env h.ctl ht
  obtain ⟨-, -, hsame⟩ := spec.sleep env s.ctl t s.pol h.wf
  intro u hu huidle hrun
  by_cases hut : u = t
  · exact absurd (hut ▸ hrun) hst
  rw [(hother u hut).2] at hrun
  have hlink := hrl u ((hloc u).mp hu) (hid ▸ huidle) hrun
  show links (sch.callSleep env s.ctl t s.pol).priv u ≠ 0
  rw [hsame u hut]
  exact hlink

omit spec in
theorem LinkInv.wake_unlinked (ht : s.ctl.Target t)
    (hwake : ((s.ctl.thread t).isBlocked || (s.ctl.thread t).beBlocking) = true) :
    links s.pol.priv t = 0 := by
  have hinact := h.ctl.not_active_of_wake ht.here hwake
  by_contra hne
  rw [(h.linked t hne).1] at hinact
  cases hinact

theorem LinkInv.wakeThreadLocked (ht : s.ctl.Target t)
    (hwake : ((s.ctl.thread t).isBlocked || (s.ctl.thread t).beBlocking) = true) :
    LinkInv links Wf (wakeThreadLocked sch env t s) := by
  obtain ⟨hctl, hloc, -, hact, hother⟩ := wakeThreadLocked_ctl sch env h.ctl ht hwake
  obtain ⟨hwf, -, hsame⟩ := spec.wake env s.ctl t s.pol h.wf (h.wake_unlinked ht hwake)
  have hpol := wakeThreadLocked_pol sch env hwake
  refine ⟨hctl, by rw [hpol]; exact hwf, ?_⟩
  intro u hu
  rw [hpol] at hu
  by_cases hut : u = t
  · subst hut
    exact ⟨hact, (hloc u).mpr ht.here⟩
  · obtain ⟨hua, hul⟩ := h.linked u (by rw [← hsame u hut]; exact hu)
    exact ⟨(hother u hut).1.trans hua, (hloc u).mpr hul⟩

theorem RunnableLinked.wakeThreadLocked (hrl : RunnableLinked links s) (ht : s.ctl.Target t)
    (hwake : ((s.ctl.thread t).isBlocked || (s.ctl.thread t).beBlocking) = true) :
    RunnableLinked links (wakeThreadLocked sch env t s) := by
  obtain ⟨-, hloc, hid, -, hother⟩ := wakeThreadLocked_ctl sch env h.ctl ht hwake
  obtain ⟨-, hone, hsame⟩ := spec.wake env s.ctl t s.pol h.wf (h.wake_unlinked ht hwake)
  intro u hu huidle hst
  rw [wakeThreadLocked_pol sch env hwake]
  by_cases hut : u = t
  · subst hut
    omega
  · rw [(hother u hut).2] at hst
    rw [hsame u hut]
    exact hrl u ((hloc u).mp hu) (hid ▸ huidle) hst

/-! ### Consuming priority requests -/

/-- The priority hook of an active thread may link that thread. -/
theorem LinkInv.prioritize (now : Nat) (hlocal : s.ctl.Local t) (hact : s.ctl.isActive t = true) :
    LinkInv links Wf ⟨s.ctl, sch.callPrioritize now s.ctl t s.pol⟩ := by
  obtain ⟨hwf, hother, -, -⟩ := spec.prioritize now s.ctl t s.pol h.wf
  refine ⟨h.ctl, hwf, fun u hu => ?_⟩
  by_cases hut : u = t
  · subst hut
    exact ⟨hact, hlocal⟩
  · exact h.linked u (hother u hut ▸ hu)

/-- The scan keeps the queues in order, and nothing linked is unlinked. -/
theorem consumePriorities_inv (now : Nat) :
    let s' := consumePriorities sch now s
    LinkInv links Wf s' ∧
      (∀ u, links s.pol.priv u ≠ 0 → links s'.pol.priv u ≠ 0) ∧
      (Relinks now s.pol.data s.pol.priv → Relinks now s'.pol.data s'.pol.priv) := by
  refine consumePriorities_rule (fun s' => LinkInv links Wf s' ∧
    (∀ u, links s.pol.priv u ≠ 0 → links s'.pol.priv u ≠ 0) ∧
    (Relinks now s.pol.data s.pol.priv → Relinks now s'.pol.data s'.pol.priv))
    (fun _ h => h.1.ctl) (fun _ _ hv h => ⟨h.1.sameView hv, h.2⟩) ?_
    ⟨h, fun _ hu => hu, fun hr => hr⟩
  rintro s' t hlocal hact ⟨h', hlinks, hrel⟩
  obtain ⟨-, hother, hkeep, -⟩ := spec.prioritize now s'.ctl t s'.pol h'.wf
  refine ⟨h'.prioritize spec now hlocal hact, fun u hu => ?_,
    fun hr => spec.prioritize_relinks now _ t s'.pol (hrel hr)⟩
  by_cases hut : u = t
  · exact hut ▸ hkeep (hut ▸ hlinks u hu)
  · show links (sch.callPrioritize now _ t s'.pol).priv u ≠ 0
    rw [hother u hut]
    exact hlinks u hu

/-! ### `schedule()` -/

variable {now : Nat}

omit spec in
/-- Which thread a switch may take, and what the policy may have linked by then. -/
theorem LinkInv.switchTo {next : Tid} {pol : PolicyState D P} (hwf : Wf pol.data pol.priv)
    (hlocal : s.ctl.Local next) (hst : (s.ctl.thread next).status ≠ .blocked)
    (hlinks : ∀ u, links pol.priv u ≠ 0 →
      links s.pol.priv u ≠ 0 ∨ (u = s.ctl.currObj ∧ s.ctl.isActive u = true)) :
    LinkInv links Wf ⟨switchTo s.ctl now next, pol⟩ := by
  refine ⟨h.ctl.switchTo hlocal hst, hwf, ?_⟩
  intro u hu
  have hactive : s.ctl.isActive u = true ∧ s.ctl.Local u := by
    rcases hlinks u hu with hold | ⟨hcur, hact⟩
    · exact h.linked u hold
    · exact ⟨hact, hcur ▸ h.ctl.curr_local⟩
  exact ⟨(isActive_switchTo h.ctl hlocal hst u).trans hactive.1, switchTo_local.mpr hactive.2⟩

omit spec in
/-- The outgoing thread, if it stays runnable, and every other RUNNABLE thread are linked. -/
theorem RunnableLinked.switchTo {next : Tid} {pol : PolicyState D P}
    (hprev : s.ctl.currObj ≠ next → s.ctl.isActive s.ctl.currObj = true →
      links pol.priv s.ctl.currObj ≠ 0)
    (hother : ∀ u, s.ctl.Local u → u ≠ s.ctl.idle → u ≠ next → u ≠ s.ctl.currObj →
      (s.ctl.thread u).status = .runnable → links pol.priv u ≠ 0) :
    RunnableLinked links ⟨switchTo s.ctl now next, pol⟩ := by
  intro u hu hidle hst
  rw [switchTo_idle] at hidle
  have hul := switchTo_local.mp hu
  by_cases hcur : s.ctl.currObj = next
  · change ((BeauOs.Sched.switchTo s.ctl now next).thread u).status = .runnable at hst
    rw [switchTo_curr hcur] at hst
    have hne : u ≠ s.ctl.currObj := by
      rintro rfl
      rw [h.ctl.curr_running] at hst
      cases hst
    exact hother u hul hidle (hcur ▸ hne) hne hst
  by_cases hnext : u = next
  · rw [hnext, switchTo_next hcur] at hst
    cases hst
  by_cases hu : u = s.ctl.currObj
  · subst hu
    refine hprev hcur (h.ctl.curr_active_iff.mpr ⟨hidle, ?_⟩)
    rw [switchTo_prev hcur] at hst
    by_contra hb
    rw [Bool.not_eq_false] at hb
    simp [hb] at hst
  · rw [switchTo_other hu hnext] at hst
    exact hother u hul hidle hnext hu hst

theorem selectNext_inv (now : Nat) (suspend reset : Bool) :
    let sel := selectNext sch now suspend reset s
    Wf sel.2.data sel.2.priv ∧ s.ctl.Local sel.1 ∧
      (s.ctl.thread sel.1).status ≠ .blocked ∧
      (∀ u, links sel.2.priv u ≠ 0 →
        links s.pol.priv u ≠ 0 ∨ (u = s.ctl.currObj ∧ s.ctl.isActive u = true)) := by
  have hactive : ∀ u, links s.pol.priv u ≠ 0 → s.ctl.isActive u = true :=
    fun u hu => (h.linked u hu).1
  unfold selectNext
  by_cases hwork : schedIdleWorkPending s.ctl suspend reset = true
  · rw [if_pos hwork]
    exact ⟨h.wf, h.ctl.idle_local, h.ctl.idle_status, fun u hu => .inl hu⟩
  rw [if_neg hwork]
  obtain ⟨hwf, hnext, hlinks, -⟩ := spec.pickNext now s.ctl s.pol h.wf hactive
    h.activeNotBlocking
  refine ⟨hwf, ?_, ?_, hlinks⟩
  · by_cases hidle : (sch.pickNext now s.ctl s.pol).1 = s.ctl.idle
    · rw [hidle]
      exact h.ctl.idle_local
    · rcases hnext hidle with hl | ⟨hcur, -⟩
      · exact (h.linked _ hl).2
      · rw [hcur]
        exact h.ctl.curr_local
  · by_cases hidle : (sch.pickNext now s.ctl s.pol).1 = s.ctl.idle
    · rw [hidle]
      exact h.ctl.idle_status
    · intro hb
      rcases hnext hidle with hl | ⟨hcur, -⟩
      · have hna := h.ctl.not_active_of_blocked (h.linked _ hl).2 hb
        rw [hactive _ hl] at hna
        cases hna
      · rw [hcur, h.ctl.curr_running] at hb
        cases hb

theorem LinkInv.schedule {suspend reset : Bool} : LinkInv links Wf (schedule sch now suspend reset s) := by
  obtain ⟨h₁, -, -⟩ := consumePriorities_inv spec h now
  have hview : SameView (consumePriorities sch now s).ctl
      { (consumePriorities sch now s).ctl with needReschedule := false } :=
    SameView.of_eq rfl rfl rfl rfl rfl
  obtain ⟨hwf, hlocal, hst, hlinks⟩ := selectNext_inv spec h₁ now suspend reset
  exact (h₁.sameView hview).switchTo hwf (hview.local_iff.mpr hlocal) hst hlinks

theorem RunnableLinked.schedule {suspend reset : Bool} (hrl : RunnableLinked links s)
    (hcond : KeepsLinked links Relinks s (env, .schedule suspend reset)) :
    RunnableLinked links (schedule sch env.now suspend reset s) := by
  obtain ⟨h₁, l₁, r₁⟩ := consumePriorities_inv spec h env.now
  have v₁ := (consumePriorities_view sch env.now s).1
  have hview : SameView (consumePriorities sch env.now s).ctl
      { (consumePriorities sch env.now s).ctl with needReschedule := false } :=
    SameView.of_eq rfl rfl rfl rfl rfl
  have hwork := schedIdleWorkPending_consume sch env.now s suspend reset
  have hrl₁ : RunnableLinked links (consumePriorities sch env.now s) := by
    intro u hu hidle hst
    exact l₁ u (hrl u (v₁.local_iff.mp hu) (v₁.idle ▸ hidle) ((v₁.status u).symm.trans hst))
  obtain ⟨-, -, -, hkeep⟩ := spec.pickNext env.now
    (consumePriorities sch env.now s).ctl (consumePriorities sch env.now s).pol h₁.wf
    (fun u hu => (h₁.linked u hu).1) h₁.activeNotBlocking
  unfold KeepsLinked at hcond
  dsimp only at hcond
  refine RunnableLinked.switchTo (h₁.sameView hview) ?_ ?_
  · -- the outgoing thread
    intro hne hact
    have hact' : (consumePriorities sch env.now s).ctl.isActive
        (consumePriorities sch env.now s).ctl.currObj = true := hact
    revert hne
    unfold selectNext
    by_cases hw : schedIdleWorkPending s.ctl suspend reset = true
    · rw [hwork, if_pos hw]
      intro hne
      rw [if_pos hw] at hcond
      obtain ⟨hcidle, hcb⟩ := h₁.ctl.curr_active_iff.mp hact'
      rw [v₁.currObj] at hcidle hcb
      rcases hcond with hidle | hb | hlink
      · exact absurd (hidle.trans v₁.idle.symm) hcidle
      · rw [v₁.beBlocking, hb] at hcb
        cases hcb
      · show links (consumePriorities sch env.now s).pol.priv
          (consumePriorities sch env.now s).ctl.currObj ≠ 0
        rw [v₁.currObj]
        exact l₁ _ hlink
    · rw [hwork, if_neg hw]
      intro hne
      rw [if_neg hw] at hcond
      exact hkeep (r₁ hcond) _ hne (.inr ⟨rfl, hact'⟩)
  · intro u hu hidle hne hcur hst
    have hlink := hrl₁ u hu hidle hst
    revert hne
    unfold selectNext
    by_cases hw : schedIdleWorkPending s.ctl suspend reset = true
    · rw [hwork, if_pos hw]
      exact fun _ => hlink
    rw [hwork, if_neg hw]
    intro hne
    rw [if_neg hw] at hcond
    exact hkeep (r₁ hcond) u hne (.inl hlink)

/-! ### The timer callback -/

theorem LinkInv.timerCallback : LinkInv links Wf (timerCallback sch now s) := by
  obtain ⟨hview, ⟨hdata, hpriv⟩ | ⟨ctl, hv, hdata, hpriv⟩⟩ := timerCallback_cases sch now s
  · refine ⟨hview.ctlInv h.ctl, by rw [hdata, hpriv]; exact h.wf, ?_⟩
    intro u hu
    rw [hpriv] at hu
    rw [hview.isActive, hview.local_iff]
    exact h.linked u hu
  · obtain ⟨hwf, hlinks, -⟩ := spec.timer now ctl
      { s.pol with tickTimer := s.pol.tickTimer.del } h.wf
      (fun u hu => by rw [hv.isActive]; exact (h.linked u hu).1)
      (h.sameView hv).activeNotBlocking
    refine ⟨hview.ctlInv h.ctl, by rw [hdata, hpriv]; exact hwf, ?_⟩
    intro u hu
    rw [hpriv] at hu
    rw [hview.isActive, hview.local_iff]
    rcases hlinks u hu with hold | ⟨hcur, hact⟩
    · exact h.linked u hold
    · rw [hv.isActive] at hact
      exact ⟨hact, hcur ▸ hv.currObj ▸ h.ctl.curr_local⟩

theorem RunnableLinked.timerCallback (hrl : RunnableLinked links s)
    (hr : Relinks now s.pol.data s.pol.priv) :
    RunnableLinked links (timerCallback sch now s) := by
  obtain ⟨hview, hcase⟩ := timerCallback_cases sch now s
  intro u hu hidle hst
  have hlink := hrl u (hview.local_iff.mp hu) (hview.idle ▸ hidle)
    ((hview.status u).symm.trans hst)
  obtain ⟨-, hpriv⟩ | ⟨ctl, hv, -, hpriv⟩ := hcase
  · rw [hpriv]
    exact hlink
  · obtain ⟨-, -, hkeep⟩ := spec.timer now ctl
      { s.pol with tickTimer := s.pol.tickTimer.del } h.wf
      (fun u hu => by rw [hv.isActive]; exact (h.linked u hu).1)
      (h.sameView hv).activeNotBlocking
    rw [hpriv]
    exact hkeep hr u hlink

end

/-! ### One step -/

/-- **One step.**  The queues stay in order, and under the condition no thread is lost. -/
theorem step_linked (h : LinkInv links Wf s)
    (call : Env × Op) (hvalid : call.2.Valid s.ctl) :
    LinkInv links Wf (step sch s call) ∧
      (RunnableLinked links s → KeepsLinked links Relinks s call →
        RunnableLinked links (step sch s call)) := by
  have hkind := step_kind sch s call hvalid
  generalize step sch s call = s' at hkind ⊢
  cases hkind with
  | view hview => exact ⟨h.sameView hview, fun hrl _ => hrl.sameView hview⟩
  | sleep hview htarget =>
    have h' := h.sameView hview
    have ht := htarget.sameView hview
    exact ⟨h'.sleepThreadLocked spec ht,
      fun hrl _ => (hrl.sameView hview).sleepThreadLocked spec h' ht⟩
  | wake hview htarget hwake =>
    have h' := h.sameView hview
    have ht := htarget.sameView hview
    exact ⟨h'.wakeThreadLocked spec ht hwake,
      fun hrl _ => (hrl.sameView hview).wakeThreadLocked spec h' ht hwake⟩
  | timer => exact ⟨h.timerCallback spec, fun hrl hcond => hrl.timerCallback spec h hcond⟩
  | schedule => exact ⟨h.schedule spec, fun hrl hcond => RunnableLinked.schedule spec h hrl hcond⟩

end Steps

end BeauOs.Sched
