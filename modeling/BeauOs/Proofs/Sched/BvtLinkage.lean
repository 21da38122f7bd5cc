/-
The BVT run queue holds exactly the active threads.

BVT keeps the running thread in its queue.  Of the hooks only sleep and wake change who is
queued, and a context switch changes nobody's being active, so "queued if active" is kept by
every step, pending management work included.  In this BVT differs from the three policies
that unlink the thread they select.
-/
import BeauOs.Sched.Bvt
import BeauOs.Proofs.Sched.Linkage

namespace BeauOs.Sched

/-! ### Policies that never unlink an active thread -/

section StaysLinked

variable {D P : Type} {sch : AcrnScheduler D P} {links : P → Tid → Nat}
  {Wf : (Tid → D) → P → Prop} {Relinks : Nat → (Tid → D) → P → Prop} {s : Pcpu D P}

def ActiveLinked (links : P → Tid → Nat) (s : Pcpu D P) : Prop :=
  ∀ t, s.ctl.Local t → s.ctl.isActive t = true → links s.pol.priv t ≠ 0

/-- Timer and `pick_next` leave linked threads linked. -/
structure StaysLinked (sch : AcrnScheduler D P) (links : P → Tid → Nat)
    (Wf : (Tid → D) → P → Prop) : Prop where
  timer : ∀ now ctl (p : PolicyState D P), Wf p.data p.priv → ∀ u, links p.priv u ≠ 0 →
    links (sch.timerHandler now ctl p).1.priv u ≠ 0
  pickNext : ∀ now ctl (p : PolicyState D P), Wf p.data p.priv → ∀ u, links p.priv u ≠ 0 →
    links (sch.pickNext now ctl p).2.priv u ≠ 0

theorem ActiveLinked.sameView (h : ActiveLinked links s) {ctl : SchedControl}
    (hview : SameView s.ctl ctl) : ActiveLinked links ⟨ctl, s.pol⟩ := by
  intro t hlocal hact
  exact h t (hview.local_iff.mp hlocal) ((hview.isActive t).symm.trans hact)

theorem ActiveLinked.schedule (spec : LinkSpec sch links Wf Relinks)
    (hstay : StaysLinked sch links Wf) (h : LinkInv links Wf s) (hal : ActiveLinked links s)
    (now : Nat) (suspend reset : Bool) :
    ActiveLinked links (schedule sch now suspend reset s) := by
  obtain ⟨h', hlinks, -⟩ := consumePriorities_inv spec h now
  obtain ⟨hview, -⟩ := consumePriorities_view sch now s
  obtain ⟨-, hlocal, hst, -⟩ := selectNext_inv spec h' now suspend reset
  have hclear : SameView (consumePriorities sch now s).ctl
      { (consumePriorities sch now s).ctl with needReschedule := false } :=
    SameView.of_eq rfl rfl rfl rfl rfl
  intro t ht hact
  have ht' := hclear.local_iff.mp (switchTo_local.mp ht)
  have hact' : (consumePriorities sch now s).ctl.isActive t = true := by
    rw [← hclear.isActive, ← isActive_switchTo (hclear.ctlInv h'.ctl) (hclear.local_iff.mpr hlocal)
      hst t]
    exact hact
  have hlink := hlinks t (hal t (hview.local_iff.mp ht') ((hview.isActive t).symm.trans hact'))
  show links (selectNext sch now suspend reset (consumePriorities sch now s)).2.priv t ≠ 0
  unfold selectNext
  split
  · exact hlink
  · exact hstay.pickNext now _ _ h'.wf t hlink

/-- **One step.**  Being queued follows being active. -/
theorem ActiveLinked.step (spec : LinkSpec sch links Wf Relinks) (hstay : StaysLinked sch links Wf)
    (h : LinkInv links Wf s) (hal : ActiveLinked links s) (call : Env × Op)
    (hvalid : call.2.Valid s.ctl) : ActiveLinked links (step sch s call) := by
  have hkind := step_kind sch s call hvalid
  generalize BeauOs.Sched.step sch s call = s' at hkind ⊢
  cases hkind with
  | view hview => exact hal.sameView hview
  | @sleep env _ ctl t hview htarget =>
    have h' := h.sameView hview
    obtain ⟨-, hloc, -, hinact, -, hother⟩ :=
      sleepThreadLocked_ctl sch env h'.ctl (htarget.sameView hview)
    obtain ⟨-, -, hsame⟩ := spec.sleep env ctl t s.pol h.wf
    intro u hu hact
    by_cases hut : u = t
    · rw [hut, hinact] at hact
      cases hact
    · show links (sch.callSleep env ctl t s.pol).priv u ≠ 0
      rw [hsame u hut]
      exact hal.sameView hview u ((hloc u).mp hu) ((hother u hut).1.symm.trans hact)
  | @wake env _ ctl t hview htarget hwake =>
    have h' := h.sameView hview
    have ht := htarget.sameView hview
    obtain ⟨-, hloc, -, -, hother⟩ := wakeThreadLocked_ctl sch env h'.ctl ht hwake
    obtain ⟨-, hone, hsame⟩ := spec.wake env ctl t s.pol h.wf (h'.wake_unlinked ht hwake)
    intro u hu hact
    rw [wakeThreadLocked_pol (s := ⟨ctl, s.pol⟩) sch env hwake]
    by_cases hut : u = t
    · rw [hut, hone]
      exact Nat.one_ne_zero
    · rw [hsame u hut]
      exact hal.sameView hview u ((hloc u).mp hu) ((hother u hut).1.symm.trans hact)
  | @timer env =>
    obtain ⟨hview, hcase⟩ := timerCallback_cases sch env.now s
    intro u hu hact
    have hlink := hal u (hview.local_iff.mp hu) ((hview.isActive u).symm.trans hact)
    obtain ⟨-, hpriv⟩ | ⟨ctl, -, -, hpriv⟩ := hcase
    · rw [hpriv]
      exact hlink
    · rw [hpriv]
      exact hstay.timer env.now ctl { s.pol with tickTimer := s.pol.tickTimer.del } h.wf u hlink
  | @schedule env suspend reset => exact hal.schedule spec hstay h env.now suspend reset

end StaysLinked

/-! ### The BVT hooks -/

def bvtLinks (priv : BvtControl) (t : Tid) : Nat := priv.runqueue.count t

def BvtQueueWf (_ : Tid → BvtData) (priv : BvtControl) : Prop := priv.runqueue.Nodup

variable {p : BvtState} {t : Tid} {now : Nat}

theorem bvtLinks_ne_zero {priv : BvtControl} {t : Tid} :
    bvtLinks priv t ≠ 0 ↔ t ∈ priv.runqueue := by
  unfold bvtLinks
  rw [Ne, List.count_eq_zero, not_not]

theorem bvtRunqueueAdd_perm (h : t ∉ p.priv.runqueue) :
    (bvtRunqueueAdd t p).priv.runqueue.Perm (t :: p.priv.runqueue) := by
  unfold bvtRunqueueAdd bvtIsInqueue
  dsimp only
  rw [if_pos (by simp [h])]
  exact Queue.perm_insertBefore _ t _

theorem bvtRequeue_perm (h : p.priv.runqueue.Nodup) :
    (bvtRequeue t p).priv.runqueue.Perm p.priv.runqueue := by
  unfold bvtRequeue
  split
  · rename_i hin
    have hmem : t ∈ p.priv.runqueue := of_decide_eq_true hin
    have hnot : t ∉ (bvtRunqueueRemove t p).priv.runqueue := h.not_mem_erase
    exact (bvtRunqueueAdd_perm hnot).trans (List.perm_cons_erase hmem).symm
  · exact List.Perm.refl _

theorem bvtStartWarp_perm (now : Nat) (t : Tid) (h : p.priv.runqueue.Nodup) :
    (bvtStartWarp now t p).priv.runqueue.Perm p.priv.runqueue := by
  unfold bvtStartWarp
  split_ifs
  · exact List.Perm.refl _
  · exact bvtRequeue_perm (p := p.updData t _) h
  · exact List.Perm.refl _

theorem bvtUpdateSvt_runqueue (p : BvtState) :
    (bvtUpdateSvt p).priv.runqueue = p.priv.runqueue := by
  unfold bvtUpdateSvt
  split <;> rfl

theorem bvtArmTimer_eq (ctl : SchedControl) (now : Nat) (runqueue : List Tid) (p : BvtState) :
    (bvtArmTimer ctl now runqueue p).data = p.data ∧
      (bvtArmTimer ctl now runqueue p).priv = p.priv := by
  unfold bvtArmTimer
  split
  · dsimp only
    split <;> exact ⟨rfl, rfl⟩
  · exact ⟨rfl, rfl⟩

/-- The queue `pick_next` selects from: the current thread may have moved in it. -/
def bvtCharged (now : Nat) (ctl : SchedControl) (p : BvtState) : BvtState :=
  bvtUpdateSvt (bvtChargeCurrent now ctl p)

theorem bvtCharged_perm (now : Nat) (h : p.priv.runqueue.Nodup) (ctl : SchedControl) :
    (bvtCharged now ctl p).priv.runqueue.Perm p.priv.runqueue := by
  unfold bvtCharged bvtChargeCurrent bvtUpdateVt
  rw [bvtUpdateSvt_runqueue]
  split
  · exact List.Perm.refl _
  · exact bvtRequeue_perm (p := p.updData ctl.currObj _) h

/-- `pick_next` returns the head of the charged queue and leaves the queue as it is. -/
theorem schedBvtPickNext_queue (now : Nat) (ctl : SchedControl) (p : BvtState) :
    (schedBvtPickNext now ctl p).2.priv.runqueue = (bvtCharged now ctl p).priv.runqueue ∧
      (schedBvtPickNext now ctl p).1 =
        ((bvtCharged now ctl p).priv.runqueue.head?).getD ctl.idle := by
  show (bvtTakeFirst ctl now { bvtCharged now ctl p with
      tickTimer := (bvtCharged now ctl p).tickTimer.del }).2.priv.runqueue = _ ∧
    (bvtTakeFirst ctl now { bvtCharged now ctl p with
      tickTimer := (bvtCharged now ctl p).tickTimer.del }).1 = _
  generalize bvtCharged now ctl p = q
  unfold bvtTakeFirst
  dsimp only
  split
  · rename_i first rest hq
    rw [(bvtArmTimer_eq ctl now (first :: rest) _).2, hq]
    exact ⟨hq, rfl⟩
  · rename_i hq
    rw [hq]
    exact ⟨rfl, rfl⟩

theorem bvt_links_perm {q q' : BvtControl} (h : q'.runqueue.Perm q.runqueue) (u : Tid) :
    bvtLinks q' u = bvtLinks q u := h.count_eq u

theorem schedBvtWake_perm (env : Env) (ctl : SchedControl) (h : p.priv.runqueue.Nodup)
    (hnot : t ∉ p.priv.runqueue) :
    (schedBvtWake env ctl t p).priv.runqueue.Perm (t :: p.priv.runqueue) := by
  have hwarp := bvtStartWarp_perm env.now t
    (p := p.updData t (·.adjustAvt p.priv.svt)) h
  unfold schedBvtWake
  dsimp only
  refine (bvtRunqueueAdd_perm ?_).trans (hwarp.cons t)
  exact fun hmem => hnot (hwarp.mem_iff.mp hmem)

/-- The BVT hooks keep the queue in order; the relinking clauses are not used. -/
theorem bvtLinkSpec : LinkSpec schedBvt bvtLinks BvtQueueWf (fun _ _ _ => False) where
  le_one h t := List.nodup_iff_count_le_one.mp h t
  wake env ctl t p h hzero := by
    have hperm := schedBvtWake_perm env ctl h (List.count_eq_zero.mp hzero)
    refine ⟨hperm.nodup_iff.mpr (List.nodup_cons.mpr ⟨List.count_eq_zero.mp hzero, h⟩), ?_,
      fun u hu => ?_⟩
    · refine (hperm.count_eq t).trans ?_
      rw [List.count_cons_self, show p.priv.runqueue.count t = 0 from hzero]
    · exact (hperm.count_eq u).trans (List.count_cons_of_ne hu.symm)
  sleep env ctl t p h := by
    refine ⟨h.erase t, ?_, fun u hu => ?_⟩
    · exact List.count_eq_zero.mpr h.not_mem_erase
    · exact List.count_erase_of_ne hu
  prioritize now ctl t p h := by
    have hperm : (schedBvtPrioritize now ctl t p).priv.runqueue.Perm p.priv.runqueue :=
      bvtStartWarp_perm _ _ h
    refine ⟨hperm.nodup_iff.mpr h, fun u _ => bvt_links_perm hperm u, fun hl => ?_,
      fun _ => bvt_links_perm hperm t⟩
    exact (bvt_links_perm hperm t).symm ▸ hl
  prioritize_relinks _ _ _ _ h := h
  timer now ctl p h _ _ := ⟨h, fun u hu => .inl hu, fun hr => hr.elim⟩
  pickNext now ctl p h _ _ := by
    obtain ⟨hq, hnext⟩ := schedBvtPickNext_queue now ctl p
    have hperm := bvtCharged_perm now h ctl
    have hq' : (schedBvtPickNext now ctl p).2.priv.runqueue.Perm p.priv.runqueue := hq ▸ hperm
    refine ⟨hq'.nodup_iff.mpr h, fun hne => .inl ?_, fun u hu => .inl ?_, fun hr => hr.elim⟩
    · show bvtLinks p.priv (schedBvtPickNext now ctl p).1 ≠ 0
      change (schedBvtPickNext now ctl p).1 ≠ ctl.idle at hne
      rw [bvtLinks_ne_zero, ← hperm.mem_iff]
      cases hhead : (bvtCharged now ctl p).priv.runqueue.head? with
      | none => exact absurd (hnext.trans (by rw [hhead]; rfl)) hne
      | some first =>
        rw [hnext, hhead]
        exact List.mem_of_mem_head? hhead
    · exact (bvt_links_perm hq' u) ▸ hu

theorem bvtStaysLinked : StaysLinked schedBvt bvtLinks BvtQueueWf where
  timer _ _ _ _ _ hu := hu
  pickNext now ctl p h u hu := by
    have hperm : (schedBvtPickNext now ctl p).2.priv.runqueue.Perm p.priv.runqueue :=
      (schedBvtPickNext_queue now ctl p).1 ▸ bvtCharged_perm now h ctl
    exact (bvt_links_perm hperm u).symm ▸ hu

end BeauOs.Sched
