/-
The RTDS queues under the hooks of the policy.

Who is linked is read off the tags.  Each function is described by what it does to the
tags; that the queues agree with the tags (`TagWf`) is carried along.  A refresh may move a
server from one queue to the other, in either direction, but an active server that is not
about to block always ends up in one of them.
-/
import BeauOs.Sched.Rtds
import BeauOs.Proofs.Sched.Linkage
import BeauOs.Proofs.Sched.TaggedQueues

namespace BeauOs.Sched

def rtdsView : TagView RtdsData RtdsControl := ⟨(·.queue), (·.readyQueue), (·.depletedQueue)⟩

namespace RtdsState

open TagView

variable {p : RtdsState} {t u : Tid} {ctl : SchedControl} {now : Nat}

theorem advancePeriod_queue (now : Nat) (d : RtdsData) :
    rtdsView.queue (d.advancePeriod now) = rtdsView.queue d := by
  unfold RtdsData.advancePeriod
  split <;> rfl

/-! ### Linking and unlinking -/

variable (h : rtdsView.Wf p)

include h

theorem queueRemove (t : Tid) : rtdsView.Retags t .none p (rtdsQueueRemove t p) := by
  unfold rtdsQueueRemove
  split
  · exact .of_updData (f := fun d => { d with queue := .none }) (fun _ => rfl) rfl (TagWf.unlink h)
  · rename_i hq
    exact .refl h (not_not.mp hq)

/-- `rtds_ready_insert` tags the thread ready, wherever it was before. -/
theorem readyInsert (t : Tid) : rtdsView.Retags t .ready p (rtdsReadyInsert t p) := by
  have hrem : rtdsView.Retags t .none p
      (if (p.data t).queue ≠ .none then rtdsQueueRemove t p else p) := by
    split
    · exact queueRemove h t
    · rename_i hq
      exact .refl h (not_not.mp hq)
  unfold rtdsReadyInsert
  dsimp only
  generalize (if (p.data t).queue ≠ .none then rtdsQueueRemove t p else p) = q at hrem
  exact hrem.retags (.of_updData (f := fun d => { d with queue := .ready }) (fun _ => rfl) rfl
    (TagWf.linkReady hrem.wf _ hrem.self))

/-- `rtds_depleted_insert` tags the thread depleted, wherever it was before. -/
theorem depletedInsert (t : Tid) : rtdsView.Retags t .depleted p (rtdsDepletedInsert t p) := by
  unfold rtdsDepletedInsert
  split
  · rename_i hd
    exact .refl h hd
  rename_i hd
  have hrem : rtdsView.Retags t .none p
      (if (p.data t).queue = .ready then rtdsQueueRemove t p else p) := by
    split
    · exact queueRemove h t
    rename_i hr
    refine .refl h ?_
    show (p.data t).queue = .none
    cases hq : (p.data t).queue with
    | none => rfl
    | ready => exact absurd hq hr
    | depleted => exact absurd hq hd
  dsimp only
  generalize (if (p.data t).queue = .ready then rtdsQueueRemove t p else p) = q at hrem
  exact hrem.retags (.of_updData (f := fun d => { d with queue := .depleted }) (fun _ => rfl) rfl
    (TagWf.appendDepleted hrem.wf hrem.self))

/-! ### Functions that leave the queues alone -/

theorem accountRuntime (ctl : SchedControl) (now : Nat) (t : Tid) :
    rtdsView.Keeps p (rtdsAccountRuntime ctl now t p) := by
  unfold rtdsAccountRuntime
  split
  · exact .refl h
  · exact (Keeps.refl h).updData (f := (·.account now)) (fun _ => rfl) t

theorem programLocalTimer (ctl : SchedControl) (now : Nat)
    (running : Option Tid) : rtdsView.Keeps p (rtdsProgramLocalTimer ctl now running p) := by
  unfold rtdsProgramLocalTimer
  dsimp only
  split_ifs <;> exact .of_eq h rfl rfl rfl

theorem programTimer (env : Env) (ctl : SchedControl) (running : Option Tid) :
    rtdsView.Keeps p (rtdsProgramTimer env ctl running p) := by
  unfold rtdsProgramTimer
  split
  · exact programLocalTimer h ctl env.now running
  · exact .refl h

/-! ### Refreshing -/

/-- A refresh links an active thread that is not about to block, and touches nobody else. -/
theorem refreshThread (ctl : SchedControl) (now : Nat) (t : Tid) :
    rtdsView.Wf (rtdsRefreshThread ctl now t p) ∧
      (∀ u, u ≠ t → rtdsView.tag (rtdsRefreshThread ctl now t p) u = rtdsView.tag p u) ∧
      (ctl.isActive t = true → (ctl.thread t).beBlocking = false →
        rtdsView.tag (rtdsRefreshThread ctl now t p) t ≠ .none) ∧
      (ctl.isActive t = false → rtdsView.tag (rtdsRefreshThread ctl now t p) t = rtdsView.tag p t) := by
  have hadv := (Keeps.refl h).updData (advancePeriod_queue now) t
  unfold rtdsRefreshThread rtdsIsActive
  dsimp only
  generalize p.updData t (·.advancePeriod now) = q at hadv
  by_cases hact : ctl.isActive t = true
  · simp only [hact, if_true]
    by_cases hrem : (q.data t).remainingTicks > 0
    · rw [if_pos hrem]
      have hre := hadv.retags (readyInsert hadv.wf t)
      exact ⟨hre.wf, fun u hu => hre.of_ne hu, fun _ _ => hre.self ▸ nofun, nofun⟩
    rw [if_neg hrem]
    by_cases hb : (ctl.thread t).beBlocking = true
    · simp only [hb, Bool.not_true]
      rw [if_neg Bool.false_ne_true]
      exact ⟨hadv.wf, fun u _ => hadv.tag u, fun _ => nofun, nofun⟩
    · rw [Bool.not_eq_true] at hb
      simp only [hb, Bool.not_false, if_true]
      have hre := hadv.retags (depletedInsert hadv.wf t)
      exact ⟨hre.wf, fun u hu => hre.of_ne hu, fun _ _ => hre.self ▸ nofun, nofun⟩
  · rw [if_neg hact]
    exact ⟨hadv.wf, fun u _ => hadv.tag u, fun e => absurd e hact, fun _ => hadv.tag t⟩

omit h in
/-- The queues are in order and hold the same threads as those of `p`. -/
def SameLinked (p q : RtdsState) : Prop :=
  rtdsView.Wf q ∧ ∀ u, rtdsView.tag q u ≠ .none ↔ rtdsView.tag p u ≠ .none

omit h in
theorem sameLinked_refresh {q : RtdsState} (hfit : rtdsView.LinkedFit ctl p) (hq : SameLinked p q)
    (hmem : rtdsView.tag q t ≠ .none) {q' : RtdsState} (hwf : rtdsView.Wf q')
    (hother : ∀ u, u ≠ t → rtdsView.tag q' u = rtdsView.tag q u)
    (hlink : ctl.isActive t = true → (ctl.thread t).beBlocking = false → rtdsView.tag q' t ≠ .none) :
    SameLinked p q' := by
  obtain ⟨hact, hb⟩ := hfit t ((hq.2 t).mp hmem)
  refine ⟨hwf, ?_⟩
  intro u
  by_cases hu : u = t
  · rw [hu]
    exact iff_of_true (hlink hact hb) ((hq.2 t).mp hmem)
  · rw [hother u hu]
    exact hq.2 u

theorem refreshReady (ctl : SchedControl) (now : Nat) (t : Tid) :
    rtdsView.Wf (rtdsRefreshReady ctl now t p) ∧
      (∀ u, u ≠ t → rtdsView.tag (rtdsRefreshReady ctl now t p) u = rtdsView.tag p u) ∧
      (ctl.isActive t = true → (ctl.thread t).beBlocking = false → rtdsView.tag p t ≠ .none →
        rtdsView.tag (rtdsRefreshReady ctl now t p) t ≠ .none) := by
  unfold rtdsRefreshReady
  split
  swap
  · exact ⟨h, fun _ _ => rfl, fun _ _ hmem => hmem⟩
  have hadv := (Keeps.refl h).updData (advancePeriod_queue now) t
  have hrem := hadv.retags (queueRemove hadv.wf t)
  obtain ⟨hwf, hother, hlink, -⟩ := refreshThread hrem.wf ctl now t
  exact ⟨hwf, fun u hu => (hother u hu).trans (hrem.of_ne hu), fun hact hb _ => hlink hact hb⟩

theorem refreshQueues (hfit : rtdsView.LinkedFit ctl p) (now : Nat) :
    SameLinked p (rtdsRefreshQueues ctl now p) := by
  have hself : SameLinked p p := ⟨h, fun _ => Iff.rfl⟩
  unfold rtdsRefreshQueues
  dsimp only
  have hready : SameLinked p (Queue.forEachSafe (·.priv.readyQueue) (rtdsRefreshReady ctl now)
      (2 * p.priv.readyQueue.length) p.priv.readyQueue.head? p) := by
    refine Queue.forEachSafe_inv (fun q (hq : SameLinked p q) => hq.1.ready.nodup) ?_ ?_ _ _ p hself
      (fun x hx => List.mem_of_mem_head? hx)
    · intro t q hq ht
      have htag : rtdsView.tag q t = .ready := (hq.1.ready.mem_iff t).mp ht
      obtain ⟨hwf, hother, hlink⟩ := refreshReady hq.1 ctl now t
      have hmem : rtdsView.tag q t ≠ .none := by rw [htag]; nofun
      exact sameLinked_refresh hfit hq hmem hwf hother fun hact hb => hlink hact hb hmem
    · intro t q hq _ u hu hne
      obtain ⟨hwf, hother, -⟩ := refreshReady hq.1 ctl now t
      exact (hwf.ready.mem_iff u).mpr ((hother u hne).trans ((hq.1.ready.mem_iff u).mp hu))
  generalize Queue.forEachSafe (·.priv.readyQueue) (rtdsRefreshReady ctl now)
    (2 * p.priv.readyQueue.length) p.priv.readyQueue.head? p = p₁ at hready
  refine Queue.forEachSafe_inv (fun q (hq : SameLinked p q) => hq.1.depleted.nodup) ?_ ?_ _ _ p₁
    hready (fun x hx => List.mem_of_mem_head? hx)
  · intro t q hq ht
    have htag : rtdsView.tag q t = .depleted := (hq.1.depleted.mem_iff t).mp ht
    obtain ⟨hwf, hother, hlink, -⟩ := refreshThread hq.1 ctl now t
    have hmem : rtdsView.tag q t ≠ .none := by rw [htag]; nofun
    exact sameLinked_refresh hfit hq hmem hwf hother hlink
  · intro t q hq _ u hu hne
    obtain ⟨hwf, hother, -, -⟩ := refreshThread hq.1 ctl now t
    exact (hwf.depleted.mem_iff u).mpr ((hother u hne).trans ((hq.1.depleted.mem_iff u).mp hu))

theorem refreshAll (hfit : rtdsView.LinkedFit ctl p) (hcurr : CurrFit ctl) (now : Nat) :
    rtdsView.Wf (rtdsRefreshAll ctl now p) ∧
      ∀ u, rtdsView.tag (rtdsRefreshAll ctl now p) u ≠ .none ↔ rtdsView.Eligible ctl p u := by
  unfold rtdsRefreshAll
  dsimp only
  by_cases hidle : ctl.isIdleThread ctl.currObj = true
  · rw [if_pos hidle]
    obtain ⟨hwf, hiff⟩ := refreshQueues h hfit now
    refine ⟨hwf, fun u => (hiff u).trans ⟨.inl, ?_⟩⟩
    rintro (hu | ⟨rfl, hua⟩)
    · exact hu
    · exact absurd (of_decide_eq_true hidle) (SchedControl.isActive_iff.mp hua).1
  rw [if_neg hidle]
  have hacc := accountRuntime h ctl now ctl.currObj
  obtain ⟨hwf₂, hother, hlink, hsame⟩ := refreshThread hacc.wf ctl now ctl.currObj
  have hmid : ∀ u, rtdsView.tag (rtdsRefreshThread ctl now ctl.currObj
      (rtdsAccountRuntime ctl now ctl.currObj p)) u ≠ .none ↔ rtdsView.Eligible ctl p u := by
    intro u
    by_cases hu : u = ctl.currObj
    · rw [hu]
      by_cases hact : ctl.isActive ctl.currObj = true
      · exact iff_of_true (hlink hact (hcurr hact)) (.inr ⟨rfl, hact⟩)
      · rw [Bool.not_eq_true] at hact
        rw [hsame hact, hacc.tag]
        simp [Eligible, hact]
    · rw [hother u hu, hacc.tag]
      simp [Eligible, hu]
  have hfit₂ := hfit.eligible hcurr fun u hu => (hmid u).mp hu
  obtain ⟨hwf, hiff⟩ := refreshQueues hwf₂ hfit₂ now
  exact ⟨hwf, fun u => (hiff u).trans (hmid u)⟩

/-! ### Hooks -/

omit h in
theorem bestSlack_mem {best : Tid} (h : rtdsBestSlack p = some best) :
    best ∈ p.priv.depletedQueue := by
  -- the accumulator always holds a thread of the queue
  have hfold : ∀ (l : List Tid) (acc : Option Tid),
      (∀ x ∈ acc, x ∈ p.priv.depletedQueue) → (∀ x ∈ l, x ∈ p.priv.depletedQueue) →
      ∀ x ∈ l.foldl (rtdsBetterSlack p) acc, x ∈ p.priv.depletedQueue := by
    intro l
    induction l with
    | nil => exact fun acc hacc _ => hacc
    | cons y l ih =>
      intro acc hacc hl
      refine ih _ ?_ fun x hx => hl x (List.mem_cons_of_mem y hx)
      intro x hx
      cases acc with
      | none =>
        obtain rfl : y = x := Option.mem_some_iff.mp hx
        exact hl y List.mem_cons_self
      | some b =>
        unfold rtdsBetterSlack at hx
        dsimp only at hx
        split at hx
        · obtain rfl : y = x := Option.mem_some_iff.mp hx
          exact hl y List.mem_cons_self
        · exact hacc x hx
  exact hfold _ none nofun (fun _ hx => hx) best h

/-- Selecting unlinks the selected thread and nobody else. -/
theorem takeFirst (ctl : SchedControl) (hidle : rtdsView.tag p ctl.idle = .none) :
    rtdsView.Retags (rtdsTakeFirst ctl p).1 .none p (rtdsTakeFirst ctl p).2 ∧
      ((rtdsTakeFirst ctl p).1 ≠ ctl.idle → rtdsView.tag p (rtdsTakeFirst ctl p).1 ≠ .none) := by
  unfold rtdsTakeFirst
  split
  · rename_i first rest hq
    refine ⟨queueRemove h first, fun _ => ?_⟩
    have hmem : first ∈ p.priv.readyQueue := hq ▸ List.mem_cons_self
    rw [show rtdsView.tag p first = .ready from (h.ready.mem_iff first).mp hmem]
    nofun
  · split
    · rename_i best hbest
      refine ⟨queueRemove h best, fun _ => ?_⟩
      rw [show rtdsView.tag p best = .depleted from (h.depleted.mem_iff best).mp (bestSlack_mem hbest)]
      nofun
    · exact ⟨.refl h hidle, fun hne => absurd rfl hne⟩

omit h in
/-- `pick_next` refreshes and then takes the first; the rest leaves the queues alone. -/
theorem pickNext (h : rtdsView.Wf (rtdsRefreshAll ctl now p))
    (hidle : rtdsView.tag (rtdsRefreshAll ctl now p) ctl.idle = .none) :
    let next := (schedRtdsPickNext now ctl p).1
    rtdsView.Retags next .none (rtdsRefreshAll ctl now p) (schedRtdsPickNext now ctl p).2 ∧
      (next ≠ ctl.idle → rtdsView.tag (rtdsRefreshAll ctl now p) next ≠ .none) := by
  have htake := takeFirst h ctl hidle
  unfold schedRtdsPickNext
  dsimp only
  generalize rtdsTakeFirst ctl (rtdsRefreshAll ctl now p) = r at htake
  obtain ⟨hre, hnext⟩ := htake
  have hstarted : rtdsView.Keeps r.2 (if ctl.isIdleThread r.1 then r.2
      else r.2.updData r.1 fun d => { d with lastStartTicks := now }) := by
    split
    · exact .refl hre.wf
    · exact (Keeps.refl hre.wf).updData (f := fun d => { d with lastStartTicks := now })
        (fun _ => rfl) r.1
  exact ⟨(hre.keeps hstarted).keeps (programLocalTimer hstarted.wf ctl now (some r.1)), hnext⟩

theorem sleep (env : Env) (ctl : SchedControl) (t : Tid) :
    rtdsView.Retags t .none p (schedRtdsSleep env ctl t p) := by
  have hacc : rtdsView.Keeps p
      (if rtdsIsCurrent ctl t then rtdsAccountRuntime ctl env.now t p else p) := by
    split
    · exact accountRuntime h ctl env.now t
    · exact .refl h
  have hrem := queueRemove hacc.wf t
  have hclear := (Keeps.refl hrem.wf).updData (f := fun d => { d with lastStartTicks := 0 })
    (fun _ => rfl) t
  exact ((hacc.retags hrem).keeps hclear).keeps (programTimer hclear.wf env ctl _)

theorem wake (env : Env) (ctl : SchedControl) (t : Tid) :
    rtdsView.Wf (schedRtdsWake env ctl t p) ∧ rtdsView.tag (schedRtdsWake env ctl t p) t ≠ .none ∧
      ∀ u, u ≠ t → rtdsView.tag (schedRtdsWake env ctl t p) u = rtdsView.tag p u := by
  have hadv := (Keeps.refl h).updData
    (f := fun d => { d.advancePeriod env.now with lastStartTicks := 0 })
    (advancePeriod_queue env.now) t
  unfold schedRtdsWake
  dsimp only
  generalize p.updData t (fun d => { d.advancePeriod env.now with lastStartTicks := 0 }) = q at hadv
  have hins : ∃ x, x ≠ .none ∧ rtdsView.Retags t x q
      (if (q.data t).remainingTicks > 0 then rtdsReadyInsert t q else rtdsDepletedInsert t q) := by
    split
    · exact ⟨.ready, nofun, readyInsert hadv.wf t⟩
    · exact ⟨.depleted, nofun, depletedInsert hadv.wf t⟩
  obtain ⟨x, hx, hre⟩ := hins
  have hall := (hadv.retags hre).keeps (programTimer hre.wf env ctl (some ctl.currObj))
  exact ⟨hall.wf, hall.self ▸ hx, fun u hu => hall.of_ne hu⟩

theorem prioritize (now : Nat) (ctl : SchedControl) (t : Tid) :
    rtdsView.Wf (schedRtdsPrioritize now ctl t p) ∧
      (∀ u, u ≠ t → rtdsView.tag (schedRtdsPrioritize now ctl t p) u = rtdsView.tag p u) ∧
      (rtdsView.tag p t ≠ .none → rtdsView.tag (schedRtdsPrioritize now ctl t p) t ≠ .none) ∧
      (t = ctl.currObj → rtdsView.tag (schedRtdsPrioritize now ctl t p) t = rtdsView.tag p t) := by
  have hadv := (Keeps.refl h).updData (advancePeriod_queue now) t
  unfold schedRtdsPrioritize
  dsimp only
  generalize p.updData t (·.advancePeriod now) = q at hadv
  split
  · rename_i hcond
    have hre := hadv.retags (readyInsert hadv.wf t)
    refine ⟨hre.wf, fun u hu => hre.of_ne hu, fun _ => hre.self ▸ nofun, fun hcur => ?_⟩
    rw [Bool.and_eq_true] at hcond
    simp [rtdsIsCurrent, SchedControl.isCurrent, hcur] at hcond
  · exact ⟨hadv.wf, fun u _ => hadv.tag u, fun hne => (hadv.tag t).symm ▸ hne, fun _ => hadv.tag t⟩

end RtdsState

/-- The RTDS hooks keep the queues in order; a refresh never drops a thread. -/
theorem rtdsTagSpec : TagSpec schedRtds rtdsView (fun _ _ _ => True) where
  wake env ctl t p h := RtdsState.wake h env ctl t
  sleep env ctl t p h := ⟨(RtdsState.sleep h env ctl t).wf, (RtdsState.sleep h env ctl t).tag⟩
  prioritize now ctl t p h := RtdsState.prioritize h now ctl t
  prioritize_relinks _ _ _ _ _ := trivial
  timer now ctl p h hfit hcurr := by
    obtain ⟨hwf, hiff⟩ := RtdsState.refreshAll h hfit hcurr now
    exact ⟨hwf, fun u hu => (hiff u).mp hu, fun _ u hu => (hiff u).mpr (.inl hu)⟩
  pickNext now ctl p h hfit hcurr := by
    obtain ⟨hwf, hiff⟩ := RtdsState.refreshAll h hfit hcurr now
    have hidle := (hfit.eligible hcurr fun u hu => (hiff u).mp hu).idle
    obtain ⟨hre, hnext⟩ := RtdsState.pickNext hwf hidle
    exact ⟨_, fun u hu => (hiff u).mp hu, fun _ u hu => (hiff u).mpr hu, hre.wf, hnext, hre.tag⟩

end BeauOs.Sched
