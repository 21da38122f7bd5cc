/-
The BFP queues under the hooks of the policy.

The walk over the depleted queue unlinks every server whose period has ended and links it
again only if the new period came with budget.  It does, unless the replenishment time ran
past the last 64-bit tick: then the server is left without budget and in no queue.
`BfpReplenishable` excludes that, and is the only condition the linkage of BFP needs beyond
that of the other policies.
-/
import BeauOs.Sched.Bfp
import BeauOs.Proofs.Sched.TaggedQueues

namespace BeauOs.Sched

def bfpView : TagView BfpData BfpControl := ⟨(·.queue), (·.readyQueue), (·.depletedQueue)⟩

/-- No depleted server whose period has ended runs past the last tick. -/
def BfpReplenishable (now : Nat) (data : Tid → BfpData) (priv : BfpControl) : Prop :=
  ∀ t ∈ priv.depletedQueue, (data t).periodEnded now = true →
    (data t).replenishSaturates now = false

instance (now : Nat) (data : Tid → BfpData) (priv : BfpControl) :
    Decidable (BfpReplenishable now data priv) := by
  unfold BfpReplenishable
  infer_instance

namespace BfpData

variable {d : BfpData} {now : Nat}

theorem advance_of_not_ended (h : d.periodEnded now = false) :
    d.advanceInactivePeriod now = d := by
  unfold advanceInactivePeriod
  rw [h, if_neg Bool.false_ne_true]

theorem advance_remaining (h : d.periodEnded now = true) (hsat : d.replenishSaturates now = false) :
    (d.advanceInactivePeriod now).remainingTicks = d.budgetTicks := by
  unfold advanceInactivePeriod
  simp only [h, hsat, if_true]
  rfl

theorem period_pos (d : BfpData) : 0 < d.periodTicks :=
  Nat.lt_of_lt_of_le d.budget_pos d.budget_le_period

/-- The grid point after the last one that is due lies in the future. -/
theorem lt_next_grid {boundary : Nat} (h : boundary ≤ now) :
    now < boundary + ((now - boundary) / d.periodTicks + 1) * d.periodTicks := by
  have hlt := Nat.lt_mul_div_succ (now - boundary) d.period_pos
  rw [Nat.mul_comm] at hlt
  omega

theorem next_le_of_ended (h : d.periodEnded now = true) : d.nextReplenishTicks ≤ now := by
  unfold periodEnded at h
  rw [Bool.and_eq_true, decide_eq_true_iff, decide_eq_true_iff] at h
  exact h.2

theorem not_periodEnded_of_lt (h : now < d.nextReplenishTicks) : d.periodEnded now = false := by
  unfold periodEnded
  simp [Nat.not_le.mpr h]

theorem not_periodEnded_of_max (h : d.nextReplenishTicks = uint64Max) :
    d.periodEnded now = false := by
  unfold periodEnded
  simp [h]

/-- Once advanced, a server is not due at the same instant again. -/
theorem advance_not_ended (d : BfpData) (now : Nat) :
    (d.advanceInactivePeriod now).periodEnded now = false := by
  by_cases hend : d.periodEnded now = true
  · unfold advanceInactivePeriod
    rw [if_pos hend]
    by_cases hsat : d.replenishSaturates now = true
    · simp only [hsat, if_true]
      exact not_periodEnded_of_max rfl
    · simp only [hsat]
      exact not_periodEnded_of_lt (lt_next_grid (next_le_of_ended hend))
  · rw [Bool.not_eq_true] at hend
    rw [advance_of_not_ended hend, hend]

theorem chargeCurrentPeriod_next (d : BfpData) (delta : Nat) :
    (d.chargeCurrentPeriod delta).nextReplenishTicks = d.nextReplenishTicks := by
  unfold chargeCurrentPeriod
  split <;> rfl

theorem chargeCrossed_not_ended {boundary : Nat} (h : boundary ≤ now) (d : BfpData) :
    (d.chargeCrossed boundary now).periodEnded now = false := by
  unfold chargeCrossed
  dsimp only
  split_ifs
  · exact not_periodEnded_of_max rfl
  all_goals exact not_periodEnded_of_lt (lt_next_grid h)

/-- Once charged, a server is not due at the same instant. -/
theorem account_not_ended (d : BfpData) (now : Nat) : (d.account now).periodEnded now = false := by
  unfold account
  dsimp only
  split
  · rename_i hearly
    rcases hearly with hmax | hlt
    · exact not_periodEnded_of_max ((chargeCurrentPeriod_next _ _).trans hmax)
    · exact not_periodEnded_of_lt (by rw [chargeCurrentPeriod_next]; exact hlt)
  · rename_i hlate
    rw [not_or, Nat.not_lt] at hlate
    exact chargeCrossed_not_ended hlate.2 _

theorem chargeCurrentPeriod_queue (d : BfpData) (delta : Nat) :
    (d.chargeCurrentPeriod delta).queue = d.queue := by
  unfold chargeCurrentPeriod
  split <;> rfl

theorem chargeCrossed_queue (d : BfpData) (boundary now : Nat) :
    (d.chargeCrossed boundary now).queue = d.queue := by
  unfold chargeCrossed
  dsimp only
  split_ifs <;> rfl

end BfpData

/-- The queues after a wake, before the timer is programmed. -/
def bfpWoken (now : Nat) (t : Tid) (p : BfpState) : BfpState :=
  let p := p.updData t fun d => { d.advanceInactivePeriod now with lastStartTicks := 0 }
  if (p.data t).remainingTicks ≠ 0 then bfpReadyInsert t false p else bfpDepletedInsert t p

theorem schedBfpWake_eq (env : Env) (ctl : SchedControl) (t : Tid) (p : BfpState) :
    schedBfpWake env ctl t p = bfpProgramTimer env ctl ctl.currObj (bfpWoken env.now t p) := rfl

namespace BfpState

open TagView PolicyState

variable {p : BfpState} {t u : Tid} {ctl : SchedControl} {now : Nat}

theorem advance_queue (now : Nat) (d : BfpData) :
    bfpView.queue (d.advanceInactivePeriod now) = bfpView.queue d := by
  unfold BfpData.advanceInactivePeriod
  dsimp only
  split_ifs <;> rfl

theorem account_queue (now : Nat) (d : BfpData) :
    bfpView.queue (d.account now) = bfpView.queue d := by
  show (d.account now).queue = d.queue
  unfold BfpData.account
  dsimp only
  split_ifs
  · rw [BfpData.chargeCurrentPeriod_queue]
  · rw [BfpData.chargeCrossed_queue, BfpData.chargeCurrentPeriod_queue]
  · rw [BfpData.chargeCrossed_queue]

/-! ### Linking and unlinking -/

/-- The thread `t` goes to a queue, and nothing else changes but the counter. -/
structure Relinks (t : Tid) (queue : ServerQueue) (count : Nat) (p q : BfpState) : Prop where
  self : q.data t = { p.data t with queue := queue, depletedCount := count }
  other : ∀ u, u ≠ t → q.data u = p.data u
  timer : q.tickTimer = p.tickTimer

theorem Relinks.of_updData {queue queue' : ServerQueue} {count count' : Nat} {q r : BfpState}
    {f : BfpData → BfpData} (h : Relinks t queue count p q) (hdata : r.data = (q.updData t f).data)
    (hf : f (q.data t) = { p.data t with queue := queue', depletedCount := count' })
    (htimer : r.tickTimer = q.tickTimer) : Relinks t queue' count' p r := by
  refine ⟨?_, fun u hu => ?_, htimer.trans h.timer⟩
  · rw [hdata, updData_self, hf]
  · rw [hdata, updData_of_ne q f hu, h.other u hu]

theorem relinks_queueRemove (t : Tid) (p : BfpState) :
    Relinks t .none (p.data t).depletedCount p (bfpQueueRemove t p) := by
  have hrefl : Relinks t (p.data t).queue (p.data t).depletedCount p p := ⟨rfl, fun _ _ => rfl, rfl⟩
  unfold bfpQueueRemove
  split
  · exact hrefl.of_updData (f := fun d => { d with queue := .none }) rfl rfl rfl
  · rename_i hnone
    exact not_not.mp hnone ▸ hrefl

theorem relinks_readyInsert (t : Tid) (keepTurn : Bool) (p : BfpState) :
    Relinks t .ready (p.data t).depletedCount p (bfpReadyInsert t keepTurn p) :=
  have hrem := relinks_queueRemove t p
  hrem.of_updData (f := fun d => { d with queue := .ready }) rfl (by rw [hrem.self]) rfl

theorem relinks_depletedInsert (t : Tid) (p : BfpState) :
    Relinks t .depleted (add64 (p.data t).depletedCount 1) p (bfpDepletedInsert t p) :=
  have hrem := relinks_queueRemove t p
  hrem.of_updData (f := fun d => { d with
    queue := .depleted, depletedCount := add64 d.depletedCount 1 }) rfl (by rw [hrem.self]) rfl

section

variable (h : bfpView.Wf p)

include h

theorem queueRemove (t : Tid) : bfpView.Retags t .none p (bfpQueueRemove t p) := by
  unfold bfpQueueRemove
  split
  · exact .of_updData (f := fun d => { d with queue := .none }) (fun _ => rfl) rfl (TagWf.unlink h)
  · rename_i hq
    exact .refl h (not_not.mp hq)

/-- `bfp_ready_insert` tags the thread ready, wherever it was before. -/
theorem readyInsert (t : Tid) (keepTurn : Bool) :
    bfpView.Retags t .ready p (bfpReadyInsert t keepTurn p) := by
  have hrem := queueRemove h t
  unfold bfpReadyInsert
  dsimp only
  generalize bfpQueueRemove t p = q at hrem
  exact hrem.retags (.of_updData (f := fun d => { d with queue := .ready }) (fun _ => rfl) rfl
    (TagWf.linkReady hrem.wf _ hrem.self))

/-- `bfp_depleted_insert` tags the thread depleted, wherever it was before. -/
theorem depletedInsert (t : Tid) : bfpView.Retags t .depleted p (bfpDepletedInsert t p) := by
  have hrem := queueRemove h t
  unfold bfpDepletedInsert
  dsimp only
  generalize bfpQueueRemove t p = q at hrem
  exact hrem.retags (.of_updData (f := fun d =>
    { d with queue := .depleted, depletedCount := add64 d.depletedCount 1 }) (fun _ => rfl) rfl
    (TagWf.linkDepleted hrem.wf _ hrem.self))

/-! ### Functions that leave the queues alone -/

theorem accountRuntime (ctl : SchedControl) (now : Nat) (t : Tid) :
    bfpView.Keeps p (bfpAccountRuntime ctl now t p) := by
  unfold bfpAccountRuntime
  split
  · exact .refl h
  · exact (Keeps.refl h).updData (account_queue now) t

end

theorem programLocalTimer_eq (ctl : SchedControl) (now : Nat) (running : Tid) (p : BfpState) :
    (bfpProgramLocalTimer ctl now running p).data = p.data ∧
      (bfpProgramLocalTimer ctl now running p).priv.readyQueue = p.priv.readyQueue ∧
      (bfpProgramLocalTimer ctl now running p).priv.depletedQueue = p.priv.depletedQueue := by
  unfold bfpProgramLocalTimer
  dsimp only
  split <;> exact ⟨rfl, rfl, rfl⟩

theorem programTimer_eq (env : Env) (ctl : SchedControl) (running : Tid) (p : BfpState) :
    (bfpProgramTimer env ctl running p).data = p.data ∧
      (bfpProgramTimer env ctl running p).priv.readyQueue = p.priv.readyQueue ∧
      (bfpProgramTimer env ctl running p).priv.depletedQueue = p.priv.depletedQueue := by
  unfold bfpProgramTimer
  split
  · exact programLocalTimer_eq ctl env.now running p
  · exact ⟨rfl, rfl, rfl⟩

/-! ### Refreshing -/

/-- The condition of `BfpReplenishable`, read off the tags. -/
def Replenishable (now : Nat) (p : BfpState) : Prop :=
  ∀ u, bfpView.tag p u = .depleted → (p.data u).periodEnded now = true →
    (p.data u).replenishSaturates now = false

theorem replenishable_iff (h : bfpView.Wf p) :
    BfpReplenishable now p.data p.priv ↔ Replenishable now p :=
  forall_congr' fun u => imp_congr (h.depleted.mem_iff u) Iff.rfl

/-- A change at one thread, after which that thread is not due, keeps the condition. -/
theorem Replenishable.congr {q : BfpState} (h : Replenishable now p)
    (hdata : ∀ u, u ≠ t → q.data u = p.data u)
    (ht : bfpView.tag q t = .depleted → (q.data t).periodEnded now = true → q.data t = p.data t) :
    Replenishable now q := by
  intro u htag hend
  by_cases hu : u = t
  · subst hu
    have hd := ht htag hend
    rw [hd] at hend ⊢
    exact h u ((congrArg bfpView.queue hd).symm.trans htag) hend
  · have htag' : bfpView.tag p u = .depleted := (congrArg bfpView.queue (hdata u hu)).symm.trans htag
    rw [hdata u hu] at hend ⊢
    exact h u htag' hend

theorem refreshThread_not_ended (p : BfpState) (ctl : SchedControl) (now : Nat) (t : Tid)
    (keepTurn : Bool) :
    ((bfpRefreshThread ctl now t keepTurn p).data t).periodEnded now = false := by
  have hadv := BfpData.advance_not_ended (p.data t) now
  have hnext : ((bfpRefreshThread ctl now t keepTurn p).data t).nextReplenishTicks =
      ((p.data t).advanceInactivePeriod now).nextReplenishTicks := by
    unfold bfpRefreshThread
    dsimp only
    split_ifs
    · rw [(relinks_queueRemove t _).self, updData_self]
    · rw [(relinks_readyInsert t keepTurn _).self, updData_self]
    · rw [(relinks_depletedInsert t _).self, updData_self]
  unfold BfpData.periodEnded at hadv ⊢
  rw [hnext]
  exact hadv

/-- A refresh links an active thread, unlinks an inactive one, and touches nobody else. -/
theorem refreshThread (h : bfpView.Wf p) (ctl : SchedControl) (now : Nat) (t : Tid)
    (keepTurn : Bool) :
    bfpView.Wf (bfpRefreshThread ctl now t keepTurn p) ∧
      (∀ u, u ≠ t → (bfpRefreshThread ctl now t keepTurn p).data u = p.data u) ∧
      (bfpView.tag (bfpRefreshThread ctl now t keepTurn p) t ≠ .none ↔ ctl.isActive t = true) := by
  have hadv := wf_updData (t := t) h (advance_queue now)
  unfold bfpRefreshThread bfpIsActive
  dsimp only
  have hdata : ∀ u, u ≠ t → (p.updData t (·.advanceInactivePeriod now)).data u = p.data u :=
    fun u hu => updData_of_ne p _ hu
  generalize p.updData t (·.advanceInactivePeriod now) = q at hadv hdata
  by_cases hact : ctl.isActive t = true
  · rw [if_neg (by simp [hact])]
    split
    · have hre := readyInsert hadv t keepTurn
      refine ⟨hre.wf, fun u hu => ((relinks_readyInsert t keepTurn q).other u hu).trans (hdata u hu), ?_⟩
      exact iff_of_true (hre.self ▸ nofun) hact
    · have hre := depletedInsert hadv t
      refine ⟨hre.wf, fun u hu => ((relinks_depletedInsert t q).other u hu).trans (hdata u hu), ?_⟩
      exact iff_of_true (hre.self ▸ nofun) hact
  · rw [if_pos (by simp [hact])]
    have hre := queueRemove hadv t
    refine ⟨hre.wf, fun u hu => ((relinks_queueRemove t q).other u hu).trans (hdata u hu), ?_⟩
    exact iff_of_false (fun hne => hne hre.self) hact

theorem refreshDepleted_other (p : BfpState) (ctl : SchedControl) (now : Nat) (hu : u ≠ t) :
    (bfpRefreshDepleted ctl now t p).data u = p.data u := by
  unfold bfpRefreshDepleted
  dsimp only
  split_ifs
  · rw [(relinks_readyInsert t false _).other u hu, (relinks_queueRemove t _).other u hu,
      updData_of_ne _ _ hu]
  · rw [(relinks_queueRemove t _).other u hu, updData_of_ne _ _ hu]
  · rfl

/-- One step of the depleted-queue walk. -/
theorem refreshDepleted (h : bfpView.Wf p) (ctl : SchedControl) (now : Nat) (t : Tid) :
    bfpView.Wf (bfpRefreshDepleted ctl now t p) ∧
      (bfpView.tag (bfpRefreshDepleted ctl now t p) t = .depleted →
        (bfpRefreshDepleted ctl now t p).data t = p.data t) ∧
      (Replenishable now p → bfpView.tag p t = .depleted → ctl.isActive t = true →
        bfpView.tag (bfpRefreshDepleted ctl now t p) t ≠ .none) := by
  unfold bfpRefreshDepleted bfpIsActive
  by_cases hend : (p.data t).periodEnded now = true
  swap
  · rw [if_neg hend]
    refine ⟨h, fun _ => rfl, fun _ htag _ => ?_⟩
    rw [htag]
    nofun
  rw [if_pos hend]
  have hre := queueRemove (wf_updData (t := t) h (advance_queue now)) t
  have hrem : ((bfpQueueRemove t (p.updData t (·.advanceInactivePeriod now))).data t).remainingTicks
      = ((p.data t).advanceInactivePeriod now).remainingTicks := by
    rw [(relinks_queueRemove t _).self, updData_self]
  dsimp only
  generalize p.updData t (·.advanceInactivePeriod now) = p₁ at hre hrem
  generalize bfpQueueRemove t p₁ = q at hre hrem
  split
  · have hlink := readyInsert hre.wf t false
    exact ⟨hlink.wf, hlink.self ▸ nofun, fun _ _ _ => hlink.self ▸ nofun⟩
  rename_i hcond
  refine ⟨hre.wf, hre.self ▸ nofun, fun hrep hdep hact => ?_⟩
  have hfull := BfpData.advance_remaining hend (hrep t hdep hend)
  have hpos := (p.data t).budget_pos
  rw [hact, Bool.true_and, decide_eq_true_iff, not_not, hrem, hfull] at hcond
  omega

/-- What each step of the ready-queue walk keeps, the walk keeps. -/
theorem advanceReady_inv {P : BfpState → Prop}
    (hstep : ∀ q t, P q → P (q.updData t (·.advanceInactivePeriod now))) (hp : P p) :
    P (bfpAdvanceReady now p) :=
  List.foldlRecOn p.priv.readyQueue _ hp fun q hq t _ => hstep q t hq

/-- The ready-queue walk changes the data of the threads it meets, and no tag. -/
theorem advanceReady (h : bfpView.Wf p) (now : Nat) :
    bfpView.Wf (bfpAdvanceReady now p) ∧
      (∀ u, bfpView.tag (bfpAdvanceReady now p) u = bfpView.tag p u) ∧
      (Replenishable now p → Replenishable now (bfpAdvanceReady now p)) := by
  -- what holds of the fold over any list, and in particular over the ready queue
  have hfold : ∀ (l : List Tid) (q : BfpState), bfpView.Wf q →
      let q' := l.foldl (fun p t => p.updData t (·.advanceInactivePeriod now)) q
      bfpView.Wf q' ∧ (∀ u, bfpView.tag q' u = bfpView.tag q u) ∧
        ∀ u, u ∉ l → q'.data u = q.data u := by
    intro l
    induction l with
    | nil => exact fun q hq => ⟨hq, fun _ => rfl, fun _ _ => rfl⟩
    | cons t l ih =>
      intro q hq
      obtain ⟨hwf, htag, hdata⟩ := ih _ (wf_updData (t := t) hq (advance_queue now))
      refine ⟨hwf, fun u => (htag u).trans (tag_updData (advance_queue now) u), fun u hu => ?_⟩
      rw [List.mem_cons, not_or] at hu
      exact (hdata u hu.2).trans (updData_of_ne q _ hu.1)
  obtain ⟨hwf, htag, hdata⟩ := hfold p.priv.readyQueue p h
  refine ⟨hwf, htag, fun hrep u hdep hend => ?_⟩
  have hdep' : bfpView.tag p u = .depleted := (htag u).symm.trans hdep
  have hnot : u ∉ p.priv.readyQueue := by
    intro hu
    have hready : bfpView.tag p u = .ready := (h.ready.mem_iff u).mp hu
    rw [hready] at hdep'
    cases hdep'
  have hsame : (bfpAdvanceReady now p).data u = p.data u := hdata u hnot
  rw [hsame] at hend ⊢
  exact hrep u hdep' hend

/-- What a refresh keeps of the queues of `p`; under the condition, every link. -/
structure Kept (now : Nat) (p q : BfpState) : Prop where
  wf : bfpView.Wf q
  old : ∀ u, bfpView.tag q u ≠ .none → bfpView.tag p u ≠ .none
  replenishable : Replenishable now p → Replenishable now q
  all : Replenishable now p → ∀ u, bfpView.tag p u ≠ .none → bfpView.tag q u ≠ .none

theorem Kept.refreshDepleted {q : BfpState} (hfit : bfpView.LinkedFit ctl p) (hq : Kept now p q)
    (ht : bfpView.tag q t = .depleted) : Kept now p (bfpRefreshDepleted ctl now t q) := by
  have hmem : bfpView.tag q t ≠ .none := by rw [ht]; nofun
  obtain ⟨hwf, hstay, hlink⟩ := BfpState.refreshDepleted hq.wf ctl now t
  have hdata : ∀ u, u ≠ t → (bfpRefreshDepleted ctl now t q).data u = q.data u :=
    fun u hu => refreshDepleted_other q ctl now hu
  have hother : ∀ u, u ≠ t → bfpView.tag (bfpRefreshDepleted ctl now t q) u = bfpView.tag q u :=
    fun u hu => congrArg bfpView.queue (hdata u hu)
  refine ⟨hwf, fun u hu => ?_, fun hrep => ?_, fun hrep u hu => ?_⟩
  · by_cases hut : u = t
    · exact hut ▸ hq.old t hmem
    · rw [hother u hut] at hu
      exact hq.old u hu
  · exact (hq.replenishable hrep).congr hdata fun htag _ => hstay htag
  · by_cases hut : u = t
    · rw [hut]
      exact hlink (hq.replenishable hrep) ht (hfit t (hq.old t hmem)).1
    · rw [hother u hut]
      exact hq.all hrep u hu

/-- What each step of the depleted-queue walk keeps, the walk keeps; it meets depleted threads. -/
theorem refreshQueues_inv {P : BfpState → Prop} (h : bfpView.Wf p) (hp : P (bfpAdvanceReady now p))
    (hstep : ∀ q t, bfpView.Wf q → bfpView.tag q t = .depleted → P q →
      P (bfpRefreshDepleted ctl now t q)) : P (bfpRefreshQueues ctl now p) := by
  unfold bfpRefreshQueues
  refine (Queue.forEachSafe_inv (fun q (hq : bfpView.Wf q ∧ P q) => hq.1.depleted.nodup) ?_ ?_ _ _ _
    ⟨(advanceReady h now).1, hp⟩ (fun x hx => List.mem_of_mem_head? hx)).2
  · intro t q hq ht
    exact ⟨(refreshDepleted hq.1 ctl now t).1, hstep q t hq.1 ((hq.1.depleted.mem_iff t).mp ht) hq.2⟩
  · intro t q hq _ u hu hne
    exact ((refreshDepleted hq.1 ctl now t).1.depleted.mem_iff u).mpr
      ((congrArg bfpView.queue (refreshDepleted_other q ctl now hne)).trans
        ((hq.1.depleted.mem_iff u).mp hu))

theorem refreshQueues (h : bfpView.Wf p) (hfit : bfpView.LinkedFit ctl p) (now : Nat) :
    Kept now p (bfpRefreshQueues ctl now p) := by
  obtain ⟨hwf, htag, hrep⟩ := advanceReady h now
  have hready : Kept now p (bfpAdvanceReady now p) :=
    ⟨hwf, fun u hu => htag u ▸ hu, hrep, fun _ u hu => (htag u).symm ▸ hu⟩
  exact refreshQueues_inv h hready fun q t _ ht hq => hq.refreshDepleted hfit ht

theorem accountRuntime_replenishable (h : Replenishable now p) (ctl : SchedControl) (t : Tid) :
    Replenishable now (bfpAccountRuntime ctl now t p) := by
  unfold bfpAccountRuntime
  split
  · exact h
  · refine h.congr (fun u hu => updData_of_ne p _ hu) fun _ hend => ?_
    rw [updData_self, BfpData.account_not_ended] at hend
    cases hend

/-- The timer charges the current thread and refreshes the queues. -/
theorem timer (h : bfpView.Wf p) (hfit : bfpView.LinkedFit ctl p) (now : Nat) :
    Kept now p (bfpTimerHandler now ctl p).1 := by
  have hq : bfpView.Wf { p with priv := { p.priv with timerDeadlineTicks := 0 } } := h
  have hfitq : bfpView.LinkedFit ctl { p with priv := { p.priv with timerDeadlineTicks := 0 } } :=
    hfit
  -- resetting the cached deadline changes neither data nor queues
  suffices hkept : Kept now { p with priv := { p.priv with timerDeadlineTicks := 0 } }
      (bfpTimerHandler now ctl p).1 from ⟨hkept.wf, hkept.old, hkept.replenishable, hkept.all⟩
  unfold bfpTimerHandler
  dsimp only
  generalize { p with priv := { p.priv with timerDeadlineTicks := 0 } } = q at hq hfitq
  split
  · exact refreshQueues hq hfitq now
  have hacc := accountRuntime hq ctl now ctl.currObj
  have hkept := refreshQueues hacc.wf (fun u hu => hfitq u (hacc.tag u ▸ hu)) now
  have hrep : Replenishable now q → Replenishable now (bfpAccountRuntime ctl now ctl.currObj q) :=
    fun hrep => accountRuntime_replenishable hrep ctl ctl.currObj
  exact ⟨hkept.wf, fun u hu => hacc.tag u ▸ hkept.old u hu,
    fun hp => hkept.replenishable (hrep hp),
    fun hp u hu => hkept.all (hrep hp) u ((hacc.tag u).symm ▸ hu)⟩

/-- The refresh of `pick_next`: the current thread is linked if it is active. -/
theorem refreshAll (h : bfpView.Wf p) (hfit : bfpView.LinkedFit ctl p) (hcurr : CurrFit ctl)
    (now : Nat) :
    bfpView.Wf (bfpRefreshAll ctl now p) ∧
      (∀ u, bfpView.tag (bfpRefreshAll ctl now p) u ≠ .none → bfpView.Eligible ctl p u) ∧
      (Replenishable now p → ∀ u, bfpView.Eligible ctl p u →
        bfpView.tag (bfpRefreshAll ctl now p) u ≠ .none) := by
  unfold bfpRefreshAll
  dsimp only
  by_cases hidle : ctl.isIdleThread ctl.currObj = true
  · rw [if_pos hidle]
    have hkept := refreshQueues h hfit now
    refine ⟨hkept.wf, fun u hu => .inl (hkept.old u hu), ?_⟩
    rintro hrep u (hu | ⟨rfl, hua⟩)
    · exact hkept.all hrep u hu
    · exact absurd (of_decide_eq_true hidle) (SchedControl.isActive_iff.mp hua).1
  rw [if_neg hidle]
  have hacc := accountRuntime h ctl now ctl.currObj
  obtain ⟨hwf₂, hdata, hlink⟩ := refreshThread hacc.wf ctl now ctl.currObj true
  have hend := refreshThread_not_ended (bfpAccountRuntime ctl now ctl.currObj p) ctl now
    ctl.currObj true
  have hrep : Replenishable now p → Replenishable now (bfpRefreshThread ctl now ctl.currObj true
      (bfpAccountRuntime ctl now ctl.currObj p)) := by
    intro hrep
    refine (accountRuntime_replenishable hrep ctl ctl.currObj).congr hdata fun _ he => ?_
    rw [hend] at he
    cases he
  generalize bfpRefreshThread ctl now ctl.currObj true (bfpAccountRuntime ctl now ctl.currObj p) = q
    at hwf₂ hdata hlink hend hrep
  have hmid : ∀ u, bfpView.tag q u ≠ .none ↔ bfpView.Eligible ctl p u := by
    intro u
    by_cases hu : u = ctl.currObj
    · rw [hu, hlink]
      refine ⟨fun hact => .inr ⟨rfl, hact⟩, ?_⟩
      rintro (hold | ⟨-, hact⟩)
      · exact (hfit _ hold).1
      · exact hact
    · have hsame : bfpView.tag q u = bfpView.tag p u :=
        (congrArg bfpView.queue (hdata u hu)).trans (hacc.tag u)
      rw [hsame]
      simp [Eligible, hu]
  have hkept := refreshQueues hwf₂ (hfit.eligible hcurr fun u hu => (hmid u).mp hu) now
  exact ⟨hkept.wf, fun u hu => (hmid u).mp (hkept.old u hu),
    fun hp u hu => hkept.all (hrep hp) u ((hmid u).mpr hu)⟩

/-! ### Hooks -/

theorem takeFirst (h : bfpView.Wf p) (ctl : SchedControl) (now : Nat)
    (hidle : bfpView.tag p ctl.idle = .none) :
    bfpView.Retags (bfpTakeFirst ctl now p).1 .none p (bfpTakeFirst ctl now p).2 ∧
      ((bfpTakeFirst ctl now p).1 ≠ ctl.idle → bfpView.tag p (bfpTakeFirst ctl now p).1 ≠ .none) := by
  unfold bfpTakeFirst
  split
  · rename_i first rest hq
    have hre := queueRemove h first
    have hstart := (Keeps.refl hre.wf).updData (f := fun d => { d with lastStartTicks := now })
      (fun _ => rfl) first
    refine ⟨hre.keeps hstart, fun _ => ?_⟩
    have hmem : first ∈ p.priv.readyQueue := hq ▸ List.mem_cons_self
    rw [show bfpView.tag p first = .ready from (h.ready.mem_iff first).mp hmem]
    nofun
  · exact ⟨.refl h hidle, fun hne => absurd rfl hne⟩

theorem pickNext (h : bfpView.Wf (bfpRefreshAll ctl now p))
    (hidle : bfpView.tag (bfpRefreshAll ctl now p) ctl.idle = .none) :
    let next := (schedBfpPickNext now ctl p).1
    bfpView.Retags next .none (bfpRefreshAll ctl now p) (schedBfpPickNext now ctl p).2 ∧
      (next ≠ ctl.idle → bfpView.tag (bfpRefreshAll ctl now p) next ≠ .none) := by
  have htake := takeFirst h ctl now hidle
  unfold schedBfpPickNext
  dsimp only
  generalize bfpTakeFirst ctl now (bfpRefreshAll ctl now p) = r at htake
  obtain ⟨hd, hr, hdep⟩ := programLocalTimer_eq ctl now r.1 r.2
  exact ⟨htake.1.keeps (.of_eq htake.1.wf hd hr hdep), htake.2⟩

variable (h : bfpView.Wf p)

include h

theorem sleep (env : Env) (ctl : SchedControl) (t : Tid) :
    bfpView.Retags t .none p (schedBfpSleep env ctl t p) := by
  have hacc : bfpView.Keeps p (if bfpIsCurrent ctl t then bfpAccountRuntime ctl env.now t p else p) := by
    split
    · exact accountRuntime h ctl env.now t
    · exact .refl h
  have hrem := queueRemove hacc.wf t
  exact (hacc.retags hrem).keeps ((Keeps.refl hrem.wf).updData
    (f := fun d => { d with lastStartTicks := 0 }) (fun _ => rfl) t)

theorem woken (now : Nat) (t : Tid) : ∃ x, x ≠ .none ∧ bfpView.Retags t x p (bfpWoken now t p) := by
  have hadv := (Keeps.refl h).updData
    (f := fun d => { d.advanceInactivePeriod now with lastStartTicks := 0 }) (advance_queue now) t
  unfold bfpWoken
  dsimp only
  generalize p.updData t (fun d => { d.advanceInactivePeriod now with lastStartTicks := 0 }) = q
    at hadv
  split
  · exact ⟨.ready, nofun, hadv.retags (readyInsert hadv.wf t false)⟩
  · exact ⟨.depleted, nofun, hadv.retags (depletedInsert hadv.wf t)⟩

theorem wake (env : Env) (ctl : SchedControl) (t : Tid) :
    bfpView.Wf (schedBfpWake env ctl t p) ∧ bfpView.tag (schedBfpWake env ctl t p) t ≠ .none ∧
      ∀ u, u ≠ t → bfpView.tag (schedBfpWake env ctl t p) u = bfpView.tag p u := by
  obtain ⟨x, hx, hwoken⟩ := woken h env.now t
  obtain ⟨hd, hr, hdep⟩ := programTimer_eq env ctl ctl.currObj (bfpWoken env.now t p)
  have hre := hwoken.keeps (.of_eq hwoken.wf hd hr hdep)
  exact ⟨hre.wf, hre.self ▸ hx, fun u hu => hre.of_ne hu⟩

end BfpState

/-- The BFP hooks keep the queues in order; a refresh drops no thread that can be replenished. -/
theorem bfpTagSpec : TagSpec schedBfp bfpView BfpReplenishable where
  wake env ctl t p h := BfpState.wake h env ctl t
  sleep env ctl t p h := ⟨(BfpState.sleep h env ctl t).wf, (BfpState.sleep h env ctl t).tag⟩
  prioritize _ _ _ _ h := ⟨h, fun _ _ => rfl, id, fun _ => rfl⟩
  prioritize_relinks _ _ _ _ h := h
  timer now ctl p h hfit _ := by
    have hkept := BfpState.timer h hfit now
    refine ⟨hkept.wf, fun u hu => .inl (hkept.old u hu), fun hrel => ?_⟩
    exact hkept.all ((BfpState.replenishable_iff h).mp hrel)
  pickNext now ctl p h hfit hcurr := by
    obtain ⟨hwf, hfrom, hall⟩ := BfpState.refreshAll h hfit hcurr now
    obtain ⟨hre, hnext⟩ := BfpState.pickNext hwf (hfit.eligible hcurr hfrom).idle
    refine ⟨_, hfrom, fun hrel => ?_, hre.wf, hnext, hre.tag⟩
    exact hall ((BfpState.replenishable_iff h).mp hrel)

end BeauOs.Sched
