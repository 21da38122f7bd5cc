/-
Virtual time under BVT without warp.

If no thread has a warp value, effective and actual virtual time are the same, the priority hook
does nothing, and the run queue is ordered by the ledger itself.  `VtInv` collects this with what
every run keeps of the static data and of the remainders.  What the hooks do to the ledger is said
once for each of them: `pick_next` charges the running thread and starts the head of the queue
(`pickNext_data`, `pickNext_head`), `wake` sets the woken thread's time, and nothing else moves it.
-/
import BeauOs.Proofs.Sched.DropRequest

namespace BeauOs.Sched

/-! ### The data of one thread -/

/-- No warp, and the static values are these. -/
structure BvtData.Plain (mcu ratio : Nat) (d : BvtData) : Prop where
  mcu_eq : d.mcu = mcu
  ratio_eq : d.vtRatio = ratio
  warp_value : d.warpValue = 0
  warp_off : d.warpOn = false
  residual_lt : d.residual < mcu

namespace BvtData.Plain

variable {mcu ratio now : Nat} {d : BvtData}

variable (h : d.Plain mcu ratio)

include h

theorem canWarp (now : Nat) : d.canWarp now = false := by
  unfold BvtData.canWarp
  rw [h.warp_value, if_neg (by decide)]

theorem updateEvt : d.updateEvt.Plain mcu ratio :=
  ⟨h.mcu_eq, h.ratio_eq, h.warp_value, h.warp_off, h.residual_lt⟩

theorem updateEvt_evt : d.updateEvt.evt = d.avt := by
  unfold BvtData.updateEvt
  rw [h.warp_off]
  rfl

theorem updateWarp (charged now : Nat) : d.updateWarpAfterCharge charged now = d := by
  unfold BvtData.updateWarpAfterCharge
  rw [h.warp_off]
  rfl

theorem adjustAvt (svt : Int) : (d.adjustAvt svt).Plain mcu ratio :=
  ⟨h.mcu_eq, h.ratio_eq, h.warp_value, h.warp_off, h.residual_lt⟩

theorem charge_residual_lt (now : Nat) :
    (if now > d.startTsc then d.virtualDelta now % d.mcu else d.residual) < mcu := by
  split
  · rw [h.mcu_eq]
    exact Nat.mod_lt _ (Nat.lt_of_le_of_lt (Nat.zero_le _) h.residual_lt)
  · exact h.residual_lt

/-- A charge moves the ledger and the remainder, and the key with the ledger. -/
theorem charge (now : Nat) :
    (d.charge now).Plain mcu ratio ∧ (d.charge now).evt = (d.charge now).avt ∧
      (d.charge now).avt = wrapInt64 (d.avt + d.chargedMcu now) ∧
      (d.charge now).startTsc = d.startTsc ∧
      (d.charge now).residual =
        (if now > d.startTsc then d.virtualDelta now % d.mcu else d.residual) := by
  have hmid : ({ d with
      residual := if now > d.startTsc then d.virtualDelta now % d.mcu else d.residual
      avt := wrapInt64 (d.avt + d.chargedMcu now) } : BvtData).Plain mcu ratio :=
    ⟨h.mcu_eq, h.ratio_eq, h.warp_value, h.warp_off, h.charge_residual_lt now⟩
  unfold BvtData.charge
  simp only
  rw [hmid.updateWarp]
  exact ⟨hmid.updateEvt, hmid.updateEvt_evt, rfl, rfl, rfl⟩

end BvtData.Plain

/-! ### The queue -/

/-- The queue is ordered by actual virtual time, which is also the key of what is queued. -/
structure BvtOrdered (p : BvtState) : Prop where
  nodup : p.priv.runqueue.Nodup
  sorted : p.priv.runqueue.Pairwise fun t u => (p.data t).avt ≤ (p.data u).avt
  evt : ∀ t ∈ p.priv.runqueue, (p.data t).evt = (p.data t).avt

namespace BvtOrdered

variable {p : BvtState} {t : Tid}

/-- Data of threads that are not queued may change. -/
theorem updData (h : BvtOrdered p) (f : BvtData → BvtData) (ht : t ∉ p.priv.runqueue) :
    BvtOrdered (p.updData t f) where
  nodup := h.nodup
  sorted := by
    refine h.sorted.imp_of_mem fun {a b} ha hb hle => ?_
    have hat : a ≠ t := fun e => ht (e ▸ ha)
    have hbt : b ≠ t := fun e => ht (e ▸ hb)
    rw [p.updData_of_ne f hat, p.updData_of_ne f hbt]
    exact hle
  evt u hu := by
    have hut : u ≠ t := fun e => ht (e ▸ hu)
    rw [p.updData_of_ne f hut]
    exact h.evt u hu

variable (h : BvtOrdered p)

include h

theorem remove (t : Tid) : BvtOrdered (bvtRunqueueRemove t p) where
  nodup := h.nodup.erase t
  sorted := h.sorted.sublist List.erase_sublist
  evt u hu := h.evt u (List.mem_of_mem_erase hu)

/-- A thread whose key is its virtual time gets the place of that time. -/
theorem add (ht : t ∉ p.priv.runqueue) (hevt : (p.data t).evt = (p.data t).avt) :
    BvtOrdered (bvtRunqueueAdd t p) := by
  have hperm := bvtRunqueueAdd_perm ht
  have hkey : ∀ u ∈ t :: p.priv.runqueue, (p.data u).evt = (p.data u).avt := by
    intro u hu
    rcases List.mem_cons.mp hu with rfl | hu
    · exact hevt
    · exact h.evt u hu
  have hdata : (bvtRunqueueAdd t p).data = p.data := by
    unfold bvtRunqueueAdd
    dsimp only
    split <;> rfl
  have hqueue : (bvtRunqueueAdd t p).priv.runqueue =
      Queue.insertBefore (fun u => decide ((p.data t).evt < (p.data u).evt)) t
        p.priv.runqueue := by
    unfold bvtRunqueueAdd bvtIsInqueue
    dsimp only
    rw [if_pos (by simp [ht])]
  have hsorted : p.priv.runqueue.Pairwise fun a b => (p.data a).evt ≤ (p.data b).evt :=
    h.sorted.imp_of_mem fun {a b} ha hb hle => by
      rw [h.evt a ha, h.evt b hb]
      exact hle
  refine ⟨hperm.nodup_iff.mpr (List.nodup_cons.mpr ⟨ht, h.nodup⟩), ?_, ?_⟩
  · rw [hdata]
    have hins := Queue.pairwise_insertBefore (fun u => (p.data u).evt) t
      (fun _ => decide_eq_true_iff) hsorted
    rw [← hqueue] at hins
    refine hins.imp_of_mem fun {a b} ha hb hle => ?_
    rw [hkey a (hperm.mem_iff.mp ha), hkey b (hperm.mem_iff.mp hb)] at hle
    exact hle
  · intro u hu
    rw [hdata]
    exact hkey u (hperm.mem_iff.mp hu)

/-- The charged thread moves to its new place; one that is not queued stays out. -/
theorem requeue {f : BvtData → BvtData} (hevt : (f (p.data t)).evt = (f (p.data t)).avt) :
    BvtOrdered (bvtRequeue t (p.updData t f)) := by
  unfold bvtRequeue bvtIsInqueue
  split
  next hin =>
    have hmem : t ∈ p.priv.runqueue := of_decide_eq_true hin
    have hnot : t ∉ (bvtRunqueueRemove t p).priv.runqueue := h.nodup.not_mem_erase
    have hrem : BvtOrdered ((bvtRunqueueRemove t p).updData t f) := (h.remove t).updData f hnot
    refine hrem.add hnot ?_
    show (Function.update p.data t (f (p.data t)) t).evt =
      (Function.update p.data t (f (p.data t)) t).avt
    rw [Function.update_self]
    exact hevt
  next hout => exact h.updData f fun hmem => hout (decide_eq_true hmem)

end BvtOrdered

theorem bvtRunqueueAdd_data (t : Tid) (p : BvtState) : (bvtRunqueueAdd t p).data = p.data := by
  unfold bvtRunqueueAdd
  dsimp only
  split <;> rfl

theorem bvtRequeue_data (t : Tid) (p : BvtState) : (bvtRequeue t p).data = p.data := by
  unfold bvtRequeue
  split
  · exact bvtRunqueueAdd_data t _
  · rfl

/-! ### `pick_next` -/

section PickNext

variable {now : Nat} {ctl : SchedControl} {p : BvtState}

theorem bvtUpdateSvt_data (p : BvtState) : (bvtUpdateSvt p).data = p.data := by
  unfold bvtUpdateSvt
  split <;> rfl

theorem bvtUpdateSvt_svt {first : Tid} {rest : List Tid} (h : p.priv.runqueue = first :: rest) :
    (bvtUpdateSvt p).priv.svt = (p.data first).avt := by
  unfold bvtUpdateSvt
  rw [h]

def chargedData (now : Nat) (ctl : SchedControl) (p : BvtState) (t : Tid) : BvtData :=
  if t = ctl.currObj ∧ ctl.currObj ≠ ctl.idle then (p.data t).charge now else p.data t

theorem chargedData_cur (now : Nat) (p : BvtState) (hidle : ctl.currObj ≠ ctl.idle) :
    chargedData now ctl p ctl.currObj = (p.data ctl.currObj).charge now := if_pos ⟨rfl, hidle⟩

theorem chargedData_of_ne (now : Nat) (p : BvtState) {t : Tid} (h : t ≠ ctl.currObj) :
    chargedData now ctl p t = p.data t := if_neg fun hc => h hc.1

theorem bvtCharged_data (now : Nat) (ctl : SchedControl) (p : BvtState) :
    (bvtCharged now ctl p).data = chargedData now ctl p := by
  unfold bvtCharged bvtChargeCurrent bvtUpdateVt
  rw [bvtUpdateSvt_data]
  funext t
  by_cases hidle : ctl.currObj = ctl.idle
  · rw [if_pos (show ctl.isIdleThread ctl.currObj = true from decide_eq_true hidle)]
    exact (if_neg fun h => h.2 hidle).symm
  rw [if_neg (show ¬ctl.isIdleThread ctl.currObj = true from fun h => hidle (of_decide_eq_true h)),
    bvtRequeue_data]
  by_cases ht : t = ctl.currObj
  · rw [ht, p.updData_self, chargedData_cur now p hidle]
  · rw [p.updData_of_ne _ ht, chargedData_of_ne now p ht]

/-- The head of the queue starts now; else `pick_next` changes what the charge changed. -/
theorem pickNext_data (now : Nat) (ctl : SchedControl) (p : BvtState) (t : Tid) :
    (schedBvtPickNext now ctl p).2.data t = chargedData now ctl p t ∨
      (t = (schedBvtPickNext now ctl p).1 ∧
        (schedBvtPickNext now ctl p).2.data t = { chargedData now ctl p t with startTsc := now }) := by
  rw [← bvtCharged_data]
  have hpick : schedBvtPickNext now ctl p = bvtTakeFirst ctl now
      { bvtCharged now ctl p with tickTimer := (bvtCharged now ctl p).tickTimer.del } := rfl
  rw [hpick]
  generalize bvtCharged now ctl p = q
  unfold bvtTakeFirst
  dsimp only
  split
  next first rest hq =>
    rw [(bvtArmTimer_eq ctl now (first :: rest) _).1]
    by_cases ht : t = first
    · refine .inr ⟨ht, ?_⟩
      rw [ht]
      exact PolicyState.updData_self _ _ _
    · exact .inl (PolicyState.updData_of_ne _ _ ht)
  next => exact .inl rfl

/-- What `pick_next` leaves if there is a thread to run. -/
theorem pickNext_head {first : Tid} {rest : List Tid}
    (hq : (schedBvtPickNext now ctl p).2.priv.runqueue = first :: rest) :
    (schedBvtPickNext now ctl p).1 = first ∧
      (schedBvtPickNext now ctl p).2.data first =
        { chargedData now ctl p first with startTsc := now } ∧
      (schedBvtPickNext now ctl p).2.priv.svt = (chargedData now ctl p first).avt ∧
      (schedBvtPickNext now ctl p).2.tickTimer =
        (bvtArmTimer ctl now (first :: rest)
          { (schedBvtPickNext now ctl p).2 with tickTimer := p.tickTimer.del }).tickTimer := by
  have hqueue := (schedBvtPickNext_queue now ctl p).1
  rw [hq] at hqueue
  have hdata := bvtCharged_data now ctl p
  have hsvt : (bvtCharged now ctl p).priv.svt = (chargedData now ctl p first).avt := by
    have hq' : (bvtChargeCurrent now ctl p).priv.runqueue = first :: rest :=
      (bvtUpdateSvt_runqueue _).symm.trans hqueue.symm
    rw [← hdata]
    show (bvtUpdateSvt (bvtChargeCurrent now ctl p)).priv.svt =
      ((bvtUpdateSvt (bvtChargeCurrent now ctl p)).data first).avt
    rw [bvtUpdateSvt_svt hq', bvtUpdateSvt_data]
  have htimer : (bvtCharged now ctl p).tickTimer = p.tickTimer := by
    unfold bvtCharged bvtUpdateSvt bvtChargeCurrent bvtUpdateVt bvtRequeue bvtRunqueueAdd
      bvtRunqueueRemove
    dsimp only
    split <;> split <;> first | rfl | (split <;> first | rfl | (split <;> rfl))
  have hpick : schedBvtPickNext now ctl p = (first, bvtArmTimer ctl now (first :: rest)
      (({ bvtCharged now ctl p with tickTimer := (bvtCharged now ctl p).tickTimer.del } :
        BvtState).updData first fun d => { d with startTsc := now })) := by
    show bvtTakeFirst ctl now { bvtCharged now ctl p with
      tickTimer := (bvtCharged now ctl p).tickTimer.del } = _
    unfold bvtTakeFirst
    dsimp only
    rw [← hqueue]
  rw [hpick]
  generalize bvtCharged now ctl p = q at hdata hsvt htimer
  have harm := bvtArmTimer_eq ctl now (first :: rest)
    (({ q with tickTimer := q.tickTimer.del } : BvtState).updData first
      fun d => { d with startTsc := now })
  refine ⟨rfl, ?_, ?_, ?_⟩
  · show (bvtArmTimer ctl now (first :: rest) _).data first = _
    rw [harm.1, PolicyState.updData_self]
    show { q.data first with startTsc := now } = _
    rw [hdata]
  · show (bvtArmTimer ctl now (first :: rest) _).priv.svt = _
    rw [harm.2]
    exact hsvt
  · dsimp only
    rw [harm.1, harm.2, ← htimer]
    rfl

/-- Without a thread to run the scheduler virtual time stays as it is. -/
theorem pickNext_svt_idle (hq : (schedBvtPickNext now ctl p).2.priv.runqueue = []) :
    (schedBvtPickNext now ctl p).2.priv.svt = p.priv.svt := by
  have hqueue := (schedBvtPickNext_queue now ctl p).1
  rw [hq] at hqueue
  have hpick : (schedBvtPickNext now ctl p).2.priv = (bvtCharged now ctl p).priv := by
    show (bvtTakeFirst ctl now { bvtCharged now ctl p with
      tickTimer := (bvtCharged now ctl p).tickTimer.del }).2.priv = _
    unfold bvtTakeFirst
    dsimp only
    rw [← hqueue]
  have hcur : (bvtChargeCurrent now ctl p).priv.svt = p.priv.svt := by
    unfold bvtChargeCurrent bvtUpdateVt bvtRequeue bvtRunqueueAdd bvtRunqueueRemove
    dsimp only
    split_ifs <;> rfl
  have hnil : (bvtChargeCurrent now ctl p).priv.runqueue = [] :=
    (bvtUpdateSvt_runqueue _).symm.trans hqueue.symm
  rw [hpick]
  show (bvtUpdateSvt (bvtChargeCurrent now ctl p)).priv.svt = _
  unfold bvtUpdateSvt
  rw [hnil]
  exact hcur

/-- `pick_next` reads of the control block who is current, who is idle and the tick rate. -/
theorem pickNext_congr {ctl' : SchedControl} (hcur : ctl'.currObj = ctl.currObj)
    (hidle : ctl'.idle = ctl.idle) (htick : ctl'.tickrate = ctl.tickrate) :
    schedBvtPickNext now ctl' p = schedBvtPickNext now ctl p := by
  have harm : ∀ q (p : BvtState), bvtArmTimer ctl' now q p = bvtArmTimer ctl now q p := by
    intro q p
    unfold bvtArmTimer
    rw [htick]
  unfold schedBvtPickNext bvtChargeCurrent bvtTakeFirst SchedControl.isIdleThread
  simp only [hcur, hidle, harm]

end PickNext

/-! ### Every run -/

/-- What every run without warp keeps: one unit of charge, and each thread's ratio. -/
structure VtInv (mcu : Nat) (ratio : Tid → Nat) (s : Pcpu BvtData BvtControl) : Prop where
  link : LinkInv bvtLinks BvtQueueWf s
  queued : ActiveLinked bvtLinks s
  tick : bvtMcuMs * usToTicks s.ctl.tickrate 1000 = mcu
  plain : ∀ t, (s.pol.data t).Plain mcu (ratio t)
  ordered : BvtOrdered s.pol

section Runs

variable {mcu : Nat} {ratio : Tid → Nat} {s : Pcpu BvtData BvtControl} {t : Tid} {p : BvtState}
  {r : Nat}

theorem bvtStartWarp_plain (h : (p.data t).Plain mcu r) (now : Nat) : bvtStartWarp now t p = p := by
  unfold bvtStartWarp
  rw [h.warp_off, h.canWarp now]
  rfl

theorem consumePriorities_plain (hctl : CtlInv s.ctl)
    (h : ∀ t, (s.pol.data t).Plain mcu (ratio t)) (now : Nat) :
    (consumePriorities schedBvt now s).pol = s.pol := by
  have hrule : CtlInv (consumePriorities schedBvt now s).ctl ∧
      (consumePriorities schedBvt now s).pol = s.pol := by
    refine consumePriorities_rule (fun s' => CtlInv s'.ctl ∧ s'.pol = s.pol) (fun _ h => h.1)
      (fun _ _ hv h => ⟨hv.ctlInv h.1, h.2⟩) ?_ ⟨hctl, rfl⟩
    rintro s' u - - ⟨hctl', hpol⟩
    refine ⟨hctl', ?_⟩
    show bvtStartWarp now u s'.pol = s.pol
    rw [hpol]
    exact bvtStartWarp_plain (h u) now
  exact hrule.2

/-- `schedule()` asks `pick_next`, unless management work makes it select idle. -/
theorem schedule_plain (hctl : CtlInv s.ctl) (h : ∀ t, (s.pol.data t).Plain mcu (ratio t))
    (now : Nat) (suspend reset : Bool) :
    (schedIdleWorkPending s.ctl suspend reset = true →
      (schedule schedBvt now suspend reset s).pol = s.pol ∧
        (schedule schedBvt now suspend reset s).ctl.currObj = s.ctl.idle) ∧
    (schedIdleWorkPending s.ctl suspend reset = false →
      (schedule schedBvt now suspend reset s).pol = (schedBvtPickNext now s.ctl s.pol).2 ∧
        (schedule schedBvt now suspend reset s).ctl.currObj =
          (schedBvtPickNext now s.ctl s.pol).1) := by
  have hview := (consumePriorities_view schedBvt now s).1
  have hpol := consumePriorities_plain hctl h now
  have hwork := schedIdleWorkPending_consume schedBvt now s suspend reset
  unfold schedule selectNext
  dsimp only
  rw [hwork]
  refine ⟨fun hw => ?_, fun hw => ?_⟩
  · rw [if_pos hw, switchTo_currObj]
    exact ⟨hpol, hview.idle⟩
  · rw [if_neg (by rw [hw]; exact Bool.false_ne_true), switchTo_currObj]
    show (schedBvtPickNext now _ (consumePriorities schedBvt now s).pol).2 = _ ∧
      (schedBvtPickNext now _ (consumePriorities schedBvt now s).pol).1 = _
    rw [hpol, pickNext_congr hview.currObj hview.idle
      (consumePriorities_touched schedBvt now .timer s).tickrate]
    exact ⟨rfl, rfl⟩

theorem chargedData_plain (h : ∀ t, (p.data t).Plain mcu (ratio t)) (now : Nat)
    (ctl : SchedControl) (t : Tid) : (chargedData now ctl p t).Plain mcu (ratio t) := by
  unfold chargedData
  split
  · exact ((h t).charge now).1
  · exact h t

theorem pickNext_plain (h : ∀ t, (p.data t).Plain mcu (ratio t)) (now : Nat)
    (ctl : SchedControl) (t : Tid) :
    ((schedBvtPickNext now ctl p).2.data t).Plain mcu (ratio t) := by
  have hc := chargedData_plain h now ctl t
  obtain hd | ⟨-, hd⟩ := pickNext_data now ctl p t
  · rw [hd]
    exact hc
  · rw [hd]
    exact ⟨hc.mcu_eq, hc.ratio_eq, hc.warp_value, hc.warp_off, hc.residual_lt⟩

theorem pickNext_avt (now : Nat) (ctl : SchedControl) (p : BvtState) (t : Tid) :
    ((schedBvtPickNext now ctl p).2.data t).avt = (chargedData now ctl p t).avt ∧
      ((schedBvtPickNext now ctl p).2.data t).evt = (chargedData now ctl p t).evt ∧
      ((schedBvtPickNext now ctl p).2.data t).residual = (chargedData now ctl p t).residual := by
  obtain hd | ⟨-, hd⟩ := pickNext_data now ctl p t
  · rw [hd]
    exact ⟨rfl, rfl, rfl⟩
  · rw [hd]
    exact ⟨rfl, rfl, rfl⟩

theorem BvtOrdered.pickNext (h : BvtOrdered p)
    (hplain : ∀ t, (p.data t).Plain mcu (ratio t)) (now : Nat) (ctl : SchedControl) :
    BvtOrdered (schedBvtPickNext now ctl p).2 := by
  have hcharged : BvtOrdered (bvtCharged now ctl p) := by
    have hcur : BvtOrdered (bvtChargeCurrent now ctl p) := by
      unfold bvtChargeCurrent bvtUpdateVt
      split
      · exact h
      · exact h.requeue ((hplain ctl.currObj).charge now).2.1
    have hq := bvtUpdateSvt_runqueue (bvtChargeCurrent now ctl p)
    have hd := bvtUpdateSvt_data (bvtChargeCurrent now ctl p)
    unfold bvtCharged
    refine ⟨hq ▸ hcur.nodup, ?_, ?_⟩
    · rw [hq, hd]
      exact hcur.sorted
    · rw [hq, hd]
      exact hcur.evt
  have hq := (schedBvtPickNext_queue now ctl p).1
  have hd := bvtCharged_data now ctl p
  refine ⟨hq ▸ hcharged.nodup, ?_, ?_⟩
  · rw [hq]
    refine hcharged.sorted.imp fun {a b} hle => ?_
    rw [(pickNext_avt now ctl p a).1, (pickNext_avt now ctl p b).1, ← hd]
    exact hle
  · intro u hu
    rw [hq] at hu
    rw [(pickNext_avt now ctl p u).1, (pickNext_avt now ctl p u).2.1, ← hd]
    exact hcharged.evt u hu

theorem schedBvtWake_plain (h : (p.data t).Plain mcu r) (env : Env) (ctl : SchedControl) :
    schedBvtWake env ctl t p =
      bvtRunqueueAdd t (p.updData t fun d => (d.adjustAvt p.priv.svt).updateEvt) := by
  have hplain : ((p.updData t (·.adjustAvt p.priv.svt)).data t).Plain mcu r := by
    rw [p.updData_self]
    exact h.adjustAvt _
  unfold schedBvtWake
  dsimp only
  rw [bvtStartWarp_plain hplain]
  unfold PolicyState.updData
  dsimp only
  rw [Function.update_self, Function.update_idem]

theorem schedBvtWake_data (h : (p.data t).Plain mcu r) (env : Env) (ctl : SchedControl) (u : Tid) :
    (schedBvtWake env ctl t p).data u =
      if u = t then ((p.data t).adjustAvt p.priv.svt).updateEvt else p.data u := by
  rw [schedBvtWake_plain h, bvtRunqueueAdd_data]
  by_cases hu : u = t
  · rw [if_pos hu, hu, p.updData_self]
  · rw [if_neg hu, p.updData_of_ne _ hu]

theorem BvtOrdered.wake (h : BvtOrdered p) (hp : (p.data t).Plain mcu r) (ht : t ∉ p.priv.runqueue)
    (env : Env) (ctl : SchedControl) : BvtOrdered (schedBvtWake env ctl t p) := by
  rw [schedBvtWake_plain hp]
  refine (h.updData _ ht).add ht ?_
  rw [p.updData_self, (hp.adjustAvt _).updateEvt_evt]
  rfl

theorem timerCallback_bvt (now : Nat) (s : Pcpu BvtData BvtControl) :
    (timerCallback schedBvt now s).pol.data = s.pol.data ∧
      (timerCallback schedBvt now s).pol.priv = s.pol.priv := by
  unfold timerCallback
  dsimp only
  split_ifs <;> exact ⟨rfl, rfl⟩

theorem VtInv.step (h : VtInv mcu ratio s) (call : Env × Op) (hvalid : call.2.Valid s.ctl) :
    VtInv mcu ratio (step schedBvt s call) := by
  have hlink := (step_linked bvtLinkSpec h.link call hvalid).1
  have hqueued := h.queued.step bvtLinkSpec bvtStaysLinked h.link call hvalid
  have htick := (step_touched schedBvt s call).tickrate.symm ▸ h.tick
  suffices hpol : (∀ t, ((BeauOs.Sched.step schedBvt s call).pol.data t).Plain mcu (ratio t)) ∧
      BvtOrdered (BeauOs.Sched.step schedBvt s call).pol from
    ⟨hlink, hqueued, htick, hpol.1, hpol.2⟩
  have hkind := step_kind schedBvt s call hvalid
  generalize BeauOs.Sched.step schedBvt s call = s' at hkind ⊢
  cases hkind with
  | view => exact ⟨h.plain, h.ordered⟩
  | sleep => exact ⟨h.plain, h.ordered.remove _⟩
  | @wake env _ ctl t hview htarget hwake =>
    have hzero := (h.link.sameView hview).wake_unlinked (htarget.sameView hview) hwake
    rw [wakeThreadLocked_pol (s := ⟨ctl, s.pol⟩) schedBvt env hwake]
    refine ⟨fun u => ?_, h.ordered.wake (h.plain t) (List.count_eq_zero.mp hzero) env ctl⟩
    show ((schedBvtWake env ctl t s.pol).data u).Plain mcu (ratio u)
    rw [schedBvtWake_data (h.plain t)]
    split
    next hu =>
      rw [hu]
      exact ((h.plain t).adjustAvt _).updateEvt
    next => exact h.plain u
  | @timer env =>
    obtain ⟨hdata, hpriv⟩ := timerCallback_bvt env.now s
    refine ⟨fun u => hdata ▸ h.plain u, ?_, ?_, ?_⟩
    · exact hpriv ▸ h.ordered.nodup
    · rw [hpriv, hdata]
      exact h.ordered.sorted
    · rw [hpriv, hdata]
      exact h.ordered.evt
  | @schedule env suspend reset =>
    obtain ⟨hidle, hpick⟩ := schedule_plain h.link.ctl h.plain env.now suspend reset
    cases hwork : schedIdleWorkPending s.ctl suspend reset with
    | true =>
      rw [(hidle hwork).1]
      exact ⟨h.plain, h.ordered⟩
    | false =>
      rw [(hpick hwork).1]
      exact ⟨pickNext_plain h.plain env.now s.ctl, h.ordered.pickNext h.plain env.now s.ctl⟩

/-- Data as `sched_bvt_init_data` leaves them, for any weight and without warp. -/
def BvtData.IsInit (khz : Nat) (d : BvtData) : Prop :=
  ∃ old weight limit period, d = BvtData.init old khz weight 0 limit period

/-- The ratio each thread is created with. -/
def BootConfig.vtRatio (cfg : BootConfig BvtData) (t : Tid) : Nat :=
  ((cfg.boot BvtControl.init).pol.data t).vtRatio

/-- Every reachable state of a pCPU whose threads have no warp. -/
theorem vtInv_reached {cfg : BootConfig BvtData} (hfresh : cfg.Fresh (BvtData.IsInit cfg.tickrate))
    (hrate : 0 < cfg.tickrate) {calls : List (Env × Op)}
    (hrun : Admitted schedBvt cfg BvtControl.init calls) :
    VtInv (bvtMcuMs * usToTicks cfg.tickrate 1000) cfg.vtRatio
      (reached schedBvt cfg BvtControl.init calls) := by
  have hmcu : 0 < bvtMcuMs * usToTicks cfg.tickrate 1000 := by
    unfold bvtMcuMs usToTicks
    omega
  obtain ⟨hlink, hqueued⟩ := bvt_reached (show Admitted schedBvt cfg BvtControl.init [] from trivial)
  have hboot : VtInv (bvtMcuMs * usToTicks cfg.tickrate 1000) cfg.vtRatio
      (cfg.boot BvtControl.init) := by
    refine ⟨hlink, hqueued, rfl, fun t => ?_, List.nodup_nil, List.Pairwise.nil,
      fun _ hu => absurd hu List.not_mem_nil⟩
    obtain ⟨old, weight, limit, period, hd⟩ := cfg.boot_data hfresh BvtControl.init t
    refine ⟨?_, rfl, ?_, ?_, ?_⟩ <;> rw [hd]
    · rfl
    · rfl
    · rfl
    · exact hmcu
  exact Run.inv_exec (fun s call (hs : VtInv _ _ s) hvalid => hs.step call hvalid) hboot hrun

end Runs

end BeauOs.Sched
