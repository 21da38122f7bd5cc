/-
Threads that stay runnable share the CPU by their weights.

`pick_next` runs the thread with the smallest virtual time and arms a timer for the moment at which
it will have caught up with the second, plus the context switch allowance.  So when the thread is
charged it is ahead of every other thread by at most the allowance, counted at its own ratio.  That
bounds how far any two of the threads can be apart: nobody else has moved, and the one that was
charged was not ahead of the others before.

Other threads of the pCPU may sleep and wake meanwhile.  They can only make the timer earlier, since
the second thread of the queue is never later than the threads that stay.

From virtual times the bound goes over to CPU time.  What a thread ran, times its ratio, is what was
added to its ledger, up to remainders of less than one unit.  This needs that every `schedule()`
asks the policy: when management work is pending it selects idle, and the time that the outgoing
thread ran is not charged.
-/
import Mathlib
import BeauOs.Proofs.Sched.BvtVirtualTime

namespace BeauOs.Sched

/-! ### Runs with a deadline -/

/-- A pCPU, the timer that `pick_next` armed last, and how long each thread has run. -/
structure BvtRun where
  pcpu : Pcpu BvtData BvtControl
  due : Option Nat
  ran : Tid → Nat

/-- The time of an armed timer. -/
def HvTimer.due (timer : HvTimer) : Option Nat := if timer.started then some timer.timeout else none

namespace BvtRun

/-- The current thread has run since it was picked. -/
def account (x : BvtRun) (now : Nat) : Tid → Nat :=
  let cur := x.pcpu.ctl.currObj
  if cur = x.pcpu.ctl.idle then x.ran
  else Function.update x.ran cur (x.ran cur + (now - (x.pcpu.pol.data cur).startTsc))

theorem account_cur (x : BvtRun) (now : Nat) (hidle : x.pcpu.ctl.currObj ≠ x.pcpu.ctl.idle) :
    x.account now x.pcpu.ctl.currObj = x.ran x.pcpu.ctl.currObj +
      (now - (x.pcpu.pol.data x.pcpu.ctl.currObj).startTsc) := by
  unfold account
  rw [if_neg hidle, Function.update_self]

theorem account_of_ne (x : BvtRun) (now : Nat) {t : Tid} (h : t ≠ x.pcpu.ctl.currObj) :
    x.account now t = x.ran t := by
  unfold account
  split
  · rfl
  · exact Function.update_of_ne h _ _

/-- One call; a `schedule()` that asks the policy sets the deadline anew. -/
def step (x : BvtRun) (call : Env × Op) : BvtRun :=
  let next := BeauOs.Sched.step schedBvt x.pcpu call
  match call.2 with
  | .schedule suspend reset =>
    { pcpu := next
      due := if schedIdleWorkPending x.pcpu.ctl suspend reset then x.due else next.pol.tickTimer.due
      ran := x.account call.1.now }
  | _ => { x with pcpu := next }

/-- Just after a `schedule()` at `now`, with nothing accounted yet. -/
def start (s : Pcpu BvtData BvtControl) (now : Nat) : BvtRun where
  pcpu := schedule schedBvt now false false s
  due := (schedule schedBvt now false false s).pol.tickTimer.due
  ran := fun _ => 0

end BvtRun

/-- The virtual times of these threads differ by at most `B`. -/
def Spread (S : List Tid) (p : BvtState) (B : Nat) : Prop :=
  ∀ i ∈ S, ∀ j ∈ S, (p.data i).avt ≤ (p.data j).avt + B

instance (S : List Tid) (p : BvtState) (B : Nat) : Decidable (Spread S p B) :=
  inferInstanceAs (Decidable (∀ i ∈ S, ∀ j ∈ S, _))

def maxVtRatio (S : List Tid) (p : BvtState) : Nat := (S.map fun t => (p.data t).vtRatio).foldr max 0

/-- The allowance at the largest ratio, plus one. -/
def fairBound (S : List Tid) (p : BvtState) : Nat := bvtCsaMcu * maxVtRatio S p + 1

/-- The virtual ticks a thread has run at `now`, with its remainder. -/
def BvtData.exactDelta (d : BvtData) (now : Nat) : Nat :=
  (now - d.startTsc) * d.vtRatio + d.residual

/-- The charge of one of these threads, and the timer armed after it, stay within 64 bits. -/
def Fits (S : List Tid) (B : Nat) (s : Pcpu BvtData BvtControl) (now : Nat) : Prop :=
  now + (B + bvtCsaMcu) * (bvtMcuMs * usToTicks s.ctl.tickrate 1000) ≤ uint64Max ∧
    (s.ctl.currObj ∈ S →
      let d := s.pol.data s.ctl.currObj
      d.exactDelta now ≤ uint64Max ∧ -2 ^ 63 ≤ d.avt ∧
        d.avt + (d.exactDelta now / d.mcu : Nat) < 2 ^ 63)

instance (S : List Tid) (B : Nat) (s : Pcpu BvtData BvtControl) (now : Nat) :
    Decidable (Fits S B s now) :=
  inferInstanceAs (Decidable (_ ∧ (_ → _ ∧ _ ∧ _)))

/-- A `schedule()` comes no later than the armed timer and within 64 bits. -/
def OnTime (S : List Tid) (B : Nat) (x : BvtRun) (call : Env × Op) : Prop :=
  match call.2 with
  | .schedule _ _ => (∀ d ∈ x.due, call.1.now ≤ d) ∧ Fits S B x.pcpu call.1.now
  | _ => True

instance (S : List Tid) (B : Nat) (x : BvtRun) (call : Env × Op) : Decidable (OnTime S B x call) :=
  match call with
  | (_, .schedule _ _) => inferInstanceAs (Decidable (_ ∧ _))
  | (_, .wake _) | (_, .sleep _) | (_, .requestPriority _) | (_, .freeze _ _) | (_, .thaw _ _ _)
  | (_, .requestQuiesce _ _) | (_, .ackQuiesce) | (_, .releaseQuiesce _) | (_, .timer) =>
    isTrue trivial

/-- The threads are runnable or running on this pCPU. -/
def AllActive (S : List Tid) (ctl : SchedControl) : Prop :=
  ∀ t ∈ S, ctl.Local t ∧ ctl.isActive t = true

instance (S : List Tid) (ctl : SchedControl) : Decidable (AllActive S ctl) :=
  inferInstanceAs (Decidable (∀ t ∈ S, _ ∧ _))

/-- The steps of a run in which these threads stay runnable. -/
def StaysRunnable (S : List Tid) (B : Nat) (x : BvtRun) (call : Env × Op) : Prop :=
  call.2.Valid x.pcpu.ctl ∧ AllActive S x.pcpu.ctl ∧ OnTime S B x call

instance (S : List Tid) (B : Nat) (x : BvtRun) (call : Env × Op) :
    Decidable (StaysRunnable S B x call) :=
  inferInstanceAs (Decidable (_ ∧ _ ∧ _))

/-- No management work makes `schedule()` select idle. -/
def AsksPolicy (x : BvtRun) (call : Env × Op) : Prop :=
  match call.2 with
  | .schedule suspend reset => schedIdleWorkPending x.pcpu.ctl suspend reset = false
  | _ => True

instance (x : BvtRun) (call : Env × Op) : Decidable (AsksPolicy x call) :=
  match call with
  | (_, .schedule _ _) => inferInstanceAs (Decidable (_ = _))
  | (_, .wake _) | (_, .sleep _) | (_, .requestPriority _) | (_, .freeze _ _) | (_, .thaw _ _ _)
  | (_, .requestQuiesce _ _) | (_, .ackQuiesce) | (_, .releaseQuiesce _) | (_, .timer) =>
    isTrue trivial

/-! ### Charging -/

section Charge

variable {mcu ratio now : Nat} {d : BvtData}

theorem wrapInt64_eq {a : Int} (hlo : -2 ^ 63 ≤ a) (hhi : a < 2 ^ 63) : wrapInt64 a = a := by
  unfold wrapInt64
  exact Int.bmod_eq_of_le (by omega) (by omega)

/-- Without overflow a charge is the division it is meant to be. -/
theorem BvtData.Plain.charge_exact (h : d.Plain mcu ratio) (hfit : d.exactDelta now ≤ uint64Max)
    (hlo : -2 ^ 63 ≤ d.avt) (hhi : d.avt + (d.exactDelta now / d.mcu : Nat) < 2 ^ 63) :
    (d.charge now).avt = d.avt + (d.exactDelta now / mcu : Nat) ∧
      (d.charge now).residual = d.exactDelta now % mcu := by
  obtain ⟨-, -, havt, -, hres⟩ := h.charge now
  have hvirtual : d.virtualDelta now = d.exactDelta now := by
    have hprod : (now - d.startTsc) * d.vtRatio ≤ d.exactDelta now := Nat.le_add_right _ _
    unfold BvtData.virtualDelta mul64
    rw [Nat.mod_eq_of_lt (by unfold uint64Max at hfit; omega), add64_eq hfit]
    rfl
  have hcharged : d.chargedMcu now = d.exactDelta now / mcu ∧
      (if now > d.startTsc then d.virtualDelta now % d.mcu else d.residual) =
        d.exactDelta now % mcu := by
    unfold BvtData.chargedMcu
    rw [hvirtual, h.mcu_eq]
    by_cases hlate : now > d.startTsc
    · rw [if_pos hlate, if_pos hlate]
      exact ⟨rfl, rfl⟩
    have hzero : d.exactDelta now = d.residual := by
      unfold BvtData.exactDelta
      rw [Nat.sub_eq_zero_of_le (Nat.le_of_not_lt hlate), Nat.zero_mul, Nat.zero_add]
    rw [if_neg hlate, if_neg hlate, hzero, Nat.div_eq_of_lt h.residual_lt,
      Nat.mod_eq_of_lt h.residual_lt]
    exact ⟨rfl, rfl⟩
  rw [h.mcu_eq] at hhi
  refine ⟨?_, hres.trans hcharged.2⟩
  rw [havt, hcharged.1]
  exact wrapInt64_eq (by omega) hhi

/-- A thread that runs at most `c` units is charged at most `c` times its ratio. -/
theorem BvtData.Plain.charge_le {c : Nat} (h : d.Plain mcu ratio)
    (hnow : now ≤ d.startTsc + c * mcu) : d.exactDelta now / mcu ≤ c * ratio := by
  have hmcu : 0 < mcu := Nat.lt_of_le_of_lt (Nat.zero_le _) h.residual_lt
  have hle : d.exactDelta now ≤ c * mcu * ratio + d.residual := by
    unfold BvtData.exactDelta
    rw [h.ratio_eq]
    exact Nat.add_le_add_right (Nat.mul_le_mul_right _ (by omega)) _
  calc d.exactDelta now / mcu
      ≤ (c * mcu * ratio + d.residual) / mcu := Nat.div_le_div_right hle
    _ = (d.residual + c * ratio * mcu) / mcu := by rw [Nat.mul_right_comm, Nat.add_comm]
    _ = d.residual / mcu + c * ratio := Nat.add_mul_div_right _ _ hmcu
    _ = c * ratio := by rw [Nat.div_eq_of_lt h.residual_lt, Nat.zero_add]

end Charge

/-! ### The invariant -/

/-- The current thread, if it is one of these, will be stopped in time. -/
def Limited (mcu : Nat) (S : List Tid) (x : BvtRun) : Prop :=
  x.pcpu.ctl.currObj ∈ S → ∀ j ∈ S, j ≠ x.pcpu.ctl.currObj →
    let d := x.pcpu.pol.data x.pcpu.ctl.currObj
    ∃ c : Nat, x.due = some (d.startTsc + c * mcu) ∧
      (c * d.vtRatio : Nat) ≤ (x.pcpu.pol.data j).avt - d.avt + (bvtCsaMcu * d.vtRatio : Nat)

/-- What a run of threads that stay runnable keeps. -/
structure FairInv (mcu : Nat) (ratio : Tid → Nat) (S : List Tid) (B : Nat) (x : BvtRun) : Prop where
  vt : VtInv mcu ratio x.pcpu
  spread : Spread S x.pcpu.pol B
  limited : Limited mcu S x

section Fair

variable {mcu B now : Nat} {ratio : Tid → Nat} {S : List Tid} {s : Pcpu BvtData BvtControl}
  {x : BvtRun}

theorem VtInv.mem_queue (h : VtInv mcu ratio s) (hact : AllActive S s.ctl) {t : Tid} (ht : t ∈ S) :
    t ∈ s.pol.priv.runqueue :=
  bvtLinks_ne_zero.mp (h.queued t (hact t ht).1 (hact t ht).2)

/-- The timer of `pick_next` for a first thread that is not far behind the second. -/
theorem armTimer_due {ctl : SchedControl} {p : BvtState} {first second : Tid} {rest : List Tid}
    {e : Nat} (hmcu : bvtMcuMs * usToTicks ctl.tickrate 1000 = mcu) (hpos : 0 < mcu)
    (hgap : (p.data second).evt - (p.data first).evt = e) (he : e ≤ B)
    (hfit : now + (B + bvtCsaMcu) * mcu ≤ uint64Max) (hB : B + bvtCsaMcu < uint64Max) :
    (bvtArmTimer ctl now (first :: second :: rest) p).tickTimer.due =
      some (now + (e / (p.data first).vtRatio + bvtCsaMcu) * mcu) := by
  have hdiv : e / (p.data first).vtRatio ≤ B := (Nat.div_le_self _ _).trans he
  have hword : toWord64 ((p.data second).evt - (p.data first).evt) = e := by
    have hlt : e < 2 ^ 64 := by
      unfold uint64Max at hB
      omega
    unfold toWord64
    rw [hgap, Int.emod_eq_of_lt (by omega) (by exact_mod_cast hlt)]
    exact Int.toNat_natCast e
  have hcount : bvtRunCountdown (p.data first) (p.data second) =
      add64 (e / (p.data first).vtRatio) bvtCsaMcu := by
    unfold bvtRunCountdown
    rw [hword]
  unfold bvtArmTimer
  dsimp only
  rw [hcount, hmcu]
  generalize e / (p.data first).vtRatio = q at hdiv ⊢
  have hprod : (q + bvtCsaMcu) * mcu ≤ (B + bvtCsaMcu) * mcu := Nat.mul_le_mul_right _ (by omega)
  have hone : 0 < (q + bvtCsaMcu) * mcu := Nat.mul_pos (by unfold bvtCsaMcu; omega) hpos
  have htimeout : add64 now (mul64 (q + bvtCsaMcu) mcu) = now + (q + bvtCsaMcu) * mcu := by
    unfold mul64
    rw [Nat.mod_eq_of_lt (by unfold uint64Max at hfit; omega), add64_eq (by omega)]
  rw [add64_eq (by omega), htimeout, if_pos (by omega)]
  exact if_pos (if_neg (by omega))

/-- After a `pick_next` the thread that runs will be stopped in time. -/
theorem limited_of_pick (h : VtInv mcu ratio s) (hact : AllActive S s.ctl)
    (hspread : Spread S (schedBvtPickNext now s.ctl s.pol).2 B)
    (hfit : now + (B + bvtCsaMcu) * mcu ≤ uint64Max) (hB : B + bvtCsaMcu < uint64Max)
    (hpol : x.pcpu.pol = (schedBvtPickNext now s.ctl s.pol).2)
    (hcur : x.pcpu.ctl.currObj = (schedBvtPickNext now s.ctl s.pol).1)
    (hdue : x.due = x.pcpu.pol.tickTimer.due) : Limited mcu S x := by
  intro hmem j hj hne
  have hord := h.ordered.pickNext h.plain now s.ctl
  have hperm : (schedBvtPickNext now s.ctl s.pol).2.priv.runqueue.Perm s.pol.priv.runqueue :=
    (schedBvtPickNext_queue now s.ctl s.pol).1 ▸ bvtCharged_perm now h.link.wf s.ctl
  have hin : ∀ t ∈ S, t ∈ (schedBvtPickNext now s.ctl s.pol).2.priv.runqueue :=
    fun t ht => hperm.mem_iff.mpr (h.mem_queue hact ht)
  have hjin := hin j hj
  -- the queue has the thread that was picked at its head, and another one behind it
  obtain ⟨first, rest, hq⟩ : ∃ first rest,
      (schedBvtPickNext now s.ctl s.pol).2.priv.runqueue = first :: rest :=
    List.exists_cons_of_ne_nil (List.ne_nil_of_mem hjin)
  obtain ⟨hnext, hfirst, -, htimer⟩ := pickNext_head hq
  rw [hnext] at hcur
  rw [hcur] at hmem hne ⊢
  rw [hq] at hjin
  have hjrest : j ∈ rest := (List.mem_cons.mp hjin).resolve_left hne
  obtain ⟨second, rest', hrest⟩ : ∃ second rest', rest = second :: rest' :=
    List.exists_cons_of_ne_nil (List.ne_nil_of_mem hjrest)
  rw [hrest] at hq htimer hjrest
  have hplain := pickNext_plain h.plain now s.ctl
  rw [hdue, hpol]
  generalize (schedBvtPickNext now s.ctl s.pol).2 = p' at *
  have hsorted := hord.sorted
  rw [hq] at hsorted
  obtain ⟨hle, hsorted'⟩ := List.pairwise_cons.mp hsorted
  have hfs : (p'.data first).avt ≤ (p'.data second).avt := hle second List.mem_cons_self
  have hsj : (p'.data second).avt ≤ (p'.data j).avt := by
    rcases List.mem_cons.mp hjrest with rfl | hj'
    · exact Int.le_refl _
    · exact (List.pairwise_cons.mp hsorted').1 j hj'
  have hjf : (p'.data j).avt ≤ (p'.data first).avt + B := hspread j hj first hmem
  obtain ⟨e, he⟩ : ∃ e : Nat, (p'.data second).avt - (p'.data first).avt = e :=
    Int.eq_ofNat_of_zero_le (by omega)
  have hevt : (p'.data second).evt - (p'.data first).evt = e := by
    rw [hord.evt first (hq ▸ List.mem_cons_self),
      hord.evt second (hq ▸ List.mem_cons_of_mem _ List.mem_cons_self), he]
  have hpos : 0 < mcu := Nat.lt_of_le_of_lt (Nat.zero_le _) (hplain first).residual_lt
  have hdue' : (bvtArmTimer s.ctl now (first :: second :: rest')
      { p' with tickTimer := s.pol.tickTimer.del }).tickTimer.due =
        some (now + (e / (p'.data first).vtRatio + bvtCsaMcu) * mcu) :=
    armTimer_due h.tick hpos hevt (by omega) hfit hB
  refine ⟨e / (p'.data first).vtRatio + bvtCsaMcu, ?_, ?_⟩
  · rw [htimer, hdue', hfirst]
  · have hmul : e / (p'.data first).vtRatio * (p'.data first).vtRatio ≤ e := Nat.div_mul_le_self _ _
    have hdist : (e / (p'.data first).vtRatio + bvtCsaMcu) * (p'.data first).vtRatio =
        e / (p'.data first).vtRatio * (p'.data first).vtRatio +
          bvtCsaMcu * (p'.data first).vtRatio := Nat.add_mul _ _ _
    omega

/-- Charging the current thread in time keeps the threads together. -/
theorem spread_of_pick (h : FairInv mcu ratio S B x) (hact : AllActive S x.pcpu.ctl)
    (hB : ∀ t ∈ S, bvtCsaMcu * ratio t ≤ B) (hdue : ∀ d ∈ x.due, now ≤ d)
    (hfits : Fits S B x.pcpu now) :
    Spread S (schedBvtPickNext now x.pcpu.ctl x.pcpu.pol).2 B := by
  intro i hi j hj
  rw [(pickNext_avt now _ _ i).1, (pickNext_avt now _ _ j).1]
  have hspread := h.spread i hi j hj
  have hcharge : ∀ t ∈ S, t = x.pcpu.ctl.currObj →
      (chargedData now x.pcpu.ctl x.pcpu.pol t).avt =
        (x.pcpu.pol.data t).avt + ((x.pcpu.pol.data t).exactDelta now / mcu : Nat) := by
    rintro t ht rfl
    obtain ⟨hmax, hlo, hhi⟩ := hfits.2 ht
    rw [chargedData_cur _ _ (SchedControl.isActive_iff.mp (hact _ ht).2).1]
    exact ((h.vt.plain _).charge_exact hmax hlo hhi).1
  have hkeep {t : Tid} (ht : t ≠ x.pcpu.ctl.currObj) :
      chargedData now x.pcpu.ctl x.pcpu.pol t = x.pcpu.pol.data t := chargedData_of_ne now _ ht
  by_cases hcuri : i = x.pcpu.ctl.currObj
  · by_cases hcurj : j = x.pcpu.ctl.currObj
    · rw [hcuri, hcurj]
      omega
    · -- the charged thread against one that waited
      obtain ⟨c, hc, hle⟩ := h.limited (hcuri ▸ hi) j hj hcurj
      rw [← hcuri] at hc hle
      have hplain := h.vt.plain i
      have hrun := hplain.charge_le (hdue _ hc)
      have hallow := hB i hi
      rw [hplain.ratio_eq] at hle
      rw [hcharge i hi hcuri, hkeep hcurj]
      omega
  · rw [hkeep hcuri]
    by_cases hcurj : j = x.pcpu.ctl.currObj
    · rw [hcharge j hj hcurj]
      generalize (x.pcpu.pol.data j).exactDelta now / mcu = k
      omega
    · rw [hkeep hcurj]
      exact hspread

/-- A step that leaves the ledgers of these threads, the current thread and the deadline alone. -/
theorem FairInv.of_same (h : FairInv mcu ratio S B x) {s' : Pcpu BvtData BvtControl}
    (hvt : VtInv mcu ratio s') (hdata : ∀ t ∈ S, s'.pol.data t = x.pcpu.pol.data t)
    (hcur : s'.ctl.currObj = x.pcpu.ctl.currObj) :
    FairInv mcu ratio S B { x with pcpu := s' } where
  vt := hvt
  spread i hi j hj := by
    show (s'.pol.data i).avt ≤ (s'.pol.data j).avt + B
    rw [hdata i hi, hdata j hj]
    exact h.spread i hi j hj
  limited := by
    intro hmem j hj hne
    dsimp only at hmem hne ⊢
    rw [hcur] at hmem hne ⊢
    rw [hdata _ hmem, hdata j hj]
    exact h.limited hmem j hj hne

variable {call : Env × Op}

/-- A call that is no `schedule()` does not touch threads that are active. -/
theorem VtInv.step_other (h : VtInv mcu ratio s) (hvalid : call.2.Valid s.ctl)
    (hact : AllActive S s.ctl) (hop : ∀ suspend reset, call.2 ≠ .schedule suspend reset) :
    (∀ t ∈ S, (BeauOs.Sched.step schedBvt s call).pol.data t = s.pol.data t) ∧
      (BeauOs.Sched.step schedBvt s call).ctl.currObj = s.ctl.currObj := by
  have hkind := step_kind schedBvt s call hvalid
  generalize BeauOs.Sched.step schedBvt s call = s' at hkind ⊢
  cases hkind with
  | view hview => exact ⟨fun _ _ => rfl, hview.currObj⟩
  | @sleep _ _ _ _ hview =>
    refine ⟨fun _ _ => rfl, ?_⟩
    rw [← hview.currObj]
    unfold sleepThreadLocked
    dsimp only
    split <;> rfl
  | @wake env _ ctl t hview htarget hwake =>
    refine ⟨fun u hu => ?_, ?_⟩
    · rw [wakeThreadLocked_pol (s := ⟨ctl, s.pol⟩) schedBvt env hwake]
      show (schedBvtWake env ctl t s.pol).data u = _
      rw [schedBvtWake_data (h.plain t), if_neg]
      -- a thread that is woken was not active
      rintro rfl
      have hinact := (hview.ctlInv h.link.ctl).not_active_of_wake
        (htarget.sameView hview).here hwake
      rw [hview.isActive, (hact _ hu).2] at hinact
      exact absurd hinact (by decide)
    · rw [← hview.currObj]
      unfold wakeThreadLocked
      dsimp only
      split_ifs <;> rfl
  | @timer env =>
    exact ⟨fun u _ => by rw [(timerCallback_bvt env.now s).1],
      (timerCallback_cases schedBvt env.now s).1.currObj⟩
  | schedule => exact absurd rfl (hop _ _)

theorem BvtRun.step_other
    (hop : ∀ suspend reset, call.2 ≠ .schedule suspend reset) :
    x.step call = { x with pcpu := BeauOs.Sched.step schedBvt x.pcpu call } := by
  obtain ⟨env, op⟩ := call
  cases op with
  | schedule => exact absurd rfl (hop _ _)
  | _ => rfl

/-- **One step** of a run in which these threads stay runnable. -/
theorem FairInv.step (h : FairInv mcu ratio S B x) (hB : ∀ t ∈ S, bvtCsaMcu * ratio t ≤ B)
    (hmax : B + bvtCsaMcu < uint64Max) (hstay : StaysRunnable S B x call) :
    FairInv mcu ratio S B (x.step call) := by
  obtain ⟨hvalid, hact, htime⟩ := hstay
  obtain ⟨env, op⟩ := call
  by_cases hop : ∃ suspend reset, op = .schedule suspend reset
  swap
  · simp only [not_exists] at hop
    obtain ⟨hdata, hcur⟩ := h.vt.step_other hvalid hact hop
    rw [BvtRun.step_other hop]
    exact h.of_same (h.vt.step _ hvalid) hdata hcur
  obtain ⟨suspend, reset, rfl⟩ := hop
  obtain ⟨hdue, hfits⟩ : (∀ d ∈ x.due, env.now ≤ d) ∧ Fits S B x.pcpu env.now := htime
  have hvt := h.vt.step (env, .schedule suspend reset) hvalid
  obtain ⟨hidle, hpick⟩ := schedule_plain h.vt.link.ctl h.vt.plain env.now suspend reset
  cases hwork : schedIdleWorkPending x.pcpu.ctl suspend reset with
  | true =>
    obtain ⟨hpol, hcur⟩ := hidle hwork
    refine ⟨hvt, ?_, ?_⟩
    · show Spread S (schedule schedBvt env.now suspend reset x.pcpu).pol B
      rw [hpol]
      exact h.spread
    · -- idle is none of these threads
      intro hmem
      change (schedule schedBvt env.now suspend reset x.pcpu).ctl.currObj ∈ S at hmem
      rw [hcur] at hmem
      exact absurd rfl (SchedControl.isActive_iff.mp (hact _ hmem).2).1
  | false =>
    obtain ⟨hpol, hcur⟩ := hpick hwork
    have hspread := spread_of_pick h hact hB hdue hfits
    refine ⟨hvt, ?_, ?_⟩
    · show Spread S (schedule schedBvt env.now suspend reset x.pcpu).pol B
      rw [hpol]
      exact hspread
    · refine limited_of_pick h.vt hact hspread (h.vt.tick ▸ hfits.1) hmax hpol hcur ?_
      show (if schedIdleWorkPending x.pcpu.ctl suspend reset = true then x.due
        else (schedule schedBvt env.now suspend reset x.pcpu).pol.tickTimer.due) = _
      rw [hwork, if_neg Bool.false_ne_true]
      rfl

/-- The invariant holds just after a `schedule()` that leaves the threads within the bound. -/
theorem FairInv.start (h : VtInv mcu ratio s) (hact : AllActive S s.ctl)
    (hwork : schedIdleWorkPending s.ctl false false = false)
    (hspread : Spread S (BvtRun.start s now).pcpu.pol B)
    (hfit : now + (B + bvtCsaMcu) * mcu ≤ uint64Max) (hmax : B + bvtCsaMcu < uint64Max) :
    FairInv mcu ratio S B (BvtRun.start s now) := by
  obtain ⟨hpol, hcur⟩ := (schedule_plain h.link.ctl h.plain now false false).2 hwork
  have hvalid : Op.Valid s.ctl (.schedule false false) := fun _ ht => absurd ht (by simp [Op.target])
  have hspread' : Spread S (schedBvtPickNext now s.ctl s.pol).2 B := by
    rw [← hpol]
    exact hspread
  exact ⟨h.step (⟨now, true⟩, .schedule false false) hvalid, hspread,
    limited_of_pick h hact hspread' hfit hmax hpol hcur rfl⟩

/-! ### CPU time -/

/-- What each thread has run since `p` was, at its ratio, is what its ledger says. -/
def Served (mcu : Nat) (ratio : Tid → Nat) (S : List Tid) (p : BvtState) (x : BvtRun) : Prop :=
  ∀ t ∈ S, (x.ran t * ratio t : Int) =
    ((x.pcpu.pol.data t).avt - (p.data t).avt) * mcu +
      ((x.pcpu.pol.data t).residual - (p.data t).residual)

/-- A `schedule()` that asks the policy charges what it accounts. -/
theorem Served.step (h : FairInv mcu ratio S B x) {p : BvtState} (hserved : Served mcu ratio S p x)
    (hstay : StaysRunnable S B x call) (hasks : AsksPolicy x call) :
    Served mcu ratio S p (x.step call) := by
  obtain ⟨hvalid, hact, htime⟩ := hstay
  obtain ⟨env, op⟩ := call
  by_cases hop : ∃ suspend reset, op = .schedule suspend reset
  swap
  · simp only [not_exists] at hop
    intro t ht
    rw [BvtRun.step_other hop]
    dsimp only
    rw [(h.vt.step_other hvalid hact hop).1 t ht]
    exact hserved t ht
  obtain ⟨suspend, reset, rfl⟩ := hop
  obtain ⟨-, hfits⟩ : (∀ d ∈ x.due, env.now ≤ d) ∧ Fits S B x.pcpu env.now := htime
  have hwork : schedIdleWorkPending x.pcpu.ctl suspend reset = false := hasks
  obtain ⟨hpol, -⟩ := (schedule_plain h.vt.link.ctl h.vt.plain env.now suspend reset).2 hwork
  intro t ht
  have hbefore := hserved t ht
  have hidle : t ≠ x.pcpu.ctl.idle := (SchedControl.isActive_iff.mp (hact t ht).2).1
  show (x.account env.now t * ratio t : Int) =
    (((schedule schedBvt env.now suspend reset x.pcpu).pol.data t).avt - (p.data t).avt) * mcu +
      (((schedule schedBvt env.now suspend reset x.pcpu).pol.data t).residual -
        (p.data t).residual)
  obtain ⟨havt, -, hres⟩ := pickNext_avt env.now x.pcpu.ctl x.pcpu.pol t
  rw [hpol, havt, hres]
  by_cases hcur : t = x.pcpu.ctl.currObj
  · obtain ⟨hmax, hlo, hhi⟩ := hfits.2 (hcur ▸ ht)
    subst hcur
    rw [chargedData_cur _ _ hidle, x.account_cur _ hidle]
    generalize x.pcpu.ctl.currObj = t at *
    obtain ⟨hc, hr⟩ := (h.vt.plain t).charge_exact hmax hlo hhi
    rw [hc, hr]
    have hdelta : (x.pcpu.pol.data t).exactDelta env.now =
        (env.now - (x.pcpu.pol.data t).startTsc) * ratio t + (x.pcpu.pol.data t).residual := by
      unfold BvtData.exactDelta
      rw [(h.vt.plain t).ratio_eq]
    have hsplit := Nat.div_add_mod ((x.pcpu.pol.data t).exactDelta env.now) mcu
    generalize (x.pcpu.pol.data t).exactDelta env.now / mcu = q at hsplit ⊢
    generalize (x.pcpu.pol.data t).exactDelta env.now % mcu = m at hsplit ⊢
    generalize env.now - (x.pcpu.pol.data t).startTsc = e at hdelta ⊢
    rw [hdelta] at hsplit
    have hsplit' : (mcu * q + m : Int) = e * ratio t + (x.pcpu.pol.data t).residual := by
      exact_mod_cast hsplit
    push_cast
    linear_combination hbefore - hsplit'
  · rw [chargedData_of_ne _ _ hcur, x.account_of_ne _ hcur]
    exact hbefore

/-- Two threads that are together in virtual time have had the same service, up to remainders. -/
theorem Served.le {p : BvtState} (h : FairInv mcu ratio S B x) (hstart : Spread S p B)
    (hplain : ∀ t, (p.data t).Plain mcu (ratio t)) (hserved : Served mcu ratio S p x)
    {i j : Tid} (hi : i ∈ S) (hj : j ∈ S) :
    x.ran i * ratio i ≤ x.ran j * ratio j + (2 * B + 2) * mcu := by
  have hri := (h.vt.plain i).residual_lt
  have hrj := (hplain j).residual_lt
  have hnow := h.spread i hi j hj
  have hthen := hstart j hj i hi
  have hsi := hserved i hi
  have hsj := hserved j hj
  have hgap : ((x.pcpu.pol.data i).avt - (p.data i).avt) * (mcu : Int) ≤
      ((x.pcpu.pol.data j).avt - (p.data j).avt + 2 * B) * mcu :=
    Int.mul_le_mul_of_nonneg_right (by omega) (Int.natCast_nonneg _)
  zify
  linarith [Int.natCast_nonneg (p.data i).residual, Int.natCast_nonneg (x.pcpu.pol.data j).residual,
    (by exact_mod_cast hri : ((x.pcpu.pol.data i).residual : Int) < mcu),
    (by exact_mod_cast hrj : ((p.data j).residual : Int) < mcu)]

end Fair

/-! ### Main result -/

theorem vtRatio_le_max {S : List Tid} {p : BvtState} {t : Tid} (ht : t ∈ S) :
    (p.data t).vtRatio ≤ maxVtRatio S p :=
  List.le_max_of_le (List.mem_map_of_mem ht) (Nat.le_refl _)

theorem maxVtRatio_le {S : List Tid} {p : BvtState} {n : Nat}
    (h : ∀ t, (p.data t).vtRatio ≤ n) : maxVtRatio S p ≤ n :=
  List.max_le_of_forall_le _ n (List.forall_mem_map.mpr fun t _ => h t)

theorem BootConfig.vtRatio_le {cfg : BootConfig BvtData} {khz : Nat}
    (hfresh : cfg.Fresh (BvtData.IsInit khz)) (t : Tid) : cfg.vtRatio t ≤ bvtVtRatioMax := by
  obtain ⟨old, weight, limit, period, hd⟩ := cfg.boot_data hfresh BvtControl.init t
  unfold BootConfig.vtRatio
  rw [hd]
  exact Nat.div_le_self _ _

/--
**BVT shares the CPU by weight.**  Take any reachable state, a `schedule()` there, and threads that
are then within the bound and stay runnable, while every later `schedule()` comes no later than the
timer.  Their virtual times stay within the bound.  If every `schedule()` asks the policy, what any
two of them have run, each at its own ratio, differs by at most twice the bound and two units.
-/
theorem bvt_fairness (cfg : BootConfig BvtData) (hfresh : cfg.Fresh (BvtData.IsInit cfg.tickrate))
    (hrate : 0 < cfg.tickrate) (history : List (Env × Op))
    (hhistory : Admitted schedBvt cfg BvtControl.init history) (S : List Tid) (now : Nat)
    (hactive : AllActive S (reached schedBvt cfg BvtControl.init history).ctl)
    (hwork : schedIdleWorkPending (reached schedBvt cfg BvtControl.init history).ctl false false =
      false)
    (calls : List (Env × Op)) :
    let x := BvtRun.start (reached schedBvt cfg BvtControl.init history) now
    let B := fairBound S x.pcpu.pol
    let mcu := bvtMcuMs * usToTicks cfg.tickrate 1000
    Spread S x.pcpu.pol B → now + (B + bvtCsaMcu) * mcu ≤ uint64Max →
    Run.Along BvtRun.step (StaysRunnable S B) x calls →
    let x' := Run.exec BvtRun.step x calls
    Spread S x'.pcpu.pol B ∧
      (Run.Along BvtRun.step AsksPolicy x calls → ∀ i ∈ S, ∀ j ∈ S,
        x'.ran i * cfg.vtRatio i ≤ x'.ran j * cfg.vtRatio j + (2 * B + 2) * mcu) := by
  intro x B mcu hspread hfit hrun x'
  have hvt : VtInv mcu cfg.vtRatio (reached schedBvt cfg BvtControl.init history) :=
    vtInv_reached hfresh hrate hhistory
  have hvt' : VtInv mcu cfg.vtRatio x.pcpu :=
    hvt.step (⟨now, true⟩, .schedule false false) fun t ht => absurd ht (by simp [Op.target])
  have hratio : ∀ t, (x.pcpu.pol.data t).vtRatio = cfg.vtRatio t := fun t =>
    (hvt'.plain t).ratio_eq
  have hB : ∀ t ∈ S, bvtCsaMcu * cfg.vtRatio t ≤ B := fun t ht => by
    have hle := Nat.mul_le_mul_left bvtCsaMcu (vtRatio_le_max (p := x.pcpu.pol) ht)
    rw [hratio t] at hle
    exact hle.trans (Nat.le_succ _)
  have hmax : B + bvtCsaMcu < uint64Max := by
    have hle : maxVtRatio S x.pcpu.pol ≤ 1024 :=
      maxVtRatio_le fun t => (hratio t).trans_le (BootConfig.vtRatio_le hfresh t)
    show bvtCsaMcu * maxVtRatio S x.pcpu.pol + 1 + bvtCsaMcu < uint64Max
    unfold bvtCsaMcu uint64Max
    omega
  have hinv : FairInv mcu cfg.vtRatio S B x := .start hvt hactive hwork hspread hfit hmax
  refine ⟨(Run.inv_exec (fun y call (hy : FairInv mcu cfg.vtRatio S B y) hstay =>
    hy.step hB hmax hstay) hinv hrun).spread, fun hasks i hi j hj => ?_⟩
  have hserved : Served mcu cfg.vtRatio S x.pcpu.pol x := fun t _ => by
    show ((0 : Nat) * cfg.vtRatio t : Int) = _
    simp
  obtain ⟨hfair, hend⟩ := Run.inv_exec
    (fun y call (hy : FairInv mcu cfg.vtRatio S B y ∧ Served mcu cfg.vtRatio S x.pcpu.pol y)
      (hc : StaysRunnable S B y call ∧ AsksPolicy y call) =>
      ⟨hy.1.step hB hmax hc.1, hy.2.step hy.1 hc.1 hc.2⟩)
    ⟨hinv, hserved⟩ (hrun.and hasks)
  exact hend.le hfair hspread hvt'.plain hi hj

/-- Two vCPUs of the smallest and the largest weight. -/
def lightAndHeavy : BootConfig BvtData where
  pcpuId := 0
  tickrate := 1000
  idle := ⟨0, 0, false, 0, 0, plainBvt, 0⟩
  threads := [⟨1, 0, true, 0, 0, plainBvt, 0⟩,
    ⟨2, 0, true, 0, 1, BvtData.init ⟨0, 0, false, 0, 0, 0, 0, 0, 0, 0, 0, 0⟩ 1000 128 0 0 0, 0⟩]
  registry := [0, 1, 2]
  idle_pcpu := (BootConfig.pair plainBvt).idle_pcpu
  tids_nodup := (BootConfig.pair plainBvt).tids_nodup
  registry_perm := (BootConfig.pair plainBvt).registry_perm

/-- The light one runs three units, the heavy one until it has caught up. -/
def lightAndHeavyRun : List (Env × Op) :=
  [(⟨3003, true⟩, .schedule false false), (⟨100000, true⟩, .schedule false false)]

theorem bvt_fairness_lightAndHeavy :
    let x := BvtRun.start
      (reached schedBvt lightAndHeavy BvtControl.init [(⟨1, true⟩, .wake 1), (⟨2, true⟩, .wake 2)]) 3
    let x' := Run.exec BvtRun.step x lightAndHeavyRun
    fairBound [1, 2] x.pcpu.pol = 3073 ∧ Spread [1, 2] x'.pcpu.pol 3073 ∧
      x'.ran 1 * 1024 ≤ x'.ran 2 * 8 + 6148 * 1000 := by
  intro x x'
  have hfresh : lightAndHeavy.Fresh (BvtData.IsInit 1000) := by
    intro c hc
    simp only [lightAndHeavy, List.mem_cons, List.not_mem_nil, or_false] at hc
    rcases hc with rfl | rfl | rfl
    · exact ⟨_, 1, 0, 0, rfl⟩
    · exact ⟨_, 1, 0, 0, rfl⟩
    · exact ⟨_, 128, 0, 0, rfl⟩
  obtain ⟨hspread, hran⟩ := bvt_fairness lightAndHeavy hfresh (by decide)
    [(⟨1, true⟩, .wake 1), (⟨2, true⟩, .wake 2)] (by decide +kernel) [1, 2] 3 (by decide +kernel)
    (by decide +kernel) lightAndHeavyRun (by decide +kernel) (by decide +kernel)
    (by decide +kernel)
  exact ⟨by decide +kernel, hspread, hran (by decide +kernel) 1 (by decide) 2 (by decide)⟩

end BeauOs.Sched
