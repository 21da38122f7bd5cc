/-
What the scheduler charges to a BFP server.

The time line of a server is cut into periods, and a ledger records how many ticks of each
period `bfp_account_runtime` has charged to it.  The ledger is no part of the code: it is what
the budget is measured against.  Every call into the scheduler charges the current thread at
most once and otherwise only refreshes servers (`Refreshed`), so two facts about the data of a
single server carry everything: what a refresh does to its budget, and what a charge does.

`Settled` ties a server to its ledger.  Its next replenishment is the end of a period that has
begun, nothing has been charged to a later period, and what remains of the budget is no more
than what the ledger leaves of it.  A charge that takes a period over the budget is then seen
in the overrun counter, also if it covers several periods.
-/
import Mathlib.Data.Finset.Card
import Mathlib.Order.Interval.Finset.Nat
import BeauOs.Proofs.Sched.BfpWalk

namespace BeauOs.Sched

open PolicyState

/-! ### Periods -/

/-- The ticks of `[lo, hi)` that lie in period `k`. -/
def ticksIn (period lo hi k : Nat) : Nat := min hi ((k + 1) * period) - max lo (k * period)

/-- The periods below `m` that went over the budget between two ledgers. -/
def newlyOver (budget : Nat) (l l' : Nat → Nat) (m : Nat) : Finset Nat :=
  (Finset.range m).filter fun k => l k ≤ budget ∧ budget < l' k

theorem mem_newlyOver {budget m k : Nat} {l l' : Nat → Nat} :
    k ∈ newlyOver budget l l' m ↔ k < m ∧ l k ≤ budget ∧ budget < l' k := by
  unfold newlyOver
  rw [Finset.mem_filter, Finset.mem_range]

theorem ticksIn_outside {period lo hi k : Nat} (h : hi ≤ k * period ∨ (k + 1) * period ≤ lo) :
    ticksIn period lo hi k = 0 := by
  unfold ticksIn
  omega

theorem ticksIn_earlier {period lo hi k n : Nat} (hk : k < n) (hlo : n * period ≤ lo) :
    ticksIn period lo hi k = 0 :=
  ticksIn_outside (.inr ((Nat.mul_le_mul_right _ hk).trans hlo))

theorem ticksIn_add {period lo mid hi k : Nat} (hlo : lo ≤ mid) (hhi : mid ≤ hi) :
    ticksIn period lo mid k + ticksIn period mid hi k = ticksIn period lo hi k := by
  have hle : k * period ≤ (k + 1) * period := Nat.mul_le_mul_right _ (Nat.le_succ k)
  unfold ticksIn
  omega

/-- A period over the budget went over it before or after a third ledger. -/
theorem newlyOver_card_le (budget : Nat) (l l₁ l' : Nat → Nat) (m : Nat) :
    (newlyOver budget l l' m).card ≤
      (newlyOver budget l l₁ m).card + (newlyOver budget l₁ l' m).card := by
  refine (Finset.card_le_card fun k hk => ?_).trans (Finset.card_union_le _ _)
  obtain ⟨hm, hold, hover⟩ := mem_newlyOver.mp hk
  rw [Finset.mem_union, mem_newlyOver, mem_newlyOver]
  omega

/-! A counter that stops at `M` has counted `v` events on top of `c` if `min (c + v) M` is no more
than what it shows. -/

theorem counted_of_le {c v v' shown M : Nat} (h : min (c + v) M ≤ shown) (hle : v' ≤ v) :
    min (c + v') M ≤ shown := by
  omega

theorem counted_trans {c v v' mid shown M : Nat} (h : min (c + v) M ≤ mid)
    (h' : min (mid + v') M ≤ shown) : min (c + (v + v')) M ≤ shown := by
  omega

theorem counted_counterAdd (counter value : Nat) :
    min (counter + value) uint64Max ≤ counterAdd counter value := by
  unfold counterAdd
  split <;> omega

namespace BfpData

variable {d d' d'' : BfpData} {now τ n : Nat} {l : Nat → Nat}

/-! ### Refreshing one server -/

/-- Two records that differ at most in queue, start time and statistics. -/
structure SameBudget (d d' : BfpData) : Prop where
  reservation : d'.toReservation = d.toReservation
  remaining : d'.remainingTicks = d.remainingTicks
  next : d'.nextReplenishTicks = d.nextReplenishTicks
  overrun : d'.overrunCount = d.overrunCount

theorem SameBudget.refl (d : BfpData) : d.SameBudget d := ⟨rfl, rfl, rfl, rfl⟩

theorem SameBudget.trans (h : d.SameBudget d') (h' : d'.SameBudget d'') : d.SameBudget d'' :=
  ⟨h'.reservation.trans h.reservation, h'.remaining.trans h.remaining, h'.next.trans h.next,
    h'.overrun.trans h.overrun⟩

theorem SameBudget.periodEnded (h : d.SameBudget d') (now : Nat) :
    d'.periodEnded now = d.periodEnded now := by
  unfold BfpData.periodEnded
  rw [h.next]

theorem SameBudget.advance (h : d.SameBudget d') (now : Nat) :
    (d.advanceInactivePeriod now).SameBudget (d'.advanceInactivePeriod now) := by
  have hres : d'.periodTicks = d.periodTicks ∧ d'.budgetTicks = d.budgetTicks := by
    rw [h.reservation]
    exact ⟨rfl, rfl⟩
  have hdue : d'.periodsDue now = d.periodsDue now := by
    unfold periodsDue
    rw [h.next, hres.1]
  have hsat : d'.replenishSaturates now = d.replenishSaturates now := by
    unfold replenishSaturates
    rw [hdue, h.next, hres.1]
  unfold advanceInactivePeriod
  dsimp only
  rw [h.periodEnded, hsat, hdue]
  split_ifs
  · exact ⟨h.reservation, rfl, rfl, h.overrun⟩
  · refine ⟨h.reservation, hres.2, ?_, h.overrun⟩
    dsimp only
    rw [h.next, hres.1]
  · exact h

/-- What a refresh at `now` does: nothing to the budget, or one `bfp_advance_inactive_period`. -/
def Refreshed (now : Nat) (d d' : BfpData) : Prop :=
  d.SameBudget d' ∨ (d.advanceInactivePeriod now).SameBudget d'

theorem Refreshed.refl (now : Nat) (d : BfpData) : d.Refreshed now d := .inl (SameBudget.refl d)

theorem Refreshed.same (h : d.Refreshed now d') (hs : d'.SameBudget d'') : d.Refreshed now d'' :=
  h.imp (fun h => h.trans hs) fun h => h.trans hs

/-- A second advance at the same time does nothing. -/
theorem Refreshed.advance (h : d.Refreshed now d') :
    d.Refreshed now (d'.advanceInactivePeriod now) := by
  rcases h with h | h
  · exact .inr (h.advance now)
  · have hend := (h.periodEnded now).trans (advance_not_ended d now)
    rw [advance_of_not_ended hend]
    exact .inr h

theorem Refreshed.before (h : d.Refreshed now d') (hlt : now < d.nextReplenishTicks) :
    d.SameBudget d' := by
  rcases h with h | h
  · exact h
  · rw [advance_of_not_ended (not_periodEnded_of_lt hlt)] at h
    exact h

theorem advance_overrun (d : BfpData) (now : Nat) :
    (d.advanceInactivePeriod now).overrunCount = d.overrunCount := by
  unfold advanceInactivePeriod
  dsimp only
  split_ifs <;> rfl

theorem advance_reservation (d : BfpData) (now : Nat) :
    (d.advanceInactivePeriod now).toReservation = d.toReservation := by
  unfold advanceInactivePeriod
  dsimp only
  split_ifs <;> rfl

theorem Refreshed.reservation (h : d.Refreshed now d') : d'.toReservation = d.toReservation := by
  rcases h with h | h
  · exact h.reservation
  · exact h.reservation.trans (advance_reservation d now)

theorem Refreshed.overrun (h : d.Refreshed now d') : d'.overrunCount = d.overrunCount := by
  rcases h with h | h
  · exact h.overrun
  · exact h.overrun.trans (advance_overrun d now)

/-- Before the boundary a charge only takes from the budget. -/
theorem account_before (hlt : now < d.nextReplenishTicks) :
    (d.account now).nextReplenishTicks = d.nextReplenishTicks ∧
      (d.account now).remainingTicks ≤ d.remainingTicks := by
  unfold account
  dsimp only
  rw [if_pos (.inr hlt)]
  refine ⟨chargeCurrentPeriod_next _ _, ?_⟩
  unfold chargeCurrentPeriod
  dsimp only
  split
  · exact Nat.zero_le _
  · exact Nat.sub_le _ _

/-! ### The ledger of one server -/

/-- The server in its period `n`, with the ledger `l` and the clock at `τ`. -/
structure Settled (d : BfpData) (l : Nat → Nat) (τ n : Nat) : Prop where
  next : d.nextReplenishTicks = (n + 1) * d.periodTicks
  begun : n * d.periodTicks ≤ τ
  unspent : d.remainingTicks ≤ d.budgetTicks - l n
  ahead : ∀ k, n < k → l k = 0

section

variable (h : d.Settled l τ n)

include h

theorem Settled.mono {τ' : Nat} (hle : τ ≤ τ') : d.Settled l τ' n :=
  { h with begun := h.begun.trans hle }

theorem Settled.same (hs : d.SameBudget d') : d'.Settled l τ n := by
  obtain ⟨hnext, hbegun, hunspent, hahead⟩ := h
  refine ⟨?_, ?_, ?_, hahead⟩
  · rw [hs.next, hs.reservation]
    exact hnext
  · rw [hs.reservation]
    exact hbegun
  · rw [hs.remaining, hs.reservation]
    exact hunspent

/-- Period `n + 1 + q` begins at `next + q * period`. -/
theorem Settled.grid (q : Nat) :
    (n + 1 + q) * d.periodTicks = d.nextReplenishTicks + q * d.periodTicks := by
  rw [h.next, Nat.add_mul]

/-- A refresh finds the period the clock is in. -/
theorem Settled.advance (hle : τ ≤ now) (hroom : now + d.periodTicks ≤ uint64Max) :
    ∃ n', (d.advanceInactivePeriod now).Settled l now n' := by
  by_cases hend : d.periodEnded now = true
  swap
  · rw [Bool.not_eq_true] at hend
    rw [advance_of_not_ended hend]
    exact ⟨n, h.mono hle⟩
  have hnext := next_le_of_ended hend
  obtain ⟨q, hq⟩ : ∃ q, (now - d.nextReplenishTicks) / d.periodTicks = q := ⟨_, rfl⟩
  have hwhole := Nat.div_mul_le_self (now - d.nextReplenishTicks) d.periodTicks
  rw [hq] at hwhole
  have hdue : d.periodsDue now = q + 1 := by
    unfold periodsDue
    rw [hq]
  rw [advance_of_ended hroom hend, hdue]
  refine ⟨n + 1 + q, ?_, ?_, ?_, fun k hk => h.ahead k (by omega)⟩
  · show d.nextReplenishTicks + (q + 1) * d.periodTicks = _
    rw [Nat.add_assoc (n + 1), h.grid]
  · show _ * d.periodTicks ≤ now
    rw [h.grid]
    omega
  · show d.budgetTicks ≤ d.budgetTicks - _
    rw [h.ahead _ (by omega)]
    exact Nat.le_refl _

theorem Settled.refreshed (hle : τ ≤ now) (hroom : now + d.periodTicks ≤ uint64Max)
    (hr : d.Refreshed now d') : ∃ n', d'.Settled l now n' := by
  rcases hr with hs | hs
  · exact ⟨n, (h.mono hle).same hs⟩
  · obtain ⟨n', h'⟩ := h.advance hle hroom
    exact ⟨n', h'.same hs⟩

end

/-! ### Charging one server -/

theorem chargeCurrentPeriod_overrun (d : BfpData) (delta : Nat) :
    min (d.overrunCount + if delta > d.remainingTicks then 1 else 0) uint64Max ≤
      (d.chargeCurrentPeriod delta).overrunCount := by
  unfold chargeCurrentPeriod
  split
  · exact counted_counterAdd _ _
  · exact Nat.min_le_left _ _

theorem chargeCurrentPeriod_remaining (d : BfpData) (delta : Nat) :
    (d.chargeCurrentPeriod delta).remainingTicks = d.remainingTicks - delta := by
  unfold chargeCurrentPeriod
  split
  · rename_i hover
    exact (Nat.sub_eq_zero_of_le (Nat.le_of_lt hover)).symm
  · rfl

/-- **A charge within the period.** -/
theorem Settled.chargeWithin (h : d.Settled l τ n) {start : Nat} {l' : Nat → Nat}
    (hstart : n * d.periodTicks ≤ start) (hle : start ≤ now) (hnow : now ≤ d.nextReplenishTicks)
    (hl : ∀ k, l' k = l k + ticksIn d.periodTicks start now k) :
    (d.chargeCurrentPeriod (now - start)).Settled l' now n ∧
      ∀ m, min (d.overrunCount + (newlyOver d.budgetTicks l l' m).card) uint64Max ≤
        (d.chargeCurrentPeriod (now - start)).overrunCount := by
  have hnext := h.next
  have hin : ticksIn d.periodTicks start now n = now - start := by
    unfold ticksIn
    omega
  have hlater : ∀ k, n < k → l' k = 0 := by
    intro k hk
    have hge : (n + 1) * d.periodTicks ≤ k * d.periodTicks := Nat.mul_le_mul_right _ hk
    rw [hl, h.ahead k hk, ticksIn_outside (.inl (by omega))]
  have hunspent := h.unspent
  refine ⟨⟨?_, ?_, ?_, hlater⟩, fun m => ?_⟩
  · rw [chargeCurrentPeriod_next, chargeCurrentPeriod_reservation]
    exact hnext
  · rw [chargeCurrentPeriod_reservation]
    omega
  · rw [chargeCurrentPeriod_remaining, chargeCurrentPeriod_reservation, hl, hin]
    omega
  · -- only period `n` can have gone over the budget, and then the charge was too large
    have hsub : newlyOver d.budgetTicks l l' m ⊆
        if now - start > d.remainingTicks then {n} else ∅ := by
      intro k hk
      obtain ⟨-, hold, hover⟩ := mem_newlyOver.mp hk
      have hkn : k = n := by
        by_contra hne
        rcases Nat.lt_or_gt_of_ne hne with hkn | hkn
        · rw [hl, ticksIn_earlier hkn hstart] at hover
          omega
        · rw [hlater k hkn] at hover
          omega
      rw [hkn, hl, hin] at hover
      rw [hkn] at hold ⊢
      rw [if_pos (by omega)]
      exact Finset.mem_singleton_self n
    refine counted_of_le (chargeCurrentPeriod_overrun d (now - start))
      ((Finset.card_le_card hsub).trans ?_)
    split_ifs
    · exact (Finset.card_singleton n).le
    · exact Finset.card_empty.le

/-- The period ends, and nothing has been charged to the next one. -/
theorem Settled.nextPeriod (h : d.Settled l τ n) (hle : d.nextReplenishTicks ≤ now) :
    d.nextPeriod.Settled l now (n + 1) := by
  refine ⟨?_, h.next ▸ hle, ?_, fun k hk => h.ahead k (Nat.lt_of_succ_lt hk)⟩
  · show d.nextReplenishTicks + d.periodTicks = (n + 1 + 1) * d.periodTicks
    rw [h.next, Nat.succ_mul (n + 1)]
  · show d.budgetTicks ≤ d.budgetTicks - l (n + 1)
    rw [h.ahead _ (Nat.lt_succ_self n)]
    exact Nat.le_refl _

/-- **A walk**: each round charges the rest of a period and goes on in the next one. -/
theorem Settled.walk (now : Nat) : ∀ (d : BfpData) (start : Nat) {l l' : Nat → Nat} {τ n : Nat},
    d.Settled l τ n → n * d.periodTicks ≤ start → start ≤ d.nextReplenishTicks → start ≤ now →
    (∀ k, l' k = l k + ticksIn d.periodTicks start now k) →
    (∃ n', (d.walk now start).Settled l' now n') ∧
      ∀ m, min (d.overrunCount + (newlyOver d.budgetTicks l l' m).card) uint64Max ≤
        (d.walk now start).overrunCount := by
  intro d start
  induction d, start using BfpData.walk.induct now with
  | case1 _ _ hlt =>
    intro l l' τ n h hstart _ hle hl
    obtain ⟨hset, hover⟩ := h.chargeWithin hstart hle (Nat.le_of_lt hlt) hl
    rw [walk_of_lt hlt]
    exact ⟨⟨n, hset⟩, hover⟩
  | case2 d start hge ih =>
    intro l l' τ n h hstart hnext _ hl
    have hle := Nat.not_lt.mp hge
    obtain ⟨hset, hover⟩ := h.chargeWithin hstart hnext (Nat.le_refl _) (fun _ => rfl)
    rw [walk_of_le hle]
    have hres := chargeCurrentPeriod_reservation d (d.nextReplenishTicks - start)
    have hnext' := chargeCurrentPeriod_next d (d.nextReplenishTicks - start)
    generalize d.chargeCurrentPeriod (d.nextReplenishTicks - start) = e at hset hover hres hnext' ih
    have hperiod : e.nextPeriod.periodTicks = d.periodTicks := congrArg Reservation.periodTicks hres
    have hbudget : e.nextPeriod.budgetTicks = d.budgetTicks := congrArg Reservation.budgetTicks hres
    obtain ⟨hset', hover'⟩ := @ih _ l' _ _ (hset.nextPeriod (hnext'.le.trans (Nat.le_refl _)))
      (by rw [hperiod, ← h.next]) (hnext'.ge.trans (Nat.le_add_right _ _)) hle (fun k => by
        rw [hperiod, hl, Nat.add_assoc, ticksIn_add hnext hle])
    refine ⟨hset', fun m => counted_of_le (counted_trans (hover m) (hover' m)) ?_⟩
    rw [hbudget]
    exact newlyOver_card_le _ _ _ _ m

/-- **A charge**, of the time since the server was started in its period. -/
theorem Settled.account (h : d.Settled l τ n) {l' : Nat → Nat}
    (hstart : d.nextReplenishTicks ≤ d.lastStartTicks + d.periodTicks)
    (hlt : d.lastStartTicks < d.nextReplenishTicks) (hnow : d.lastStartTicks < now)
    (hroom : now + d.periodTicks ≤ uint64Max)
    (hl : ∀ k, l' k = l k + ticksIn d.periodTicks d.lastStartTicks now k) :
    (∃ n', (d.account now).Settled l' now n') ∧
      ∀ m, min (d.overrunCount + (newlyOver d.budgetTicks l l' m).card) uint64Max ≤
        (d.account now).overrunCount := by
  have hbegin : n * d.periodTicks ≤ d.lastStartTicks := by
    have hnext := h.next
    rw [Nat.succ_mul] at hnext
    omega
  have hfit : d.nextReplenishTicks ≤ now →
      d.nextReplenishTicks + d.periodsDue now * d.periodTicks ≤ uint64Max := by
    intro hle
    have hdue := periodsDue_le hroom hle
    rw [Nat.le_div_iff_mul_le d.period_pos] at hdue
    omega
  rw [account_eq_walk hlt hfit]
  obtain ⟨⟨n', hset⟩, hover⟩ := Settled.walk now d d.lastStartTicks h hbegin hlt.le hnow.le hl
  exact ⟨⟨n', hset.same ⟨rfl, rfl, rfl, rfl⟩⟩, hover⟩

end BfpData

/-! ### Refreshing all servers -/

/-- A property of the servers' data that refreshing keeps. -/
structure RefreshRule (now : Nat) (Keeps : Tid → BfpData → Prop) : Prop where
  advance : ∀ {t d}, Keeps t d → Keeps t (d.advanceInactivePeriod now)
  relink : ∀ {t d} (queue : ServerQueue) (count : Nat), Keeps t d →
    Keeps t { d with queue := queue, depletedCount := count }

namespace RefreshRule

variable {now : Nat} {Keeps : Tid → BfpData → Prop} {p : BfpState}

theorem updData (hp : ∀ u, Keeps u (p.data u)) {t : Tid} {f : BfpData → BfpData}
    (hf : Keeps t (f (p.data t))) : ∀ u, Keeps u ((p.updData t f).data u) := by
  intro u
  by_cases hu : u = t
  · rw [hu, updData_self]
    exact hf
  · rw [updData_of_ne p f hu]
    exact hp u

variable (h : RefreshRule now Keeps)

include h

variable (hp : ∀ u, Keeps u (p.data u))

include hp

theorem relinks {t : Tid} {queue : ServerQueue} {count : Nat} {q : BfpState}
    (hre : BfpState.Relinks t queue count p q) : ∀ u, Keeps u (q.data u) := by
  intro u
  by_cases hu : u = t
  · rw [hu, hre.self]
    exact h.relink _ _ (hp t)
  · rw [hre.other u hu]
    exact hp u

variable (ctl : SchedControl)

theorem refreshThread (t : Tid) (keepTurn : Bool) :
    ∀ u, Keeps u ((bfpRefreshThread ctl now t keepTurn p).data u) := by
  have hadv := updData hp (h.advance (hp t))
  unfold bfpRefreshThread
  dsimp only
  split_ifs
  · exact h.relinks hadv (BfpState.relinks_queueRemove t _)
  · exact h.relinks hadv (BfpState.relinks_readyInsert t keepTurn _)
  · exact h.relinks hadv (BfpState.relinks_depletedInsert t _)

theorem refreshDepleted (t : Tid) : ∀ u, Keeps u ((bfpRefreshDepleted ctl now t p).data u) := by
  have hrem := h.relinks (updData hp (h.advance (hp t))) (BfpState.relinks_queueRemove t _)
  unfold bfpRefreshDepleted
  dsimp only
  split_ifs
  · exact h.relinks hrem (BfpState.relinks_readyInsert t false _)
  · exact hrem
  · exact hp

/-- **The rule for `bfp_refresh_queues`.** -/
theorem refreshQueues : ∀ u, Keeps u ((bfpRefreshQueues ctl now p).data u) := by
  unfold bfpRefreshQueues
  refine Queue.forEachSafe_keeps
    (fun t (q : BfpState) (hq : ∀ u, Keeps u (q.data u)) => h.refreshDepleted hq ctl t) _ _ _ ?_
  exact BfpState.advanceReady_inv (P := fun q => ∀ u, Keeps u (q.data u))
    (fun q t hq => updData hq (h.advance (hq t))) hp

end RefreshRule

/-- Refreshed at `now` from what `base` says, and not started since. -/
def RefreshedFrom (now : Nat) (base : Tid → BfpData) (t : Tid) (d : BfpData) : Prop :=
  (base t).Refreshed now d ∧ d.lastStartTicks = (base t).lastStartTicks

theorem refreshedFrom_rule (now : Nat) (base : Tid → BfpData) :
    RefreshRule now (RefreshedFrom now base) where
  advance h := ⟨h.1.advance, (BfpData.advance_lastStart _ now).trans h.2⟩
  relink _ _ h := ⟨h.1.same ⟨rfl, rfl, rfl, rfl⟩, h.2⟩

/-! ### The ledger -/

/-- `bfp_account_runtime`, called with the current thread, would charge `t`. -/
def bfpDue (ctl : SchedControl) (now : Nat) (p : BfpState) (t : Tid) : Bool :=
  decide (t = ctl.currObj) && !ctl.isIdleThread t && (ctl.thread t).isRunning &&
    decide ((p.data t).lastStartTicks ≠ 0) && decide ((p.data t).lastStartTicks < now)

/-- The call reaches `bfp_account_runtime` for the current thread. -/
def bfpAccounts (s : Pcpu BfpData BfpControl) : Op → Bool
  | .timer => decide (s.pol.tickTimer.timeout ≠ 0)
  | .schedule suspend reset => !schedIdleWorkPending s.ctl suspend reset
  | .sleep t => decide (t = s.ctl.currObj)
  | .freeze t epoch =>
    decide (t = s.ctl.currObj) && decide (epoch ≠ 0) &&
      (decide ((s.ctl.thread t).freezeEpoch = 0) || decide ((s.ctl.thread t).freezeEpoch = epoch))
  | _ => false

/-- The call charges `t` for the time since its last start. -/
def bfpCharges (s : Pcpu BfpData BfpControl) (call : Env × Op) (t : Tid) : Bool :=
  bfpAccounts s call.2 && bfpDue s.ctl call.1.now s.pol t

/-- A pCPU with the time of the last call, and the ticks charged to each thread in each period. -/
structure BfpHistory where
  clock : Nat
  pcpu : Pcpu BfpData BfpControl
  ledger : Tid → Nat → Nat

/-- A call into the scheduler, with what it charges entered into the ledger. -/
def bfpHistoryStep (x : BfpHistory) (call : Env × Op) : BfpHistory where
  clock := call.1.now
  pcpu := step schedBfp x.pcpu call
  ledger t k := x.ledger t k +
    if bfpCharges x.pcpu call t then
      ticksIn (x.pcpu.pol.data t).periodTicks (x.pcpu.pol.data t).lastStartTicks call.1.now k
    else 0

def bfpCharged (ctl : SchedControl) (now : Nat) (p : BfpState) (t : Tid) : BfpData :=
  if bfpDue ctl now p t then (p.data t).account now else p.data t

theorem bfpDue_curr (ctl : SchedControl) (now : Nat) (p : BfpState) :
    bfpDue ctl now p ctl.currObj =
      !(ctl.isIdleThread ctl.currObj || !(ctl.thread ctl.currObj).isRunning ||
        decide ((p.data ctl.currObj).lastStartTicks = 0) ||
        decide (now ≤ (p.data ctl.currObj).lastStartTicks)) := by
  unfold bfpDue
  by_cases hlt : (p.data ctl.currObj).lastStartTicks < now
  · simp [hlt, Nat.not_le.mpr hlt]
  · simp [hlt, Nat.not_lt.mp hlt]

theorem bfpAccountRuntime_data (ctl : SchedControl) (now : Nat) (p : BfpState) (u : Tid) :
    (bfpAccountRuntime ctl now ctl.currObj p).data u = bfpCharged ctl now p u := by
  unfold bfpAccountRuntime bfpCharged
  by_cases hu : u = ctl.currObj
  · rw [hu, bfpDue_curr]
    split
    · rename_i hguard
      rw [hguard]
      rfl
    · rename_i hguard
      rw [Bool.not_eq_true] at hguard
      rw [hguard, updData_self]
      rfl
  · have hdue : ¬bfpDue ctl now p u = true := by
      unfold bfpDue
      simp [hu]
    rw [if_neg hdue]
    split
    · rfl
    · exact updData_of_ne p _ hu

/-! ### What one call does to the data -/

section Hooks

variable {ctl : SchedControl} {now : Nat} {p : BfpState} {t u : Tid}

theorem bfpChargeCurrent_data (ctl : SchedControl) (now : Nat) (p : BfpState) (u : Tid) :
    (if ctl.isIdleThread ctl.currObj then p else bfpAccountRuntime ctl now ctl.currObj p).data u =
      bfpCharged ctl now p u := by
  split
  · rename_i hidle
    unfold bfpCharged
    rw [if_neg]
    intro hdue
    unfold bfpDue at hdue
    simp only [Bool.and_eq_true, decide_eq_true_eq] at hdue
    rw [hdue.1.1.1.1, hidle] at hdue
    simp at hdue
  · exact bfpAccountRuntime_data ctl now p u

theorem bfpTimerHandler_refreshed (ctl : SchedControl) (now : Nat) (p : BfpState) :
    ∀ u, RefreshedFrom now (bfpCharged ctl now p) u ((bfpTimerHandler now ctl p).1.data u) := by
  unfold bfpTimerHandler
  refine (refreshedFrom_rule now (bfpCharged ctl now p)).refreshQueues (fun u => ?_) ctl
  rw [bfpChargeCurrent_data]
  exact ⟨BfpData.Refreshed.refl now _, rfl⟩

theorem bfpRefreshAll_refreshed (ctl : SchedControl) (now : Nat) (p : BfpState) :
    ∀ u, RefreshedFrom now (bfpCharged ctl now p) u ((bfpRefreshAll ctl now p).data u) := by
  have hrule := refreshedFrom_rule now (bfpCharged ctl now p)
  have hcharged := bfpChargeCurrent_data ctl now p
  unfold bfpRefreshAll
  refine hrule.refreshQueues (fun u => ?_) ctl
  split
  · rename_i hidle
    have hsame := hcharged u
    rw [if_pos hidle] at hsame
    rw [hsame]
    exact ⟨BfpData.Refreshed.refl now _, rfl⟩
  · refine hrule.refreshThread (fun u => ?_) ctl ctl.currObj true u
    rw [bfpAccountRuntime_data]
    exact ⟨BfpData.Refreshed.refl now _, rfl⟩

theorem bfpTakeFirst_same (ctl : SchedControl) (now : Nat) (p : BfpState) (u : Tid) :
    (p.data u).SameBudget ((bfpTakeFirst ctl now p).2.data u) := by
  unfold bfpTakeFirst
  split
  swap
  · exact .refl _
  rename_i first rest hq
  have hre := BfpState.relinks_queueRemove first p
  dsimp only
  by_cases hu : u = first
  · rw [hu, updData_self, hre.self]
    exact ⟨rfl, rfl, rfl, rfl⟩
  · rw [updData_of_ne _ _ hu, hre.other u hu]
    exact .refl _

theorem schedBfpPickNext_refreshed (ctl : SchedControl) (now : Nat) (p : BfpState) (u : Tid) :
    (bfpCharged ctl now p u).Refreshed now ((schedBfpPickNext now ctl p).2.data u) := by
  unfold schedBfpPickNext
  dsimp only
  rw [(BfpState.programLocalTimer_eq ctl now _ _).1]
  exact (bfpRefreshAll_refreshed ctl now p u).1.same (bfpTakeFirst_same ctl now _ u)

theorem schedBfpSleep_data (env : Env) (ctl : SchedControl) (t : Tid) (p : BfpState) (u : Tid) :
    (if t = ctl.currObj then bfpCharged ctl env.now p u else p.data u).SameBudget
        ((schedBfpSleep env ctl t p).data u) ∧
      (u = t → ((schedBfpSleep env ctl t p).data u).lastStartTicks = 0) ∧
      (u ≠ t → (schedBfpSleep env ctl t p).data u = p.data u) := by
  have hacc : (if bfpIsCurrent ctl t then bfpAccountRuntime ctl env.now t p else p).data u =
      if t = ctl.currObj then bfpCharged ctl env.now p u else p.data u := by
    unfold bfpIsCurrent SchedControl.isCurrent
    by_cases ht : t = ctl.currObj
    · rw [if_pos ht, ht, ← bfpAccountRuntime_data]
      simp
    · rw [if_neg ht, if_neg (by simpa using Ne.symm ht)]
  have hother : u ≠ t → (if t = ctl.currObj then bfpCharged ctl env.now p u else p.data u) =
      p.data u := by
    intro hu
    split
    · rename_i ht
      unfold bfpCharged bfpDue
      rw [if_neg (by simp [← ht, hu])]
    · rfl
  unfold schedBfpSleep
  dsimp only
  generalize (if bfpIsCurrent ctl t then bfpAccountRuntime ctl env.now t p else p) = q at hacc
  rw [← hacc] at hother ⊢
  have hre := BfpState.relinks_queueRemove t q
  by_cases hu : u = t
  · rw [hu, updData_self, hre.self]
    exact ⟨⟨rfl, rfl, rfl, rfl⟩, fun _ => rfl, fun hne => absurd rfl hne⟩
  · rw [updData_of_ne _ _ hu, hre.other u hu]
    exact ⟨BfpData.SameBudget.refl _, fun e => absurd e hu, hother⟩

theorem bfpWoken_data (now : Nat) (t : Tid) (p : BfpState) (u : Tid) :
    (p.data u).Refreshed now ((bfpWoken now t p).data u) ∧
      (u = t → ((bfpWoken now t p).data u).lastStartTicks = 0) := by
  by_cases hu : u = t
  swap
  · rw [(bfpWoken_eq now t p).2.2 u hu]
    exact ⟨BfpData.Refreshed.refl now _, fun e => absurd e hu⟩
  rw [hu]
  unfold bfpWoken
  dsimp only
  split
  · rw [(BfpState.relinks_readyInsert t false _).self, updData_self]
    exact ⟨.inr ⟨rfl, rfl, rfl, rfl⟩, fun _ => rfl⟩
  · rw [(BfpState.relinks_depletedInsert t _).self, updData_self]
    exact ⟨.inr ⟨rfl, rfl, rfl, rfl⟩, fun _ => rfl⟩

end Hooks

theorem SameView.bfpCharged {ctl ctl' : SchedControl} (h : SameView ctl ctl') (now : Nat)
    (p : BfpState) (u : Tid) : bfpCharged ctl' now p u = bfpCharged ctl now p u := by
  unfold BeauOs.Sched.bfpCharged bfpDue SchedControl.isIdleThread ThreadObject.isRunning
  rw [h.currObj, h.idle, h.status]

/-- The data a call starts from, with its charge made. -/
def bfpBase (s : Pcpu BfpData BfpControl) (call : Env × Op) (u : Tid) : BfpData :=
  if bfpAccounts s call.2 then bfpCharged s.ctl call.1.now s.pol u else s.pol.data u

theorem bfpBase_eq (s : Pcpu BfpData BfpControl) (call : Env × Op) (u : Tid) :
    bfpBase s call u =
      if bfpCharges s call u then (s.pol.data u).account call.1.now else s.pol.data u := by
  unfold bfpBase bfpCharges bfpCharged
  cases bfpAccounts s call.2 <;> rfl

theorem PolicyState.spent_data {D P : Type} (p : PolicyState D P) : p.spent.data = p.data := by
  unfold spent
  split <;> rfl

section Steps

variable (s : Pcpu BfpData BfpControl) (env : Env) (t u : Tid)

theorem bfp_wakeThreadLocked_data :
    (s.pol.data u).Refreshed env.now ((wakeThreadLocked schedBfp env t s).pol.data u) := by
  by_cases hwake : ((s.ctl.thread t).isBlocked || (s.ctl.thread t).beBlocking) = true
  · rw [wakeThreadLocked_pol schedBfp env hwake]
    show BfpData.Refreshed _ _ ((schedBfpWake env s.ctl t s.pol).data u)
    rw [schedBfpWake_eq, (BfpState.programTimer_eq env s.ctl _ _).1]
    exact (bfpWoken_data env.now t s.pol u).1
  · unfold wakeThreadLocked
    dsimp only
    rw [if_neg hwake]
    exact .refl _ _

theorem bfp_sleepThreadLocked_data {ctl : SchedControl} (hview : SameView s.ctl ctl) :
    (if t = s.ctl.currObj then bfpCharged s.ctl env.now s.pol u else s.pol.data u).Refreshed env.now
      ((sleepThreadLocked schedBfp env t ⟨ctl, s.pol⟩).1.pol.data u) := by
  have hsleep := (schedBfpSleep_data env ctl t s.pol u).1
  rw [hview.currObj, hview.bfpCharged] at hsleep
  exact .inl hsleep

theorem bfpBase_of_accounts {s : Pcpu BfpData BfpControl} {call : Env × Op} {u : Tid}
    (h : bfpAccounts s call.2 = true) : bfpBase s call u = bfpCharged s.ctl call.1.now s.pol u :=
  if_pos h

theorem bfpBase_of_not_accounts {s : Pcpu BfpData BfpControl} {call : Env × Op} {u : Tid}
    (h : bfpAccounts s call.2 = false) : bfpBase s call u = s.pol.data u :=
  if_neg (by rw [h]; exact Bool.false_ne_true)

theorem bfp_sleep_refreshed {op : Op} (hop : bfpAccounts s op = decide (t = s.ctl.currObj))
    {ctl : SchedControl} (hview : SameView s.ctl ctl) :
    (bfpBase s (env, op) u).Refreshed env.now
      ((sleepThreadLocked schedBfp env t ⟨ctl, s.pol⟩).1.pol.data u) := by
  have hsleep := bfp_sleepThreadLocked_data s env t u hview
  by_cases ht : t = s.ctl.currObj
  · rw [if_pos ht] at hsleep
    rw [bfpBase_of_accounts (hop.trans (decide_eq_true ht))]
    exact hsleep
  · rw [if_neg ht] at hsleep
    rw [bfpBase_of_not_accounts (hop.trans (decide_eq_false ht))]
    exact hsleep

/-- **Every call is a charge of at most the current thread, then a refresh.** -/
theorem bfp_step_refreshed (call : Env × Op) :
    (bfpBase s call u).Refreshed call.1.now ((step schedBfp s call).pol.data u) := by
  obtain ⟨env, op⟩ := call
  cases op with
  | wake t =>
    show (s.pol.data u).Refreshed env.now ((wakeThread schedBfp env t s).pol.data u)
    unfold wakeThread
    split_ifs
    · exact .refl _ _
    · exact .refl _ _
    · exact bfp_wakeThreadLocked_data s env t u
  | sleep t => exact bfp_sleep_refreshed s env t u rfl (SameView.refl _)
  | requestPriority => exact .refl _ _
  | freeze t epoch =>
    show BfpData.Refreshed _ _ ((freezeThread schedBfp env t epoch s).1.pol.data u)
    unfold freezeThread
    dsimp only
    by_cases hzero : epoch = 0
    · rw [if_pos hzero, bfpBase_of_not_accounts (by simp [bfpAccounts, hzero])]
      exact .refl _ _
    rw [if_neg hzero]
    by_cases hgate : (s.ctl.thread t).freezeEpoch = 0 ∨ (s.ctl.thread t).freezeEpoch = epoch
    swap
    · rw [if_neg hgate, bfpBase_of_not_accounts]
      · exact .refl _ _
      · rw [not_or] at hgate
        simp [bfpAccounts, hgate.1, hgate.2]
    rw [if_pos hgate]
    have hop : bfpAccounts s (.freeze t epoch) = decide (t = s.ctl.currObj) := by
      unfold bfpAccounts
      dsimp only
      rw [← Bool.decide_or]
      simp [hzero, hgate]
    split
    · exact bfp_sleep_refreshed s env t u hop (freezeGate_view s.ctl t epoch)
    · exact bfp_sleep_refreshed s env t u hop (SameView.refl _)
  | thaw t epoch wakeOwned =>
    show (s.pol.data u).Refreshed env.now ((thawThread schedBfp env t epoch wakeOwned s).1.pol.data u)
    unfold thawThread
    dsimp only
    split_ifs
    · exact .refl _ _
    · exact bfp_wakeThreadLocked_data { s with ctl := s.ctl.updThread t fun o =>
        { o with freezeEpoch := 0, deferredWake := false } } env t u
    · exact .refl _ _
    · exact .refl _ _
  | requestQuiesce | ackQuiesce | releaseQuiesce => exact .refl _ _
  | timer =>
    show BfpData.Refreshed _ _ ((timerCallback schedBfp env.now s).pol.data u)
    have htick : SameView s.ctl s.ctl.schedAccountTick := SameView.of_eq rfl rfl rfl rfl rfl
    rw [timerCallback_pol, spent_data]
    by_cases hzero : s.pol.tickTimer.timeout ≠ 0
    · rw [if_pos hzero, bfpBase_of_accounts (by simp [bfpAccounts, hzero])]
      have hrun := (bfpTimerHandler_refreshed s.ctl.schedAccountTick env.now
        { s.pol with tickTimer := s.pol.tickTimer.del } u).1
      rw [htick.bfpCharged] at hrun
      exact hrun
    · rw [if_neg hzero, bfpBase_of_not_accounts (by simpa [bfpAccounts] using hzero)]
      exact .refl _ _
  | schedule suspend reset =>
    obtain ⟨hview, -⟩ := consumePriorities_view schedBfp env.now s
    have hpol := @consumePriorities_pol _ _ schedBfp rfl env.now s
    show BfpData.Refreshed _ _ ((schedule schedBfp env.now suspend reset s).pol.data u)
    unfold schedule selectNext
    dsimp only
    rw [schedIdleWorkPending_consume, hpol]
    cases hwork : schedIdleWorkPending s.ctl suspend reset with
    | true =>
      rw [bfpBase_of_not_accounts (by simp [bfpAccounts, hwork])]
      exact .refl _ _
    | false =>
      rw [bfpBase_of_accounts (by simp [bfpAccounts, hwork])]
      have hpick := schedBfpPickNext_refreshed (consumePriorities schedBfp env.now s).ctl env.now
        s.pol u
      rw [hview.bfpCharged] at hpick
      exact hpick

end Steps

end BeauOs.Sched
