/-
What `timer_softirq` does to the timers, whatever the callbacks do.

The trace of a pass is checked against a ledger that knows nothing of lists: a timer is armed
from the moment it is added until it runs or is deleted, and it is revoked from the moment it
is deleted until it is added again.  Only an armed timer that is not revoked may run, and
only one that is not revoked may be linked again for its next period.  The pass keeps the
ledger and the list in agreement (`Kept`), and what the ledger allows is then a matter of
traces alone.

The walk saves the next node before it runs a callback.  `CallbackOk` is what a callback has
to respect for that to be safe: it adds only timers that are not started and moves no started
one by an update, it leaves the timer behind its own on the list unless that one is not due,
and a periodic timer does not delete itself to stop.
-/
import BeauOs.Lib.Run
import BeauOs.Proofs.Timer.TimerList

namespace BeauOs.Timer

variable {n : Nat}

/-! ### The ledger -/

/-- What a history of calls and callbacks entitles a timer to. -/
structure Ledger (n : Nat) where
  armed : Fin n → Bool
  revoked : Fin n → Bool

namespace Ledger

def start (s : PcpuTimers n) : Ledger n := ⟨timerIsStarted s, fun _ => false⟩

def record (l : Ledger n) : TimerEvent n → Ledger n
  | .added t => ⟨Function.update l.armed t true, Function.update l.revoked t false⟩
  | .deleted t => ⟨Function.update l.armed t false, Function.update l.revoked t true⟩
  | .ran t _ _ _ | .skipped t => { l with armed := Function.update l.armed t false }
  | .requeued t => { l with armed := Function.update l.armed t true }

def Allows (l : Ledger n) : TimerEvent n → Prop
  | .ran t linked timeout tsc =>
    l.armed t = true ∧ l.revoked t = false ∧ linked = true ∧ timeout ≤ tsc
  | .requeued t => l.revoked t = false
  | .added _ | .deleted _ | .skipped _ => True

end Ledger

section Record

variable (l : Ledger n) (t u : Fin n)

theorem update_true_apply (f : Fin n → Bool) :
    Function.update f u true t = (f t || decide (t = u)) := by
  by_cases h : t = u <;> simp [h]

theorem update_false_apply (f : Fin n → Bool) :
    Function.update f u false t = (f t && decide (t ≠ u)) := by
  by_cases h : t = u <;> simp [h]

theorem Ledger.record_added :
    (l.record (.added u)).armed t = (l.armed t || decide (t = u)) ∧
      (l.record (.added u)).revoked t = (l.revoked t && decide (t ≠ u)) :=
  ⟨update_true_apply t u _, update_false_apply t u _⟩

theorem Ledger.record_deleted :
    (l.record (.deleted u)).armed t = (l.armed t && decide (t ≠ u)) ∧
      (l.record (.deleted u)).revoked t = (l.revoked t || decide (t = u)) :=
  ⟨update_false_apply t u _, update_true_apply t u _⟩

end Record

def ledgerAfter (l : Ledger n) (trace : List (TimerEvent n)) : Ledger n :=
  Run.exec Ledger.record l trace

def Lawful (l : Ledger n) (trace : List (TimerEvent n)) : Prop :=
  Run.Along Ledger.record Ledger.Allows l trace

section Traces

variable {l : Ledger n} {e : TimerEvent n} {t : Fin n}

def TimerEvent.timer : TimerEvent n → Fin n
  | .added t | .deleted t | .ran t _ _ _ | .skipped t | .requeued t => t

theorem Ledger.record_of_ne (h : t ≠ e.timer) :
    (l.record e).armed t = l.armed t ∧ (l.record e).revoked t = l.revoked t := by
  cases e <;> exact ⟨by simp_all [Ledger.record, TimerEvent.timer],
    by simp_all [Ledger.record, TimerEvent.timer]⟩

/-- The event counts as an add of `t`. -/
def isAdded (t : Fin n) (e : TimerEvent n) : Bool := e = .added t

/-- The event counts as a new period of `t`. -/
def isRequeued (t : Fin n) (e : TimerEvent n) : Bool := e = .requeued t

def isRan (t : Fin n) : TimerEvent n → Bool
  | .ran u _ _ _ => u = t
  | .added _ | .deleted _ | .skipped _ | .requeued _ => false

/-- A run disarms the timer, and only an add or a new period arms it. -/
theorem Ledger.Allows.balance (h : l.Allows e) :
    (isRan t e).toNat + ((l.record e).armed t).toNat ≤
      (isAdded t e).toNat + (isRequeued t e).toNat + (l.armed t).toNat := by
  by_cases ht : t = e.timer
  · subst ht
    cases e with
    | ran u =>
      have harmed : l.armed u = true := h.1
      simp [Ledger.record, isRan, TimerEvent.timer, harmed]
    | added | requeued => simp [Ledger.record, isRan, isAdded, isRequeued, TimerEvent.timer]
    | deleted | skipped => simp [Ledger.record, isRan, TimerEvent.timer]
  · have hran : isRan t e = false := by
      cases e <;> simp_all [isRan, TimerEvent.timer, eq_comm]
    rw [hran, (Ledger.record_of_ne ht).1]
    simp

/-- Every run of a timer uses up one time it was armed. -/
theorem Lawful.runs_le :
    ∀ {trace : List (TimerEvent n)} {l : Ledger n}, Lawful l trace →
      trace.countP (isRan t) ≤
        trace.countP (isAdded t) + trace.countP (isRequeued t) + (l.armed t).toNat := by
  intro trace
  induction trace with
  | nil => exact fun _ => Nat.zero_le _
  | cons e rest ih =>
    intro l h
    have hrest := ih h.2
    have hbalance := h.1.balance (t := t)
    have hcount : ∀ p : TimerEvent n → Bool,
        (e :: rest).countP p = rest.countP p + (p e).toNat := by
      intro p
      rw [List.countP_cons]
      cases p e <;> rfl
    rw [hcount, hcount, hcount]
    omega

theorem Lawful.added_of_revoked {linked : Bool} {timeout tsc : Nat}
    {after : List (TimerEvent n)} :
    ∀ {between : List (TimerEvent n)} {l : Ledger n}, l.revoked t = true →
      Lawful l (between ++ .ran t linked timeout tsc :: after) → .added t ∈ between := by
  intro between
  induction between with
  | nil =>
    intro l hrevoked h
    have hfree : l.revoked t = false := h.1.2.1
    rw [hrevoked] at hfree
    cases hfree
  | cons e rest ih =>
    intro l hrevoked h
    by_cases he : e = .added t
    · exact he ▸ List.mem_cons_self
    refine List.mem_cons_of_mem _ (ih ?_ h.2)
    by_cases ht : t = e.timer
    · subst ht
      cases e with
      | added => exact absurd rfl he
      | deleted => exact Function.update_self ..
      | ran | skipped | requeued => exact hrevoked
    · rw [(Ledger.record_of_ne ht).2]
      exact hrevoked

end Traces

/-! ### What a callback has to respect -/

/-- An add is of a timer that is not started, and an update moves no started timer. -/
def CallOk (s : PcpuTimers n) : TimerCall n → Prop
  | .add t => accepts s t = true → timerIsStarted s t = false
  | .update t timeout _ => timerIsStarted s t = true → timeout = (s.timer t).timeout
  | .del _ => True

instance CallOk.decidable (s : PcpuTimers n) : ∀ call, Decidable (CallOk s call)
  | .add t => inferInstanceAs (Decidable (accepts s t = true → timerIsStarted s t = false))
  | .update t timeout _ =>
    inferInstanceAs (Decidable (timerIsStarted s t = true → timeout = (s.timer t).timeout))
  | .del _ => isTrue trivial

/-- The same for every call of a callback, in the state the ones before have left. -/
def CallsOk : List (TimerCall n) → PcpuTimers n → Prop
  | [], _ => True
  | call :: rest, s => CallOk s call ∧ ∀ done ∈ call.run s, CallsOk rest done.1

instance CallsOk.decidable :
    ∀ (calls : List (TimerCall n)) (s : PcpuTimers n), Decidable (CallsOk calls s)
  | [], _ => isTrue trivial
  | call :: rest, s =>
    have := fun done : PcpuTimers n × List (TimerEvent n) => CallsOk.decidable rest done.1
    inferInstanceAs (Decidable (CallOk s call ∧ ∀ done ∈ call.run s, CallsOk rest done.1))

/-- The callback of `t`, which is already unlinked, with `next` the node saved by the walk. -/
def CallbackOk (env : Callbacks n) (t : Fin n) (next : Node n) (x : Softirq n) : Prop :=
  (accepts x.timers t = true → CallsOk (env.calls x.runs) x.timers) ∧
  ∀ done ∈ runTimer env t true x,
    (∀ u, next = some u → timerIsStarted done.timers u = true ∨
      max x.currentTsc (env.clock x.reads) < (done.timers.timer u).timeout) ∧
    (accepts x.timers t = true → (done.timers.timer t).mode = .periodic →
      timerIsStarted done.timers t = false → .del t ∉ env.calls x.runs)

instance (env : Callbacks n) (t : Fin n) (next : Node n) (x : Softirq n) :
    Decidable (CallbackOk env t next x) := inferInstanceAs (Decidable (_ ∧ _))

/-- Every callback of a pass, in the state it is run in. -/
def CallbacksOk (env : Callbacks n) : Nat → Node n → Node n → Softirq n → Prop
  | 0, _, _, _ => True
  | _ + 1, none, _, _ => True
  | tries + 1, some t, next, x =>
    (x.timers.timer t).timeout ≤ x.currentTsc ∧ tries ≠ 0 →
      CallbackOk env t next { x with timers := delTimer x.timers t } ∧
      ∀ done ∈ dispatchTimer env t x,
        CallbacksOk env tries next (done.timers.links.next next) done

instance CallbacksOk.decidable (env : Callbacks n) :
    ∀ tries pos next x, Decidable (CallbacksOk env tries pos next x)
  | 0, _, _, _ => isTrue trivial
  | _ + 1, none, _, _ => isTrue trivial
  | tries + 1, some t, next, x =>
    have := fun done : Softirq n =>
      CallbacksOk.decidable env tries next (done.timers.links.next next) done
    inferInstanceAs (Decidable (_ ∧ _ → _ ∧ ∀ done ∈ dispatchTimer env t x, _))

def NeverPeriodic (env : Callbacks n) (t : Fin n) : Prop :=
  ∀ k timeout period, .update t timeout period ∈ env.calls k → period = 0

/-! ### Ledger and list agree -/

/--
The list is in order, the trace lawful, and the armed timers are the started ones.  A timer of
`once` is one-shot and has not been linked for a new period.
-/
structure Kept (once : Fin n → Prop) (l : Ledger n) (s : PcpuTimers n)
    (trace : List (TimerEvent n)) : Prop where
  ordered : s.Ordered
  lawful : Lawful l trace
  armed : ∀ t, (ledgerAfter l trace).armed t = timerIsStarted s t
  unrevoked : ∀ t, timerIsStarted s t = true → (ledgerAfter l trace).revoked t = false
  oneshot : ∀ t, once t → (s.timer t).mode = .oneshot
  requeued : ∀ t, once t → .requeued t ∉ trace

namespace Kept

variable {once : Fin n → Prop} {l : Ledger n} {s s' : PcpuTimers n} {trace : List (TimerEvent n)}

theorem ledgerAfter_append (l : Ledger n) (trace events : List (TimerEvent n)) :
    ledgerAfter l (trace ++ events) = ledgerAfter (ledgerAfter l trace) events :=
  Run.exec_append l trace events

/-- One more event that the ledger allows and that the list has followed. -/
theorem snoc {e : TimerEvent n} (h : Kept once l s trace) (hord : s'.Ordered)
    (hmode : ∀ t, (s'.timer t).mode = (s.timer t).mode)
    (hallows : (ledgerAfter l trace).Allows e)
    (harmed : ∀ t, ((ledgerAfter l trace).record e).armed t = timerIsStarted s' t)
    (hrevoked : ∀ t, timerIsStarted s' t = true →
      ((ledgerAfter l trace).record e).revoked t = false)
    (hperiod : ∀ t, once t → e ≠ .requeued t) : Kept once l s' (trace ++ [e]) := by
  refine ⟨hord, Run.along_append.mpr ⟨h.lawful, hallows, trivial⟩, fun t => ?_, fun t ht => ?_,
    fun t ht => (hmode t).trans (h.oneshot t ht), fun t ht hmem => ?_⟩
  · rw [ledgerAfter_append]
    exact harmed t
  · rw [ledgerAfter_append]
    exact hrevoked t ht
  · rcases List.mem_append.mp hmem with hold | hnew
    · exact h.requeued t ht hold
    · exact hperiod t ht (List.mem_singleton.mp hnew).symm

/-- The list and the ledger are told nothing. -/
theorem frame (h : Kept once l s trace) (hord : s'.Ordered)
    (hmode : ∀ t, once t → (s'.timer t).mode = (s.timer t).mode)
    (hstarted : ∀ t, timerIsStarted s' t = timerIsStarted s t) : Kept once l s' trace := by
  refine ⟨hord, h.lawful, fun t => (h.armed t).trans (hstarted t).symm, fun t ht => ?_,
    fun t ht => (hmode t ht).trans (h.oneshot t ht), h.requeued⟩
  exact h.unrevoked t ((hstarted t).symm.trans ht)

/-- **One call** of a callback keeps the agreement, and revokes only what it deletes. -/
theorem call (h : Kept once l s trace) {call : TimerCall n} (hok : CallOk s call)
    (hnever : ∀ t timeout period, once t → call = .update t timeout period → period = 0) :
    ∃ s' events, call.run s = some (s', events) ∧ Kept once l s' (trace ++ events) ∧
      ∀ t, call ≠ .del t → (ledgerAfter l trace).revoked t = false →
        (ledgerAfter l (trace ++ events)).revoked t = false := by
  cases call with
  | add u =>
    obtain ⟨s', ret, hadd, hord, hret, hmode, hstarted⟩ := h.ordered.addTimer hok
    have hrun : TimerCall.run s (.add u) = some (s', if ret = 0 then [.added u] else []) := by
      show (addTimer s u).map _ = _
      rw [hadd]
      rfl
    refine ⟨s', _, hrun, ?_⟩
    rw [← hret] at hstarted
    by_cases hzero : ret = 0
    · rw [if_pos hzero]
      simp only [hzero, decide_true, Bool.true_and] at hstarted
      refine ⟨h.snoc hord hmode trivial (fun t => ?_) (fun t ht => ?_) nofun, fun t _ ht => ?_⟩
      · rw [(Ledger.record_added _ t u).1, h.armed, hstarted]
      · rw [(Ledger.record_added _ t u).2]
        rw [hstarted, Bool.or_eq_true] at ht
        rcases ht with ht | ht
        · rw [h.unrevoked t ht, Bool.false_and]
        · simp [of_decide_eq_true ht]
      · rw [ledgerAfter_append]
        refine (Ledger.record_added _ t u).2.trans ?_
        rw [ht, Bool.false_and]
    · rw [if_neg hzero, List.append_nil]
      refine ⟨h.frame hord (fun t _ => hmode t) fun t => ?_, fun _ _ ht => ht⟩
      rw [hstarted, decide_eq_false hzero, Bool.false_and, Bool.or_false]
  | del u =>
    obtain ⟨hord, hstarted⟩ := h.ordered.delTimer u
    refine ⟨_, _, rfl, h.snoc hord (fun t => by rw [delTimer_timer]) trivial (fun t => ?_)
      (fun t ht => ?_) nofun, fun t hne ht => ?_⟩
    · rw [(Ledger.record_deleted _ t u).1, h.armed, hstarted]
    · rw [hstarted, Bool.and_eq_true, decide_eq_true_iff] at ht
      rw [(Ledger.record_deleted _ t u).2, h.unrevoked t ht.1, decide_eq_false ht.2]
      rfl
    · have htu : t ≠ u := fun e => hne (by rw [e])
      rw [ledgerAfter_append]
      refine (Ledger.record_deleted _ t u).2.trans ?_
      rw [ht, decide_eq_false htu]
      rfl
  | update u timeout period =>
    refine ⟨_, [], rfl, ?_, fun t _ ht => ?_⟩
    · rw [List.append_nil]
      refine h.frame (h.ordered.updateTimer hok) (fun t ht => ?_) fun _ => rfl
      unfold updateTimer
      by_cases htu : t = u
      · subst htu
        rw [PcpuTimers.updTimer_self, hnever t timeout period ht rfl, h.oneshot t ht]
        rfl
      · rw [PcpuTimers.updTimer_of_ne _ _ htu]
    · rw [List.append_nil]
      exact ht

theorem calls :
    ∀ {calls : List (TimerCall n)} {s : PcpuTimers n} {trace : List (TimerEvent n)},
      Kept once l s trace → CallsOk calls s →
      (∀ t timeout period, once t → .update t timeout period ∈ calls → period = 0) →
      ∃ s' trace', runCalls calls (s, trace) = some (s', trace') ∧ Kept once l s' trace' ∧
        ∀ t, .del t ∉ calls → (ledgerAfter l trace).revoked t = false →
          (ledgerAfter l trace').revoked t = false := by
  intro calls
  induction calls with
  | nil => exact fun h _ _ => ⟨_, _, rfl, h, fun _ _ ht => ht⟩
  | cons call rest ih =>
    intro s trace h hok hnever
    obtain ⟨s₁, events, hrun, hkept, hrevoked⟩ := h.call hok.1 fun t timeout period ht hcall =>
      hnever t timeout period ht (hcall ▸ List.mem_cons_self)
    obtain ⟨s₂, trace', hruns, hkept', hrevoked'⟩ := ih hkept (hok.2 _ hrun)
      fun t timeout period ht hmem => hnever t timeout period ht (List.mem_cons_of_mem _ hmem)
    refine ⟨s₂, trace', ?_, hkept', fun t hdel ht => ?_⟩
    · unfold runCalls
      rw [hrun]
      exact hruns
    · have hne : call ≠ .del t := fun e => hdel (e ▸ List.mem_cons_self)
      exact hrevoked' t (fun hmem => hdel (List.mem_cons_of_mem _ hmem)) (hrevoked t hne ht)

end Kept

/-! ### One expired timer -/

section Dispatch

variable {env : Callbacks n} {once : Fin n → Prop} {l : Ledger n} {t : Fin n} {next : Node n}
  {x : Softirq n}

/-- A due timer runs and is then off the list. -/
theorem Kept.ran (h : Kept once l x.timers x.trace) (ht : timerIsStarted x.timers t = true)
    {e : TimerEvent n} (hallows : (ledgerAfter l x.trace).Allows e)
    (hrecord : ∀ m : Ledger n, m.record e = { m with armed := Function.update m.armed t false })
    (hperiod : ∀ u, e ≠ .requeued u) :
    Kept once l (delTimer x.timers t) (x.trace ++ [e]) ∧
      (ledgerAfter l (x.trace ++ [e])).revoked t = false := by
  obtain ⟨hord, hstarted⟩ := h.ordered.delTimer t
  refine ⟨h.snoc hord (fun u => by rw [delTimer_timer]) hallows (fun u => ?_) (fun u hu => ?_)
    fun u _ => hperiod u, ?_⟩
  · rw [hrecord, hstarted, ← h.armed u]
    exact update_false_apply u t _
  · rw [hstarted, Bool.and_eq_true] at hu
    rw [hrecord]
    exact h.unrevoked u hu.1
  · rw [Kept.ledgerAfter_append]
    show ((ledgerAfter l x.trace).record e).revoked t = false
    rw [hrecord]
    exact h.unrevoked t ht

theorem Kept.runTimer (hnever : ∀ t, once t → NeverPeriodic env t)
    (h : Kept once l x.timers x.trace) (ht : timerIsStarted x.timers t = true)
    (hdue : (x.timers.timer t).timeout ≤ x.currentTsc)
    (hok : CallbackOk env t next { x with timers := delTimer x.timers t }) :
    ∃ done, runTimer env t true { x with timers := delTimer x.timers t } = some done ∧
      Kept once l done.timers done.trace ∧ done.currentTsc = x.currentTsc ∧ done.reads = x.reads ∧
      ((done.timers.timer t).mode = .periodic → timerIsStarted done.timers t = false →
        (ledgerAfter l done.trace).revoked t = false) := by
  have hself := hok.2
  unfold Timer.runTimer at hself ⊢
  by_cases haccept : accepts (delTimer x.timers t) t = true
  · have hallows : (ledgerAfter l x.trace).Allows
        (.ran t true ((delTimer x.timers t).timer t).timeout x.currentTsc) := by
      rw [delTimer_timer]
      exact ⟨(h.armed t).trans ht, h.unrevoked t ht, rfl, hdue⟩
    obtain ⟨hkept, hfree⟩ := h.ran ht hallows (fun _ => rfl) nofun
    obtain ⟨s', trace', hruns, hkept', hrevoked⟩ := hkept.calls (hok.1 haccept)
      fun u timeout period hu => hnever u hu x.runs timeout period
    rw [if_pos haccept] at hself ⊢
    dsimp only at hself ⊢
    rw [hruns] at hself ⊢
    refine ⟨_, rfl, hkept', rfl, rfl, fun hmode hoff => hrevoked t ?_ hfree⟩
    exact (hself _ rfl).2 haccept hmode hoff
  · obtain ⟨hkept, hfree⟩ := @Kept.ran _ _ _ t x h ht (.skipped t) trivial (fun _ => rfl) nofun
    rw [if_neg haccept]
    exact ⟨_, rfl, hkept, rfl, rfl, fun _ _ => hfree⟩

/-- What becomes of the timer after its callback. -/
theorem Kept.recycle (h : Kept once l x.timers x.trace)
    (hfree : (x.timers.timer t).mode = .periodic → timerIsStarted x.timers t = false →
      (ledgerAfter l x.trace).revoked t = false) :
    ∃ done, recycleTimer env t x = some done ∧ Kept once l done.timers done.trace ∧
      done.currentTsc ≤ max x.currentTsc (env.clock x.reads) ∧
      ∀ u, u ≠ t → timerIsStarted done.timers u = timerIsStarted x.timers u ∧
        done.timers.timer u = x.timers.timer u := by
  unfold recycleTimer
  by_cases hstarted : timerIsStarted x.timers t = true
  · rw [if_pos hstarted]
    exact ⟨x, rfl, h, Nat.le_max_left _ _, fun _ _ => ⟨rfl, rfl⟩⟩
  have hoff : timerIsStarted x.timers t = false := Bool.eq_false_iff.mpr hstarted
  rw [if_neg hstarted]
  by_cases hmode : (x.timers.timer t).mode = .periodic
  · rw [if_pos hmode]
    dsimp only
    have hord : (x.timers.updTimer t (·.advancePeriodic (env.clock x.reads))).Ordered :=
      h.ordered.updTimer fun hon => absurd hon hstarted
    obtain ⟨s', head, hadd, hord', htimer, hon⟩ := hord.localAddTimer (t := t) hoff
    have hon' : ∀ u, timerIsStarted s' u = (timerIsStarted x.timers u || decide (u = t)) := hon
    rw [hadd]
    refine ⟨_, rfl, ?_, Nat.le_max_right _ _, fun u hu => ⟨?_, ?_⟩⟩
    · refine h.snoc hord' (fun u => ?_) (hfree hmode hoff) (fun u => ?_) (fun u hu => ?_)
        fun u hu hreq => ?_
      · show (s'.timer u).mode = _
        rw [htimer]
        by_cases hut : u = t
        · rw [hut, PcpuTimers.updTimer_self]
          rfl
        · rw [PcpuTimers.updTimer_of_ne _ _ hut]
      · rw [hon', ← h.armed u]
        exact update_true_apply u t _
      · show (ledgerAfter l x.trace).revoked u = false
        rw [hon', Bool.or_eq_true] at hu
        rcases hu with hu | hu
        · exact h.unrevoked u hu
        · rw [of_decide_eq_true hu]
          exact hfree hmode hoff
      · have honce : once t := TimerEvent.requeued.inj hreq ▸ hu
        exact nomatch hmode.symm.trans (h.oneshot t honce)
    · show timerIsStarted s' u = _
      rw [hon']
      simp [hu]
    · show s'.timer u = _
      rw [htimer, PcpuTimers.updTimer_of_ne _ _ hu]
  · rw [if_neg hmode]
    have hord : (x.timers.updTimer t fun timer => { timer with timeout := 0 }).Ordered :=
      h.ordered.updTimer fun hon => absurd hon hstarted
    refine ⟨_, rfl, h.frame hord (fun u _ => ?_) fun _ => rfl, Nat.le_max_left _ _,
      fun u hu => ⟨rfl, ?_⟩⟩
    · by_cases hut : u = t
      · rw [hut, PcpuTimers.updTimer_self]
      · rw [PcpuTimers.updTimer_of_ne _ _ hut]
    · dsimp only
      rw [PcpuTimers.updTimer_of_ne _ _ hu]

/-- **One expired timer** keeps the agreement and leaves the walk a node it can go on from. -/
theorem Kept.dispatch (hnever : ∀ t, once t → NeverPeriodic env t)
    (h : Kept once l x.timers x.trace)
    (ht : timerIsStarted x.timers t = true)
    (hdue : (x.timers.timer t).timeout ≤ x.currentTsc) (hnext : ∀ u, next = some u → u ≠ t)
    (hok : CallbackOk env t next { x with timers := delTimer x.timers t }) :
    ∃ done, dispatchTimer env t x = some done ∧ Kept once l done.timers done.trace ∧
      ∀ u, next = some u → timerIsStarted done.timers u = true ∨
        done.currentTsc < (done.timers.timer u).timeout := by
  obtain ⟨ran, hrun, hkept, htsc, hreads, hfree⟩ := h.runTimer hnever ht hdue hok
  obtain ⟨done, hrecycle, hkept', htsc', hother⟩ := @Kept.recycle _ env _ _ _ _ hkept hfree
  refine ⟨done, ?_, hkept', fun u hu => ?_⟩
  · unfold dispatchTimer
    dsimp only
    rw [ht, hrun]
    exact hrecycle
  · obtain ⟨hstarted, htimer⟩ := hother u (hnext u hu)
    rw [hstarted, htimer]
    refine ((hok.2 ran hrun).1 u hu).imp_right fun hlate => ?_
    rw [htsc, hreads] at htsc'
    exact htsc'.trans_lt hlate

end Dispatch

/-! ### The walk -/

/-- **The loop** ends, and keeps the agreement. -/
theorem Kept.loop {env : Callbacks n} {once : Fin n → Prop} {l : Ledger n}
    (hnever : ∀ t, once t → NeverPeriodic env t) :
    ∀ (tries : Nat) (pos next : Node n) (x : Softirq n), Kept once l x.timers x.trace →
      (∀ t, pos = some t →
        (timerIsStarted x.timers t = true ∧ next = x.timers.links.next (some t)) ∨
          x.currentTsc < (x.timers.timer t).timeout) →
      CallbacksOk env tries pos next x →
      ∃ done, softirqLoop env tries pos next x = some done ∧ Kept once l done.timers done.trace := by
  intro tries
  induction tries with
  | zero => exact fun _ _ x h _ _ => ⟨x, rfl, h⟩
  | succ tries ih =>
    intro pos next x h hpos hok
    cases pos with
    | none => exact ⟨x, rfl, h⟩
    | some t =>
      unfold softirqLoop
      by_cases hdue : (x.timers.timer t).timeout ≤ x.currentTsc ∧ tries ≠ 0
      swap
      · rw [if_neg hdue]
        exact ⟨x, rfl, h⟩
      rw [if_pos hdue]
      obtain ⟨hcallback, hrest⟩ := hok hdue
      obtain ⟨ht, hnext⟩ : timerIsStarted x.timers t = true ∧ next = x.timers.links.next (some t) :=
        (hpos t rfl).resolve_right (Nat.not_lt.mpr hdue.1)
      have hother : ∀ u, next = some u → u ≠ t := fun u hu =>
        (h.ordered.next_started ht (hnext ▸ hu)).2
      obtain ⟨done, hdispatch, hkept, hfollow⟩ := h.dispatch hnever ht hdue.1 hother hcallback
      rw [hdispatch]
      refine ih next _ done hkept (fun u hu => ?_) (hrest done hdispatch)
      refine (hfollow u hu).imp_left fun hstarted => ⟨hstarted, ?_⟩
      rw [hu]

/-! ### A pass -/

/-- The callbacks respect their rules throughout the pass that starts at the head of the list. -/
def PassOk (env : Callbacks n) (s : PcpuTimers n) : Prop :=
  CallbacksOk env maxTimerActions (s.links.next none) (s.links.next (s.links.next none))
    (.start env s)

instance (env : Callbacks n) (s : PcpuTimers n) : Decidable (PassOk env s) :=
  inferInstanceAs (Decidable (CallbacksOk _ _ _ _ _))

/--
**The timer list survives its callbacks.**  From every ordered list, for every clock and all
callbacks that respect their rules, the softirq ends with an ordered list.  It has run only
timers that were linked and expired, a one-shot timer at most once for every time it was
added, and none that was deleted and not added again.
-/
theorem timer_softirq_integrity {env : Callbacks n} {s : PcpuTimers n} (hord : s.Ordered)
    (hok : PassOk env s) :
    ∃ x, timerSoftirq env s = some x ∧ x.timers.Ordered ∧
      (∀ t linked timeout tsc, .ran t linked timeout tsc ∈ x.trace →
        linked = true ∧ timeout ≤ tsc) ∧
      (∀ t, (s.timer t).mode = .oneshot → NeverPeriodic env t →
        x.trace.countP (isRan t) ≤ x.trace.countP (isAdded t) + (timerIsStarted s t).toNat) ∧
      ∀ t before between after linked timeout tsc,
        x.trace = before ++ .deleted t :: between ++ .ran t linked timeout tsc :: after →
        .added t ∈ between := by
  have hstart : Kept (fun t => (s.timer t).mode = .oneshot ∧ NeverPeriodic env t) (.start s)
      (Softirq.start env s).timers (Softirq.start env s).trace :=
    ⟨hord, trivial, fun _ => rfl, fun _ _ => rfl, fun _ ht => ht.1, fun _ _ => List.not_mem_nil⟩
  obtain ⟨x, hloop, hkept⟩ := Kept.loop (fun _ ht => ht.2) maxTimerActions _ _ _ hstart
    (fun t ht => .inl ⟨hord.first_started ht, by rw [ht]; rfl⟩) hok
  have harch := updateArchitectureTimer_timer x.timers
  refine ⟨{ x with timers := updateArchitectureTimer x.timers }, ?_, ?_, ?_, ?_, ?_⟩
  · unfold timerSoftirq
    dsimp only
    rw [hloop]
    rfl
  · exact hkept.ordered.congr harch.1 harch.2
  · intro t linked timeout tsc hmem
    obtain ⟨-, -, -, hlinked, hexpired⟩ := Run.Along.of_mem hkept.lawful hmem
    exact ⟨hlinked, hexpired⟩
  · intro t hmode hnever
    have hnone : x.trace.countP (isRequeued t) = 0 := by
      rw [List.countP_eq_zero]
      intro e he hreq
      exact hkept.requeued t ⟨hmode, hnever⟩ (of_decide_eq_true hreq ▸ he)
    have hle := hkept.lawful.runs_le (t := t)
    rw [hnone] at hle
    exact hle
  · intro t before between after linked timeout tsc htrace
    have hlawful := hkept.lawful
    dsimp only at htrace
    unfold Lawful at hlawful
    rw [htrace, List.append_assoc, List.cons_append, Run.along_append] at hlawful
    exact Lawful.added_of_revoked (Function.update_self ..) hlawful.2.2

/-- Two of three timers are linked, the first before the second. -/
def twoLinked (timer : Fin 3 → HvTimer) : PcpuTimers 3 where
  timer := timer
  links := ((Ring.Links.mk id id).insertAfter (some 0) none).insertAfter (some 1) (some 0)
  archCount := none
  tickrate := 1000

theorem twoLinked_ordered {timer : Fin 3 → HvTimer}
    (h : (timer 0).timeout ≤ (timer 1).timeout) : (twoLinked timer).Ordered := by
  have hempty : Ring.IsRing (Ring.Links.mk id id) (none : Node 3) ([] ++ []) := .empty none
  have hone : Ring.IsRing ((Ring.Links.mk id id).insertAfter (some 0) none) (none : Node 3)
      ([some 0] ++ []) := hempty.insertAfter (by decide) (by decide) rfl
  have htwo : Ring.IsRing (twoLinked timer).links none [some 0, some 1] :=
    hone.insertAfter (by decide) (by decide) rfl
  exact ⟨[0, 1], htwo, List.pairwise_pair.mpr h⟩

/-- Everything expires at tick 10 and is one-shot. -/
def allAtTen : Fin 3 → HvTimer := fun _ => ⟨.oneshot, 10, 0, true⟩

/-- The first callback arms the third timer for tick 20. -/
def armsThird : Callbacks 3 where
  calls k := if k = 0 then [.update 2 20 0, .add 2] else []
  clock _ := 15

theorem timer_softirq_integrity_armsThird :
    ∃ x, timerSoftirq armsThird (twoLinked allAtTen) = some x ∧ x.timers.Ordered ∧
      x.trace.countP (isRan 1) ≤ x.trace.countP (isAdded 1) + 1 := by
  obtain ⟨x, hx, hord, -, honce, -⟩ := @timer_softirq_integrity 3 armsThird (twoLinked allAtTen)
    (twoLinked_ordered (Nat.le_refl _)) (by decide)
  refine ⟨x, hx, hord, honce 1 rfl fun k timeout period hmem => ?_⟩
  unfold armsThird at hmem
  dsimp only at hmem
  split at hmem
  · simp at hmem
  · simp at hmem

/-- The first callback deletes the timer behind its own. -/
def deletesNext : Callbacks 3 where
  calls k := if k = 0 then [.del 1] else []
  clock _ := 15

/-- The first callback moves the deadline of the timer behind its own, and adds another. -/
def movesNext : Callbacks 3 where
  calls k := if k = 0 then [.add 2, .update 1 50 0] else []
  clock _ := 15

/-- The first timer expires at tick 10, the others later. -/
def spread (t : Fin 3) : HvTimer :=
  ⟨.oneshot, if t = 0 then 10 else if t = 1 then 30 else 40, 0, true⟩

/-- A periodic timer deletes itself, and the clock runs on. -/
def deletesItself : Callbacks 3 where
  calls k := if k = 0 then [.del 0] else []
  clock k := if k = 0 then 10 else if k = 1 then 11 else 20

/-- Everything expires at tick 10 and every 5 ticks. -/
def everyFive : Fin 3 → HvTimer := fun _ => ⟨.periodic, 10, 5, true⟩

/--
Without the rules it does not survive: a timer runs after it was deleted and is not linked any more,
the list ends out of order, and a periodic timer that deleted itself runs again.
-/
theorem timer_softirq_misled :
    (timerSoftirq deletesNext (twoLinked allAtTen)).any
      (fun x => x.trace.take 3 = [.ran 0 true 10 15, .deleted 1, .ran 1 false 10 15]) = true ∧
    (timerSoftirq movesNext (twoLinked spread)).any
      (fun x => x.timers.links.next none = some 1 ∧ x.timers.links.next (some 1) = some 2 ∧
        (x.timers.timer 2).timeout < (x.timers.timer 1).timeout) = true ∧
    (timerSoftirq deletesItself (twoLinked everyFive)).any
      (fun x => x.trace.take 6 = [.ran 0 true 10 10, .deleted 0, .requeued 0, .ran 1 true 10 11,
        .requeued 1, .ran 0 true 15 20]) = true := by
  refine ⟨?_, ?_, ?_⟩ <;> decide +kernel

end BeauOs.Timer
