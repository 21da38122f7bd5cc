/-
A freeze loses no wake and invents none.

`freeze_thread` puts a thread to sleep and closes a gate that turns every later wake into a
note, `deferred_wake`.  `thaw_thread` opens the gate again and replays one wake, if the
freeze itself took the thread from running or if a wake was noted.  The two are meant to
be transparent: a thread is awake after the thaw exactly if it was awake before the freeze
or somebody tried to wake it in between.

The argument follows the gate through the run between the two calls (`Frozen`): the epoch
stays, the thread sleeps, and the note is set exactly by the wakes that arrive.  A wake does
not arrive if a quiesce request on the thread is active: `wake_thread` looks at that gate
first and drops the wake.
-/
import BeauOs.Proofs.Sched.ThreadGates

namespace BeauOs.Sched

variable {D P : Type}

/-! ### Awake and asleep -/

/-- The thread is runnable or running, and not about to block. -/
def SchedControl.Awake (ctl : SchedControl) (t : Tid) : Prop :=
  (ctl.thread t).isRunnableOrRunning = true ∧ (ctl.thread t).beBlocking = false

instance (ctl : SchedControl) (t : Tid) : Decidable (ctl.Awake t) :=
  inferInstanceAs (Decidable (_ ∧ _))

section Awake

variable {ctl ctl' : SchedControl} {t : Tid}

theorem SchedControl.awake_iff_not_asleep : ctl.Awake t ↔ ¬ctl.Asleep t := by
  unfold Awake Asleep ThreadObject.isRunnableOrRunning
  cases (ctl.thread t).status <;> cases (ctl.thread t).beBlocking <;> simp

theorem SameView.awake (h : SameView ctl ctl') : ctl'.Awake t ↔ ctl.Awake t := by
  rw [SchedControl.awake_iff_not_asleep, SchedControl.awake_iff_not_asleep, h.asleep]

/-- Putting a thread to sleep hands out a wake exactly if the thread was awake. -/
theorem sleepThreadLocked_wakeOwned (sch : AcrnScheduler D P) (env : Env) (t : Tid)
    (s : Pcpu D P) : (sleepThreadLocked sch env t s).2 = true ↔ s.ctl.Awake t := by
  unfold sleepThreadLocked SchedControl.Awake ThreadObject.isRunnableOrRunning
    ThreadObject.isBlocked
  dsimp only
  cases (s.ctl.thread t).status <;> cases (s.ctl.thread t).beBlocking <;> simp

/-- A wake that gets past the gates wakes. -/
theorem wakeThreadLocked_awake (sch : AcrnScheduler D P) (env : Env) (t : Tid) (s : Pcpu D P) :
    (wakeThreadLocked sch env t s).ctl.Awake t := by
  unfold wakeThreadLocked SchedControl.Awake ThreadObject.isRunnableOrRunning
    ThreadObject.isBlocked
  dsimp only
  split_ifs with hwake hblocked
  · simp
  · rw [SchedControl.updThread_self]
    cases hst : (s.ctl.thread t).status with
    | blocked => exact absurd (decide_eq_true hst) hblocked
    | running | runnable => exact ⟨rfl, rfl⟩
  · revert hwake
    cases (s.ctl.thread t).status <;> cases (s.ctl.thread t).beBlocking <;> simp

end Awake

/-! ### While the gate is held -/

/-- The thread is asleep behind the gate of `epoch`. -/
structure Frozen (t : Tid) (epoch : Nat) (ctl : SchedControl) : Prop where
  target : ctl.Target t
  gate : (ctl.thread t).freezeEpoch = epoch
  asleep : ctl.Asleep t

/-- A call that is admitted and does not open the gate. -/
def HoldsGate (t : Tid) (epoch : Nat) (s : Pcpu D P) (call : Env × Op) : Prop :=
  call.2.Valid s.ctl ∧ ∀ wakeOwned, call.2 ≠ .thaw t epoch wakeOwned

/-- A wake of `t` that no quiesce request stops. -/
def WakeArrives (t : Tid) (s : Pcpu D P) (call : Env × Op) : Prop :=
  call.2 = .wake t ∧ threadQuiesceActive s.ctl t = false

section Frozen

variable {sch : AcrnScheduler D P} {Inv : Pcpu D P → Prop} {s : Pcpu D P} {t : Tid} {epoch : Nat}
  {call : Env × Op}

theorem Frozen.wake_held (hepoch : epoch ≠ 0) (h : Frozen t epoch s.ctl)
    (hholds : HoldsGate t epoch s call) (hcall : call.2.wakee = some t)
    (sch : AcrnScheduler D P) : SameView s.ctl (step sch s call).ctl := by
  obtain ⟨env, op⟩ := call
  cases op with
  | wake u =>
    obtain rfl := Option.some.inj hcall
    have hne : (s.ctl.thread u).freezeEpoch ≠ 0 := h.gate ▸ hepoch
    have hnote : SameView s.ctl (s.ctl.updThread u fun o => { o with deferredWake := true }) :=
      SameView.updThread u (fun _ => rfl) (fun _ => rfl) (fun _ => rfl) (.inr fun _ h => h)
    show SameView s.ctl (wakeThread sch env u s).ctl
    unfold wakeThread
    split_ifs
    · exact SameView.refl _
    · exact hnote
  | thaw u e wakeOwned =>
    obtain rfl := Option.some.inj hcall
    have hne : ¬(s.ctl.thread u).freezeEpoch = e := by
      rw [h.gate]
      rintro rfl
      exact hholds.2 wakeOwned rfl
    show SameView s.ctl (thawThread sch env u e wakeOwned s).1.ctl
    unfold thawThread
    dsimp only
    rw [if_neg hne]
    split <;> exact SameView.refl _
  | _ => cases hcall

/-- The epoch stays, and the note is set by the wakes that arrive. -/
theorem Frozen.gates (hepoch : epoch ≠ 0) (h : Frozen t epoch s.ctl)
    (hholds : HoldsGate t epoch s call) (sch : AcrnScheduler D P) :
    ((step sch s call).ctl.thread t).freezeEpoch = epoch ∧
    (((step sch s call).ctl.thread t).deferredWake = true ↔
      (s.ctl.thread t).deferredWake = true ∨ WakeArrives t s call) := by
  -- what leaves both flags alone and is no wake that arrives
  have hkept : ∀ {ctl' : SchedControl}, (s.ctl.thread t).SameGates (ctl'.thread t) → ¬WakeArrives t s call →
      (ctl'.thread t).freezeEpoch = epoch ∧
      ((ctl'.thread t).deferredWake = true ↔
        (s.ctl.thread t).deferredWake = true ∨ WakeArrives t s call) := by
    intro ctl' hgates hno
    rw [hgates.freezeEpoch, hgates.deferredWake]
    exact ⟨h.gate, (or_iff_left hno).symm⟩
  by_cases hcall : call.2.gated = some t
  swap
  · refine hkept ((step_touched sch s call).gates t hcall) ?_
    rintro ⟨hop, -⟩
    exact hcall (by rw [hop]; rfl)
  obtain ⟨env, op⟩ := call
  cases op with
  | wake u =>
    obtain rfl := Option.some.inj hcall
    have hstep : step sch s (env, .wake u) = wakeThread sch env u s := rfl
    have hne : (s.ctl.thread u).freezeEpoch ≠ 0 := h.gate ▸ hepoch
    rw [hstep]
    unfold wakeThread
    by_cases hactive : threadQuiesceActive s.ctl u = true
    · rw [if_pos hactive]
      refine hkept (.refl _) ?_
      rintro ⟨-, hopen⟩
      cases hactive.symm.trans hopen
    · rw [if_neg hactive, if_pos hne, SchedControl.updThread_self]
      exact ⟨h.gate, iff_of_true rfl (.inr ⟨rfl, Bool.eq_false_iff.mpr hactive⟩)⟩
  | freeze u e =>
    obtain rfl := Option.some.inj hcall
    have hstep : step sch s (env, .freeze u e) = (freezeThread sch env u e s).1 := rfl
    refine hkept ?_ fun harrives => nomatch harrives.1
    rw [hstep]
    unfold freezeThread
    dsimp only
    split_ifs with hzero hfree hopen
    · exact .refl _
    · exact absurd (h.gate.symm.trans hopen) hepoch
    · exact (sleepThreadLocked_touched sch env .timer u s).gates u nofun
    · exact .refl _
  | thaw u e wakeOwned =>
    obtain rfl := Option.some.inj hcall
    have hstep : step sch s (env, .thaw u e wakeOwned) =
      (thawThread sch env u e wakeOwned s).1 := rfl
    have hne : ¬(s.ctl.thread u).freezeEpoch = e := by
      rw [h.gate]
      rintro rfl
      exact hholds.2 wakeOwned rfl
    refine hkept ?_ fun harrives => nomatch harrives.1
    rw [hstep]
    unfold thawThread
    dsimp only
    rw [if_neg hne]
    split <;> exact .refl _
  | _ => cases hcall

/-- A frozen thread stays frozen until the thaw. -/
theorem Frozen.keeps (hpol : PolicyInv sch Inv) (hinv : Inv s) (hepoch : epoch ≠ 0)
    (h : Frozen t epoch s.ctl) (hholds : HoldsGate t epoch s call) :
    Frozen t epoch (step sch s call).ctl where
  target := h.target.step sch call
  gate := (h.gates hepoch hholds sch).1
  asleep := (hpol.step_asleep hinv hholds.1 h.target.here h.asleep fun hcall =>
    h.wake_held hepoch hholds hcall sch).1

/-- **Behind the gate.**  However long it is held, the thread sleeps and the wakes are noted. -/
theorem Frozen.run (hpol : PolicyInv sch Inv) (hinv : Inv s) (hepoch : epoch ≠ 0)
    (h : Frozen t epoch s.ctl) {mid : List (Env × Op)}
    (hmid : Run.Along (step sch) (HoldsGate t epoch) s mid) :
    Frozen t epoch (Run.exec (step sch) s mid).ctl ∧
      (((Run.exec (step sch) s mid).ctl.thread t).deferredWake = true ↔
        (s.ctl.thread t).deferredWake = true ∨ Run.Sometime (step sch) (WakeArrives t) s mid) := by
  have hstep : ∀ (s : Pcpu D P) (call : Env × Op), Inv s ∧ Frozen t epoch s.ctl →
      HoldsGate t epoch s call →
      (Inv (step sch s call) ∧ Frozen t epoch (step sch s call).ctl) ∧
        (((step sch s call).ctl.thread t).deferredWake = true ↔
          (s.ctl.thread t).deferredWake = true ∨ WakeArrives t s call) := by
    rintro s call ⟨hinv, h⟩ hholds
    exact ⟨⟨hpol.step call hinv hholds.1, h.keeps hpol hinv hepoch hholds⟩,
      (h.gates hepoch hholds sch).2⟩
  obtain ⟨⟨-, hfrozen⟩, hnote⟩ := Run.flag_exec (fun s => (s.ctl.thread t).deferredWake) hstep
    ⟨hinv, h⟩ hmid
  exact ⟨hfrozen, hnote⟩

/-! ### The two ends -/

theorem freezeThread_frozen (hopen : (s.ctl.thread t).freezeEpoch = 0) (hepoch : epoch ≠ 0)
    (ht : s.ctl.Target t) (sch : AcrnScheduler D P) (env : Env) :
    let out := freezeThread sch env t epoch s
    out.2.1 = true ∧ (out.2.2 = true ↔ s.ctl.Awake t) ∧ Frozen t epoch out.1.ctl ∧
      (out.1.ctl.thread t).deferredWake = false := by
  have htarget : (freezeThread sch env t epoch s).1.ctl.Target t := ht.step sch (env, .freeze t epoch)
  have hview := freezeGate_view s.ctl t epoch
  have hgates := (sleepThreadLocked_touched sch env .timer t ⟨s.ctl.updThread t fun o =>
    { o with freezeEpoch := epoch, deferredWake := false }, s.pol⟩).gates t nofun
  revert htarget
  unfold freezeThread
  rw [if_neg hepoch]
  dsimp only
  rw [if_pos (.inl hopen), if_pos hopen]
  intro htarget
  refine ⟨rfl, (sleepThreadLocked_wakeOwned sch env t _).trans hview.awake, ⟨htarget, ?_, ?_⟩, ?_⟩
  · rw [hgates.freezeEpoch, SchedControl.updThread_self]
  · exact sleepThreadLocked_asleep sch env t _
  · rw [hgates.deferredWake, SchedControl.updThread_self]

theorem thawThread_frozen (hepoch : epoch ≠ 0) (h : Frozen t epoch s.ctl)
    (sch : AcrnScheduler D P) (env : Env) (wakeOwned : Bool) :
    (thawThread sch env t epoch wakeOwned s).2 = true ∧
    ((thawThread sch env t epoch wakeOwned s).1.ctl.Awake t ↔
      wakeOwned = true ∨ (s.ctl.thread t).deferredWake = true) := by
  unfold thawThread
  rw [if_neg hepoch]
  dsimp only
  rw [if_pos h.gate]
  refine ⟨rfl, ?_⟩
  rw [← Bool.or_eq_true]
  split_ifs with hreplay
  · exact iff_of_true (wakeThreadLocked_awake sch env t _) hreplay
  · refine iff_of_false ?_ hreplay
    rw [(freezeGate_view s.ctl t 0).awake, SchedControl.awake_iff_not_asleep]
    exact not_not.mpr h.asleep

end Frozen

/-! ### Freeze, any calls, thaw -/

/--
From a state with an open gate, a freeze succeeds; the thread is not awake after any calls
that leave the gate closed; and the thaw, given the flag the freeze returned, succeeds and
leaves the thread awake exactly if it was awake before or a wake arrived in between.
-/
def FreezeTransparent (sch : AcrnScheduler D P) (s : Pcpu D P) (t : Tid) (epoch : Nat)
    (env : Env) : Prop :=
  let frozen := freezeThread sch env t epoch s
  frozen.2.1 = true ∧
  ∀ mid, Run.Along (step sch) (HoldsGate t epoch) frozen.1 mid →
    let held := Run.exec (step sch) frozen.1 mid
    ¬held.ctl.Awake t ∧
    ∀ env', let thawed := thawThread sch env' t epoch frozen.2.2 held
      thawed.2 = true ∧
      (thawed.1.ctl.Awake t ↔
        s.ctl.Awake t ∨ Run.Sometime (step sch) (WakeArrives t) frozen.1 mid)

theorem freezeTransparent_of_policyInv {sch : AcrnScheduler D P} {Inv : Pcpu D P → Prop}
    (hpol : PolicyInv sch Inv) {s : Pcpu D P} (hinv : Inv s) {t : Tid} {epoch : Nat}
    (ht : s.ctl.Target t) (hepoch : epoch ≠ 0) (hopen : (s.ctl.thread t).freezeEpoch = 0)
    (env : Env) : FreezeTransparent sch s t epoch env := by
  obtain ⟨hok, hown, hfrozen, hnote⟩ := freezeThread_frozen hopen hepoch ht sch env
  have hvalid : (env, Op.freeze t epoch).2.Valid s.ctl := by
    intro u hu
    obtain rfl := Option.some.inj hu
    exact ⟨ht.not_idle, ht.registered, ht.here⟩
  have hinv' : Inv (freezeThread sch env t epoch s).1 := hpol.step _ hinv hvalid
  refine ⟨hok, fun mid hmid => ?_⟩
  obtain ⟨hheld, hnoted⟩ := hfrozen.run hpol hinv' hepoch hmid
  rw [hnote] at hnoted
  refine ⟨?_, fun env' => ?_⟩
  · rw [SchedControl.awake_iff_not_asleep]
    exact not_not.mpr hheld.asleep
  · obtain ⟨hthawed, hawake⟩ := thawThread_frozen hepoch hheld sch env'
      (freezeThread sch env t epoch s).2.2
    refine ⟨hthawed, hawake.trans ?_⟩
    rw [hown, hnoted]
    simp

/-- The same in every state some admitted calls lead to. -/
def FreezeThaw (sch : AcrnScheduler D P) (s : Pcpu D P) : Prop :=
  ∀ calls, Run.Along (step sch) (fun s c => c.2.Valid s.ctl) s calls →
    let reached := Run.exec (step sch) s calls
    ∀ t epoch env, reached.ctl.Target t → epoch ≠ 0 →
      (reached.ctl.thread t).freezeEpoch = 0 → FreezeTransparent sch reached t epoch env

/--
**Freeze and thaw are transparent** under every policy, in every state reachable from boot
and for every interleaving between the two: while the gate is held the thread is not awake,
and after the thaw it is awake exactly if it was before the freeze or a wake arrived that no
quiesce request stopped.
-/
theorem freeze_thaw_transparent (bvt : BootConfig BvtData) (cbs : BootConfig CbsData)
    (rtds : BootConfig RtdsData) (bfp : BootConfig BfpData) (arinc : BootConfig Unit) :
    FreezeThaw schedBvt (bvt.boot BvtControl.init) ∧
    FreezeThaw schedCbs (cbs.boot CbsControl.init) ∧
    (rtds.Fresh RtdsData.IsInit → FreezeThaw schedRtds (rtds.boot RtdsControl.init)) ∧
    (bfp.Fresh BfpData.IsInit → FreezeThaw schedBfp (bfp.boot BfpControl.init)) ∧
    ∀ p : ArincState, FreezeThaw schedArinc653 ⟨(arinc.boot p.priv).ctl, p⟩ :=
  PolicyInv.everyPolicy (fun hpol hinv _ _ hrun _ _ env ht hepoch hopen =>
    freezeTransparent_of_policyInv hpol (hpol.run hinv hrun) ht hepoch hopen env)
    bvt cbs rtds bfp arinc

/-- The vCPU of a pCPU under CBS is frozen after some calls. -/
def frozenCbs (calls : List (Env × Op)) : Pcpu CbsData CbsControl × Bool × Bool :=
  freezeThread schedCbs ⟨20, false⟩ 1 7
    (Run.exec (step schedCbs) ((BootConfig.single (CbsData.init halfOfTen 0)).boot CbsControl.init)
      calls)

def thawedCbs (calls mid : List (Env × Op)) : Pcpu CbsData CbsControl × Bool :=
  thawThread schedCbs ⟨40, false⟩ 1 7 (frozenCbs calls).2.2
    (Run.exec (step schedCbs) (frozenCbs calls).1 mid)

/-- The gate is polled, and a wake arrives before the pCPU has switched. -/
def polledAndWoken : List (Env × Op) :=
  [(⟨21, false⟩, .freeze 1 7), (⟨22, false⟩, .wake 1), (⟨23, true⟩, .schedule false false),
    (⟨24, true⟩, .sleep 1)]

theorem freeze_thaw_transparent_woken :
    ¬(Run.exec (step schedCbs) (frozenCbs []).1 polledAndWoken).ctl.Awake 1 ∧
      (thawedCbs [] polledAndWoken).1.ctl.Awake 1 := by
  obtain ⟨-, hcbs, -⟩ := freeze_thaw_transparent (.single plainBvt)
    (.single (CbsData.init halfOfTen 0)) (.single (RtdsData.init halfOfTen 0))
    (.single (BfpData.init halfOfTen 1 0)) (.single ())
  obtain ⟨-, hheld⟩ := hcbs [] trivial 1 7 ⟨20, false⟩ ⟨by decide, by decide, rfl⟩ (by decide) rfl
  have hmid : Run.Along (step schedCbs) (HoldsGate 1 7) (frozenCbs []).1 polledAndWoken :=
    ⟨⟨by decide, nofun⟩, ⟨by decide, nofun⟩, ⟨by decide, nofun⟩, ⟨by decide, nofun⟩, trivial⟩
  obtain ⟨hasleep, hthaw⟩ := hheld polledAndWoken hmid
  refine ⟨hasleep, (hthaw ⟨40, false⟩).2.mpr (.inr (.inr (.inl ⟨rfl, ?_⟩)))⟩
  decide

def quiesceAsked : List (Env × Op) := [(⟨1, false⟩, .requestQuiesce 1 3)]

def oneWake : List (Env × Op) := [(⟨21, false⟩, .wake 1)]

/-- A wake that meets a quiesce request while the gate is held is lost. -/
theorem freeze_thaw_loses_wake :
    Admitted schedCbs (.single (CbsData.init halfOfTen 0)) CbsControl.init quiesceAsked ∧
      (frozenCbs quiesceAsked).2 = (true, false) ∧
      (thawedCbs quiesceAsked oneWake).2 = true ∧
      ¬(thawedCbs quiesceAsked oneWake).1.ctl.Awake 1 := by
  refine ⟨?_, ?_, ?_, ?_⟩ <;> decide

end BeauOs.Sched
