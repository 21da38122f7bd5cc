/-
Where a hook stands in a transaction.

A hook whose forward callback has succeeded is undone before the transaction gets back to
`PM_RUNNING`, or the transaction fails for good.  `MayHold` says at which places the hook may be
wound up, and no step but a callback of the hook itself leaves these places (`MayHold.process`).  So
what a hook holds between its callbacks is free again once the machine is back in `PM_RUNNING`.

Two more facts are needed to follow a hook: while the boot pCPU prepares the hooks, it has not yet
come to those from its index on (`Preparing`), and the scope of a transaction does not change.
-/
import BeauOs.Proofs.Pm.HookUnwind

namespace BeauOs.Pm

/-! ### Places at which a hook may be wound up -/

def PmHost.Completed (h : PmHost) (ops : PmOps) : Prop :=
  ∃ k < h.hooks.length, h.hook k = ops ∧ bitmapTest k h.data.completedHookMask = true

/-- The hook may be wound up at a place. -/
def MayHoldAt (ops : PmOps) (h : PmHost) : Pc → Prop
  | .hookDone _ _ idx => h.Completed ops ∨ h.hook idx = ops
  | .reverse _ completed idx firstError =>
    firstError ≠ 0 ∨ ∃ k < idx, h.hook k = ops ∧ bitmapTest k completed = true
  | .thawStart _ | .thawVcpu .. | .ungate .. | .complete _ => False
  | .failEpoch _ => True
  | _ => h.Completed ops

def MayHold (ops : PmOps) (m : PmMachine) : Prop :=
  match m.frame with
  | none => m.host.data.state = .failed ∨ m.host.data.state ≠ .running ∧ m.host.Completed ops
  | some (_, pc) => MayHoldAt ops m.host pc

def AtHook (ops : PmOps) (h : PmHost) : Pc → Prop
  | .forward suspendPhase count idx => idx < count ∧ h.hook idx = ops ∧ ops.forward suspendPhase = true
  | .reverse u completed (hookIdx + 1) _ =>
    bitmapTest hookIdx completed = true ∧ h.hook hookIdx = ops ∧ ops.reverse u.abortPhase = true
  | _ => False

theorem not_mayHold_of_running {ops : PmOps} {m : PmMachine} (hframe : m.frame = none)
    (hrun : m.host.data.state = .running) : ¬MayHold ops m := by
  unfold MayHold
  rw [hframe]
  rintro (hfail | ⟨hne, -⟩)
  · exact absurd (hrun.symm.trans hfail) (by decide)
  · exact hne hrun

section Holding

variable {ops : PmOps} {h : PmHost} {epoch : Nat} {trace : List HookEvent}

variable {pc : Pc} {idx : Nat}

/-- A place at which the bit of the hook is all that matters. -/
theorem MayHoldAt.of_winding (hpc : pc.winding = true) (hc : h.Completed ops) :
    MayHoldAt ops h pc := by
  cases pc <;> first | exact hc | exact trivial | cases hpc

theorem PmHost.hook_congr {h' : PmHost} (hhooks : h'.hooks = h.hooks) (k : Nat) :
    h'.hook k = h.hook k := by
  unfold PmHost.hook
  rw [hhooks]

theorem PmHost.Completed.congr {h' : PmHost} (hc : h.Completed ops) (hhooks : h'.hooks = h.hooks)
    (hmask : h'.data.completedHookMask = h.data.completedHookMask) : h'.Completed ops := by
  obtain ⟨k, hk, hop, hbit⟩ := hc
  exact ⟨k, hhooks ▸ hk, (PmHost.hook_congr hhooks k).trans hop, hmask ▸ hbit⟩

/-- A forward callback of another hook, or the end of the loop. -/
theorem MayHoldAt.forward {sp : Bool} {count : Nat}
    (hold : MayHoldAt ops h (.forward sp count idx)) (env : PmEnv) :
    MayHold ops (afterStep epoch (processStep env h epoch (.forward sp count idx))) := by
  simp only [processStep, forwardStep]
  split
  · split
    · split
      · exact .inl hold
      · exact hold
    · exact hold
  · exact hold

theorem MayHoldAt.hookDone {sp : Bool} {count : Nat}
    (hold : MayHoldAt ops h (.hookDone sp count idx)) (hidx : idx < h.hooks.length)
    (hbusy : BusyInv h epoch (.hookDone sp count idx)) (env : PmEnv) :
    MayHold ops (afterStep epoch (processStep env h epoch (.hookDone sp count idx))) := by
  simp only [processStep, hbusy.hookDone_eq]
  show PmHost.Completed _ ops
  rcases hold with ⟨k, hk, hop, hbit⟩ | hop
  · exact ⟨k, hk, hop, bitmapTest_set_of_test hbit idx⟩
  · exact ⟨idx, hidx, hop, bitmapTest_set idx _⟩

/-- A reverse callback of another hook, or the end of the loop. -/
theorem MayHoldAt.reverse {u : Unwind} {completed : BitVec 64} {firstError : Int}
    (hold : MayHoldAt ops h (.reverse u completed idx firstError))
    (hrev : ops.reverse u.abortPhase = true)
    (hat : ¬AtHook ops h (.reverse u completed idx firstError)) (env : PmEnv) :
    MayHold ops (afterStep epoch (processStep env h epoch (.reverse u completed idx firstError))) := by
  cases idx with
  | zero =>
    simp only [processStep, reverseStep]
    rcases hold with hne | ⟨k, hk, -⟩
    · rw [if_pos hne]
      exact trivial
    · exact absurd hk (Nat.not_lt_zero k)
  | succ hookIdx =>
    simp only [processStep, reverseStep]
    -- the hook is still below, or an earlier callback has failed
    have hrest : firstError ≠ 0 ∨ ∃ k < hookIdx, h.hook k = ops ∧ bitmapTest k completed = true := by
      rcases hold with hne | ⟨k, hk, hop, hbit⟩
      · exact .inl hne
      · rcases Nat.lt_succ_iff_lt_or_eq.mp hk with hlt | rfl
        · exact .inr ⟨k, hlt, hop, hbit⟩
        · exact absurd ⟨hbit, hop, hrev⟩ hat
    split
    · exact hrest
    · generalize (if (h.hook hookIdx).reverse u.abortPhase then env.status else 0) = status
      dsimp only
      split <;> exact hrest.imp_left fun hne => by rwa [if_neg hne]

theorem MayHoldAt.of_quiet (hold : MayHoldAt ops h pc) (hpc : pc.quiet = true) :
    h.Completed ops := by
  cases pc <;> first | exact hold | cases hpc

theorem MayHold.quiet {out : PmHost × Option Pc} (hstep : ProcessStep h epoch pc out)
    (hpc : pc.quiet = true) (hc : h.Completed ops) : MayHold ops (afterStep epoch out) := by
  have hkeeps := hstep.keeps
  cases hstep with
  | go _ hmask hnext =>
    exact MayHoldAt.of_winding ((Pc.leadsTo_iff.mp hnext).2.1 hpc) (hc.congr hkeeps.hooks (hmask hpc))
  | _ => cases hpc

/-- **No step but a callback of the hook undoes it.** -/
theorem MayHoldAt.step (hold : MayHoldAt ops h pc) (hplace : HookPlace h trace pc)
    (hbusy : BusyInv h epoch pc) (hrev : ∀ abortPhase, ops.reverse abortPhase = true)
    (hat : ¬AtHook ops h pc) (env : PmEnv) :
    MayHold ops (afterStep epoch (processStep env h epoch pc)) := by
  by_cases hquiet : pc.quiet = true
  · exact .quiet (processStep_cases env h epoch pc) hquiet (hold.of_quiet hquiet)
  cases pc with
  | forwardStart =>
    simp only [processStep]
    split
    · exact hold
    · exact hold
  | forward => exact hold.forward env
  | hookDone _ _ idx =>
    have hidx : idx < h.hooks.length := hplace.1 ▸ hplace.2.1
    exact hold.hookDone hidx hbusy env
  | scopeCheck =>
    simp only [processStep]
    cases h.data.scope with
    | vm => exact .inr ⟨hbusy.not_running, hold⟩
    | system | none => exact hold
  | failEpoch status => exact .inl (hbusy.failEpoch_state env.now status)
  | reverseStart =>
    simp only [processStep]
    split
    · exact trivial
    split
    · exact trivial
    · exact .inr hold
  | reverse => exact hold.reverse (hrev _) hat env
  | thawStart _ | thawVcpu _ _ _ _ | ungate _ _ | complete _ => exact hold.elim
  | _ => exact absurd rfl hquiet

end Holding

/-! ### The phase that prepares -/

/-- No hook from `idx` on has its bit. -/
def NoneFrom (completed : BitVec 64) (idx : Nat) : Prop :=
  ∀ k < 64, idx ≤ k → bitmapTest k completed = false

/-- What is known of the bits at a place of that phase. -/
def PreparingAt (completed : BitVec 64) : Pc → Prop
  | .forwardStart false => completed = 0
  | .forward false _ idx | .hookDone false _ idx => NoneFrom completed idx
  | _ => True

/-- While the boot pCPU prepares, it has not come to the hooks from its index on. -/
def Preparing (m : PmMachine) : Prop :=
  match m.frame with
  | none => m.host.data.state = .preparing → m.host.data.completedHookMask = 0
  | some (_, pc) => PreparingAt m.host.data.completedHookMask pc

variable {h : PmHost} {epoch idx : Nat} {pc : Pc} {op : PmOp}

theorem preparing_of_prepared (hpc : pc.prepared = true) : Preparing ⟨h, some (epoch, pc)⟩ := by
  show PreparingAt h.data.completedHookMask pc
  unfold PreparingAt
  split
  · cases hpc
  · cases hpc
  · cases hpc
  · exact trivial

theorem NoneFrom.zero (idx : Nat) : NoneFrom 0 idx := fun k _ _ => bitmapTest_zero k

theorem NoneFrom.mono {completed : BitVec 64} {idx' : Nat} (h : NoneFrom completed idx)
    (hle : idx ≤ idx') : NoneFrom completed idx' := fun k hk hidx => h k hk (hle.trans hidx)

theorem NoneFrom.set {completed : BitVec 64} (h : NoneFrom completed idx) (hidx : idx < 64) :
    NoneFrom (bitmapSet idx completed) (idx + 1) := by
  intro k hk hle
  rw [bitmapTest_set_of_ne (by omega)]
  exact h k hk (by omega)

section Preparing

variable {h : PmHost} {epoch : Nat} {trace : List HookEvent}

theorem Preparing.enter (hprep : Preparing ⟨h, none⟩) :
    Preparing ⟨h, (processEntry h.data).map fun pc => (h.data.epoch, pc)⟩ := by
  unfold processEntry
  split
  · exact preparing_of_prepared rfl
  · exact preparing_of_prepared rfl
  · next hstate =>
    split
    · exact hprep hstate
    · exact hprep
  · exact hprep

/-- Once the hooks are prepared, a step does not go back to preparing them. -/
theorem Preparing.of_prepared {pc : Pc} {out : PmHost × Option Pc}
    (hstep : ProcessStep h epoch pc out) (hpc : pc.prepared = true) (hbusy : BusyInv h epoch pc) :
    Preparing (afterStep epoch out) := by
  cases hstep with
  | go _ _ hnext => exact preparing_of_prepared ((Pc.leadsTo_iff.mp hnext).1 hpc)
  | leave => exact fun hstate => absurd hstate hbusy.place
  | fail now status =>
    exact fun hstate => absurd ((hbusy.failEpoch_state now status).symm.trans hstate) (by decide)
  | complete now u =>
    exact fun hstate =>
      absurd ((hbusy.complete_state now u.lastStatus).symm.trans hstate) (by decide)

theorem Preparing.step {pc : Pc} (hprep : Preparing ⟨h, some (epoch, pc)⟩)
    (hplace : HookPlace h trace pc) (hbusy : BusyInv h epoch pc)
    (hlen : h.hooks.length ≤ hvPmMaxHooks) (env : PmEnv) :
    Preparing (afterStep epoch (processStep env h epoch pc)) := by
  by_cases hpc : pc.prepared = true
  · exact .of_prepared (processStep_cases env h epoch pc) hpc hbusy
  unfold Pc.prepared at hpc
  split at hpc
  · have hzero : h.data.completedHookMask = 0 := hprep
    simp only [processStep]
    split
    · show NoneFrom h.data.completedHookMask 0
      rw [hzero]
      exact .zero 0
    · exact preparing_of_prepared rfl
  · next count idx =>
    have hnone : NoneFrom h.data.completedHookMask idx := hprep
    simp only [processStep, forwardStep]
    split
    · split
      · split
        · exact hnone
        · exact preparing_of_prepared rfl
      · exact hnone.mono (Nat.le_succ idx)
    · exact preparing_of_prepared rfl
  · next count idx =>
    have hnone : NoneFrom h.data.completedHookMask idx := hprep
    have hidx : idx < h.hooks.length := hplace.1 ▸ hplace.2.1
    have hmax : hvPmMaxHooks = 32 := rfl
    simp only [processStep, hbusy.hookDone_eq]
    exact hnone.set (by omega)
  · exact absurd rfl hpc

theorem Preparing.request {frame : Option (Nat × Pc)} (hprep : Preparing ⟨h, frame⟩)
    (hinv : PmMachine.Inv ⟨h, frame⟩) (env : PmEnv) (op : PmOp) :
    Preparing ⟨requestOp env h op, frame⟩ := by
  by_cases hrun : h.data.state = .running
  · obtain rfl : frame = none := hinv.frame_eq_none hrun
    intro hstate
    rcases requestOp_running env op hrun with hstays | hstarts
    · exact absurd (hstays.state.symm.trans hstate) (by decide)
    · exact hstarts.completed
  · have hint := requestOp_active env op hrun (hinv.owned.topology hrun)
    cases frame with
    | none =>
      exact fun hstate => hint.completed.trans (hprep (hint.preparing hstate))
    | some f =>
      show PreparingAt (requestOp env h op).data.completedHookMask f.2
      rw [hint.completed]
      exact hprep

end Preparing

/-! ### The way back -/

/-- The transaction is on its way back, or there is none. -/
def PmMachine.Unwinding (m : PmMachine) : Prop :=
  match m.frame with
  | none => m.host.data.state = .running
  | some (_, pc) => pc.unwinds = true

instance PmMachine.Unwinding.decidable : ∀ m : PmMachine, Decidable m.Unwinding
  | ⟨h, none⟩ => inferInstanceAs (Decidable (h.data.state = .running))
  | ⟨_, some (_, pc)⟩ => inferInstanceAs (Decidable (pc.unwinds = true))

theorem not_unwinding_of_pc (hpc : pc.unwinds = false) :
    ¬PmMachine.Unwinding ⟨h, some (epoch, pc)⟩ := fun hun =>
  absurd (hpc.symm.trans hun) (by decide)

/-- The way back starts with the reverse callbacks. -/
theorem ProcessStep.unwinding {out : PmHost × Option Pc} (hstep : ProcessStep h epoch pc out)
    (hbusy : BusyInv h epoch pc) (hun : (afterStep epoch out).Unwinding) : pc.turnsBack = true := by
  cases hstep with
  | go _ _ hnext => exact (Pc.leadsTo_iff.mp hnext).2.2 hun
  | leave => exact absurd hun hbusy.not_running
  | fail now status =>
    exact absurd ((hbusy.failEpoch_state now status).symm.trans hun) (by decide)
  | complete => rfl

/-! ### The hook table -/

def NamesDiffer (h : PmHost) : Prop := (h.hooks.map PmOps.name).Nodup

theorem NamesDiffer.unique (hnames : NamesDiffer h) {k k' : Nat} (hk : k < h.hooks.length)
    (hk' : k' < h.hooks.length) (heq : h.hook k = h.hook k') : k = k' := by
  have hget : ∀ i, i < h.hooks.length → h.hooks[i]? = some (h.hook i) := by
    intro i hi
    rw [PmHost.hook, List.getD_eq_getElem?_getD, List.getElem?_eq_getElem hi]
    rfl
  have hk'' : k < (h.hooks.map PmOps.name).length := by rwa [List.length_map]
  refine (List.getElem?_inj hk'' hnames).mp ?_
  rw [List.getElem?_map, List.getElem?_map, hget k hk, hget k' hk', heq]

theorem NamesDiffer.request (hnames : NamesDiffer h) (env : PmEnv) (op : PmOp) :
    NamesDiffer (requestOp env h op) := by
  unfold NamesDiffer
  rcases requestOp_hooks env h op with heq | ⟨ops, hregs⟩
  · rw [heq]
    exact hnames
  have hperm : (requestOp env h op).hooks.Perm (ops :: h.hooks) := by
    rw [hregs.hooks]
    refine List.perm_middle.trans ?_
    rw [List.rdropWhile_append_rtakeWhile]
  refine (hperm.map PmOps.name).nodup_iff.mpr (List.nodup_cons.mpr ⟨fun hmem => ?_, hnames⟩)
  obtain ⟨hook, hin, hname⟩ := List.mem_map.mp hmem
  exact hregs.new hook hin hname

/-! ### Runs -/

/-- What is known of the hooks at any time. -/
structure PmMachine.HookFlow (m : PmMachine) : Prop where
  history : ∃ trace, PmHistory.Inv ⟨m, trace⟩
  names : NamesDiffer m.host
  preparing : Preparing m

theorem PmMachine.HookFlow.inv {m : PmMachine} (hflow : m.HookFlow) : m.Inv := by
  obtain ⟨trace, hinv⟩ := hflow.history
  exact hinv.machine

theorem PmMachine.HookFlow.step {m : PmMachine} (hflow : m.HookFlow) (call : PmEnv × PmOp) :
    (m.step call).HookFlow := by
  obtain ⟨⟨trace, hinv⟩, hnames, hprep⟩ := hflow
  have hnext := hinv.step call
  obtain ⟨env, op⟩ := call
  obtain ⟨h, frame⟩ := m
  by_cases hop : op = .process
  · subst hop
    cases frame with
    | none => exact ⟨⟨_, hnext⟩, hnames, hprep.enter⟩
    | some f =>
      obtain ⟨epoch, pc⟩ := f
      refine ⟨⟨_, hnext⟩, ?_, hprep.step hinv.history hinv.machine hinv.hooks.length env⟩
      show NamesDiffer (processStep env h epoch pc).1
      unfold NamesDiffer
      rw [(processStep_cases env h epoch pc).keeps.hooks]
      exact hnames
  · refine ⟨⟨_, hnext⟩, ?_, ?_⟩ <;> rw [PmMachine.step_of_ne _ env hop]
    · exact hnames.request env op
    · exact hprep.request hinv.machine env op

theorem PmMachine.HookFlow.boot (tickrate : Nat) (vcpus : Nat → VcpuCount) :
    (PmMachine.boot tickrate vcpus).HookFlow :=
  ⟨⟨[], PmHistory.inv_run tickrate vcpus []⟩, .nil, nofun⟩

variable {ops : PmOps} {m : PmMachine}

def PmMachine.OutsideHook (ops : PmOps) (m : PmMachine) : Prop :=
  ∀ epoch pc, m.frame = some (epoch, pc) → ¬AtHook ops m.host pc

variable (hflow : m.HookFlow)

include hflow

theorem MayHold.process (hold : MayHold ops m)
    (hrev : ∀ abortPhase, ops.reverse abortPhase = true) (hout : m.OutsideHook ops) (env : PmEnv) :
    MayHold ops (processOp env m) := by
  obtain ⟨⟨trace, hinv⟩, -, -⟩ := hflow
  obtain ⟨h, frame⟩ := m
  cases frame with
  | none =>
    rcases hold with hfail | ⟨hne, hc⟩
    · have hentry : processEntry h.data = none := by
        have hstate : h.data.state = .failed := hfail
        simp only [processEntry, hstate]
      show MayHold ops ⟨h, (processEntry h.data).map _⟩
      rw [hentry]
      exact .inl hfail
    · show MayHold ops ⟨h, (processEntry h.data).map _⟩
      unfold processEntry
      split
      · exact hc
      · exact hc
      · split
        · exact hc
        · exact .inr ⟨hne, hc⟩
      · exact .inr ⟨hne, hc⟩
  | some f =>
    obtain ⟨epoch, pc⟩ := f
    exact MayHoldAt.step hold hinv.history hinv.machine hrev (hout epoch pc rfl) env

theorem MayHold.request (hold : MayHold ops m) (env : PmEnv)
    (hop : op ≠ .process) : MayHold ops (m.step (env, op)) := by
  obtain ⟨⟨trace, hinv⟩, -, -⟩ := hflow
  rw [PmMachine.step_of_ne m env hop]
  obtain ⟨h, frame⟩ := m
  by_cases hrun : h.data.state = .running
  · exact absurd hold (not_mayHold_of_running (hinv.machine.frame_eq_none hrun) hrun)
  have hint := requestOp_active env op hrun (hinv.machine.owned.topology hrun)
  obtain ⟨-, hhooks⟩ := hint.hooks (hinv.hooks.finalized hrun)
  have hhook := PmHost.hook_congr hhooks
  have hcomp : h.Completed ops → (requestOp env h op).Completed ops :=
    fun hc => hc.congr hhooks hint.completed
  cases frame with
  | none =>
    rcases hold with hfail | ⟨-, hc⟩
    · exact .inl (hint.failed.mpr hfail)
    · exact .inr ⟨hint.active, hcomp hc⟩
  | some f =>
    obtain ⟨epoch, pc⟩ := f
    have hat : MayHoldAt ops h pc := hold
    show MayHoldAt ops (requestOp env h op) pc
    cases pc with
    | hookDone _ _ idx => exact hat.imp hcomp fun hidx => (hhook idx).trans hidx
    | reverse =>
      refine hat.imp_right ?_
      rintro ⟨k, hk, hop', hbit⟩
      exact ⟨k, hk, (hhook k).trans hop', hbit⟩
    | failEpoch => exact trivial
    | thawStart _ | thawVcpu _ _ _ _ | ungate _ _ | complete _ => exact hat.elim
    | _ => exact hcomp hat

namespace PmMachine.HookFlow

/-- The hook has not been wound up where it is prepared. -/
theorem not_mayHold_of_prepare {count : Nat}
    (hframe : m.frame = some (epoch, .forward false count idx)) (hidx : idx < count)
    (hop : m.host.hook idx = ops) : ¬MayHold ops m := by
  obtain ⟨⟨trace, hinv⟩, hnames, hprep⟩ := hflow
  obtain ⟨h, frame⟩ := m
  obtain rfl : frame = some (epoch, .forward false count idx) := hframe
  have hplace : HookPlace h trace (.forward false count idx) := hinv.history
  have hnone : NoneFrom h.data.completedHookMask idx := hprep
  have hlen : h.hooks.length ≤ hvPmMaxHooks := hinv.hooks.length
  have hmax : hvPmMaxHooks = 32 := rfl
  rintro ⟨k, hk, hop', hbit⟩
  have hk' : k < h.hooks.length := hk
  obtain rfl : k = idx := hnames.unique hk' (hplace.1 ▸ hidx) (hop'.trans hop.symm)
  exact absurd (hbit.symm.trans (hnone k (by omega) (Nat.le_refl k))) (by decide)

/-- The boot pCPU does not start a transaction. -/
theorem active_process (env : PmEnv)
    (hactive : (m.step (env, .process)).host.data.state ≠ .running) :
    m.host.data.state ≠ .running := by
  cases hframe : m.frame with
  | none =>
    obtain ⟨h, frame⟩ := m
    obtain rfl : frame = none := hframe
    exact hactive
  | some f => exact hflow.inv.active hframe

/-- Only the boot pCPU turns a transaction back. -/
theorem unwinding_process (env : PmEnv) (hun : (m.step (env, .process)).Unwinding) :
    m.Unwinding ∨ ∃ epoch u, m.frame = some (epoch, .reverseStart u) := by
  have hinv := hflow.inv
  obtain ⟨h, frame⟩ := m
  cases frame with
  | none =>
    refine .inl ?_
    have hun' : Unwinding ⟨h, (processEntry h.data).map fun pc => (h.data.epoch, pc)⟩ := hun
    unfold processEntry at hun'
    split at hun'
    · exact absurd hun' (not_unwinding_of_pc rfl)
    · exact absurd hun' (not_unwinding_of_pc rfl)
    · split at hun'
      · exact absurd hun' (not_unwinding_of_pc rfl)
      · exact hun'
    · exact hun'
  | some f =>
    obtain ⟨epoch, pc⟩ := f
    have hback := (processStep_cases env h epoch pc).unwinding hinv hun
    cases pc with
    | reverseStart u => exact .inr ⟨epoch, u, rfl⟩
    | _ => exact .inl hback

/-- A call into the power management does not end a transaction. -/
theorem active_request (hactive : m.host.data.state ≠ .running) (env : PmEnv)
    (hop : op ≠ .process) :
    (m.step (env, op)).host.data.state ≠ .running := by
  rw [step_of_ne m env hop]
  exact (requestOp_active env op hactive (hflow.inv.owned.topology hactive)).active

theorem unwinding_request (env : PmEnv) (hop : op ≠ .process)
    (hun : (m.step (env, op)).Unwinding) : m.Unwinding := by
  cases hframe : m.frame with
  | none =>
    by_cases hrun : m.host.data.state = .running
    · unfold Unwinding
      rw [hframe]
      exact hrun
    · have hactive := hflow.active_request hrun env hop
      rw [step_of_ne m env hop] at hun hactive
      unfold Unwinding at hun
      rw [hframe] at hun
      exact absurd hun hactive
  | some f =>
    rw [step_of_ne m env hop] at hun
    unfold Unwinding at hun ⊢
    rw [hframe] at hun ⊢
    exact hun

/-- The table of hooks does not change in a transaction. -/
theorem request_hook (hactive : m.host.data.state ≠ .running) (env : PmEnv)
    (hop : op ≠ .process) (k : Nat) : (m.step (env, op)).host.hook k = m.host.hook k := by
  obtain ⟨trace, hhist⟩ := hflow.history
  have hint := requestOp_active env op hactive (hflow.inv.owned.topology hactive)
  obtain ⟨-, hhooks⟩ := hint.hooks (hhist.hooks.finalized hactive)
  rw [step_of_ne m env hop]
  exact PmHost.hook_congr hhooks k

theorem scope (call : PmEnv × PmOp)
    (hactive : m.host.data.state ≠ .running) (hactive' : (m.step call).host.data.state ≠ .running) :
    (m.step call).host.data.scope = m.host.data.scope ∧
      (m.step call).host.data.targetVmid = m.host.data.targetVmid := by
  obtain ⟨env, op⟩ := call
  by_cases hop : op = .process
  · subst hop
    obtain ⟨h, frame⟩ := m
    cases frame with
    | none => exact ⟨rfl, rfl⟩
    | some f => exact (processStep_cases env h f.1 f.2).keeps.scope hactive'
  · rw [step_of_ne m env hop]
    exact (requestOp_active env op hactive (hflow.inv.owned.topology hactive)).scope

end PmMachine.HookFlow

end BeauOs.Pm
