/-
Hooks are unwound exactly as far as they were wound up.

The history of a transaction is the list of the callbacks it has made, oldest first; it is
kept beside the machine and starts anew with every transaction.  Until `hv_pm_run_reverse`
begins it holds forward callbacks only, and `completed_hook_mask` has the bit of a hook exactly
if one of its forward callbacks succeeded (`Recorded`); between the return of a callback and
the section that records it, that one bit is missing.  `hv_pm_run_reverse` reads the mask once
and walks down the table, so at index `idx` the reverse callbacks made are those of the hooks
from `idx` on (`Unwound`).  A transaction gets back to `PM_RUNNING` only through the end of
that walk.
-/
import BeauOs.Proofs.Pm.Ownership

namespace BeauOs.Pm

/-! ### The callbacks of a transaction -/

/-- A callback with its epoch, its hook, its phase and what it returned. -/
inductive HookEvent
  | forward (epoch idx : Nat) (suspendPhase : Bool) (status : Int)
  | reverse (epoch idx : Nat) (abortPhase : Bool) (status : Int)
  deriving DecidableEq

def HookEvent.epoch : HookEvent → Nat
  | .forward epoch _ _ _ | .reverse epoch _ _ _ => epoch

def HookEvent.idx : HookEvent → Nat
  | .forward _ idx _ _ | .reverse _ idx _ _ => idx

def HookEvent.isForward : HookEvent → Bool
  | .forward .. => true
  | .reverse .. => false

def hookEvent (env : PmEnv) (h : PmHost) (epoch : Nat) : Pc → Option HookEvent
  | .forward suspendPhase count idx =>
    if idx < count ∧ (h.hook idx).forward suspendPhase = true then
      some (.forward epoch idx suspendPhase env.status)
    else none
  | .reverse u completed (hookIdx + 1) _ =>
    if bitmapTest hookIdx completed = true ∧ (h.hook hookIdx).reverse u.abortPhase = true then
      some (.reverse epoch hookIdx u.abortPhase env.status)
    else none
  | _ => none

structure PmHistory where
  machine : PmMachine
  trace : List HookEvent

def PmMachine.event (m : PmMachine) (call : PmEnv × PmOp) : Option HookEvent :=
  match call.2, m.frame with
  | .process, some (epoch, pc) => hookEvent call.1 m.host epoch pc
  | _, _ => none

/-- One step; a step without a transaction forgets the callbacks of the last one. -/
def PmHistory.step (x : PmHistory) (call : PmEnv × PmOp) : PmHistory :=
  ⟨x.machine.step call,
    if x.machine.host.data.state = .running then []
    else x.trace ++ (x.machine.event call).toList⟩

def PmHistory.boot (tickrate : Nat) (vcpus : Nat → VcpuCount) : PmHistory :=
  ⟨PmMachine.boot tickrate vcpus, []⟩

def Succeeded (trace : List HookEvent) (idx : Nat) : Prop :=
  ∃ epoch suspendPhase, HookEvent.forward epoch idx suspendPhase 0 ∈ trace

/--
The callbacks `rev` unwind `fwd` down to the hook `idx`: one for each hook that succeeded and has
the callback, in decreasing order.
-/
structure Unwound (hooks : List PmOps) (abortPhase : Bool) (idx : Nat) (fwd rev : List HookEvent) :
    Prop where
  forward : ∀ ev ∈ fwd, ev.isForward = true
  reverse : ∀ ev ∈ rev, ∃ epoch status, ev = .reverse epoch ev.idx abortPhase status
  order : rev.Pairwise fun ev ev' => ev'.idx < ev.idx
  mem : ∀ i, (∃ ev ∈ rev, ev.idx = i) ↔
    idx ≤ i ∧ Succeeded fwd i ∧ (hooks.getD i PmOps.unset).reverse abortPhase = true

def HooksUnwound (hooks : List PmOps) (abortPhase : Bool) (trace : List HookEvent) : Prop :=
  ∃ fwd rev, trace = fwd ++ rev ∧ Unwound hooks abortPhase 0 fwd rev

/-! ### The invariant -/

/-- The mask records the forward callbacks that succeeded, but for the one still in hand. -/
structure Recorded (completed : BitVec 64) (pending : Option Nat) (trace : List HookEvent) :
    Prop where
  forward : ∀ ev ∈ trace, ev.isForward = true
  bits : ∀ i < 64, bitmapTest i completed = true ∨ pending = some i ↔ Succeeded trace i

def HookPlace (h : PmHost) (trace : List HookEvent) : Pc → Prop
  | .forward _ count _ => count = h.hooks.length ∧ Recorded h.data.completedHookMask none trace
  | .hookDone _ count idx =>
    count = h.hooks.length ∧ idx < count ∧ Recorded h.data.completedHookMask (some idx) trace
  | .reverse u completed idx _ =>
    idx ≤ h.hooks.length ∧ ∃ fwd rev, trace = fwd ++ rev ∧
      (∀ i < 64, bitmapTest i completed = true ↔ Succeeded fwd i) ∧
      Unwound h.hooks u.abortPhase idx fwd rev
  | .thawStart u | .thawVcpu u _ _ _ | .ungate u _ | .complete u =>
    HooksUnwound h.hooks u.abortPhase trace
  | .failEpoch _ => True
  | _ => Recorded h.data.completedHookMask none trace

variable {h : PmHost} {trace fwd : List HookEvent} {epoch idx : Nat} {sp abortPhase : Bool}
    {completed : BitVec 64} {hooks : List PmOps} {frame : Option (Nat × Pc)}

theorem HookPlace.of_winding {pc : Pc} (hpc : pc.winding = true)
    (hrec : Recorded h.data.completedHookMask none trace) : HookPlace h trace pc := by
  cases pc <;> first | exact hrec | exact trivial | exact nomatch hpc

def HookMachine (m : PmMachine) (trace : List HookEvent) : Prop :=
  match m.frame with
  | none => m.host.data.state ≠ .running → m.host.data.state ≠ .failed →
      Recorded m.host.data.completedHookMask none trace
  | some (_, pc) => HookPlace m.host trace pc

structure HooksOk (h : PmHost) : Prop where
  sorted : h.hooks.Pairwise fun a b => a.priority ≤ b.priority
  length : h.hooks.length ≤ hvPmMaxHooks
  finalized : h.data.state ≠ .running → h.hooksFinalized = true

structure PmHistory.Inv (x : PmHistory) : Prop where
  machine : x.machine.Inv
  hooks : HooksOk x.machine.host
  epoch : ∀ ev ∈ x.trace, ev.epoch = x.machine.host.data.epoch
  history : HookMachine x.machine x.trace

/-! ### Forward callbacks -/

theorem Succeeded.append {i : Nat} :
    Succeeded (fwd ++ trace) i ↔ Succeeded fwd i ∨ Succeeded trace i := by
  constructor
  · rintro ⟨epoch, sp, hmem⟩
    rcases List.mem_append.mp hmem with h | h
    · exact .inl ⟨epoch, sp, h⟩
    · exact .inr ⟨epoch, sp, h⟩
  · rintro (⟨epoch, sp, h⟩ | ⟨epoch, sp, h⟩)
    · exact ⟨epoch, sp, List.mem_append.mpr (.inl h)⟩
    · exact ⟨epoch, sp, List.mem_append.mpr (.inr h)⟩

theorem succeeded_singleton {i : Nat} {status : Int} :
    Succeeded [.forward epoch idx sp status] i ↔ status = 0 ∧ i = idx := by
  constructor
  · rintro ⟨e, p, hmem⟩
    obtain ⟨-, rfl, -, rfl⟩ := HookEvent.forward.inj (List.mem_singleton.mp hmem)
    exact ⟨rfl, rfl⟩
  · rintro ⟨rfl, rfl⟩
    exact ⟨epoch, sp, List.mem_singleton_self _⟩

theorem Recorded.forward_append {pending : Option Nat} {status : Int}
    (hrec : Recorded completed pending trace) :
    ∀ ev ∈ trace ++ [.forward epoch idx sp status], ev.isForward = true :=
  List.forall_mem_append.mpr ⟨hrec.forward, List.forall_mem_singleton.mpr rfl⟩

/-- A forward callback that failed leaves the record as it is. -/
theorem Recorded.failed {status : Int} (hrec : Recorded completed none trace)
    (hstatus : status ≠ 0) : Recorded completed none (trace ++ [.forward epoch idx sp status]) := by
  refine ⟨hrec.forward_append, fun i hi => ?_⟩
  rw [Succeeded.append, succeeded_singleton, hrec.bits i hi]
  exact ⟨.inl, fun h => h.resolve_right fun hs => hstatus hs.1⟩

theorem Recorded.succeeded (hrec : Recorded completed none trace) :
    Recorded completed (some idx) (trace ++ [.forward epoch idx sp 0]) := by
  refine ⟨hrec.forward_append, fun i hi => ?_⟩
  rw [Succeeded.append, succeeded_singleton, ← hrec.bits i hi]
  constructor
  · rintro (h | h)
    · exact .inl (.inl h)
    · exact .inr ⟨rfl, (Option.some.inj h).symm⟩
  · rintro ((h | h) | ⟨-, rfl⟩)
    · exact .inl h
    · exact nomatch h
    · exact .inr rfl

/-- The section behind the callback records it. -/
theorem Recorded.complete (hrec : Recorded completed (some idx) trace) (hidx : idx < 64) :
    Recorded (bitmapSet idx completed) none trace := by
  refine ⟨hrec.forward, fun i hi => ?_⟩
  rw [← hrec.bits i hi]
  by_cases heq : i = idx
  · subst heq
    simp [bitmapTest_set]
  rw [bitmapTest_set_of_ne (by omega)]
  constructor
  · rintro (h | h)
    · exact .inl h
    · exact nomatch h
  · rintro (h | h)
    · exact .inl h
    · exact absurd (Option.some.inj h).symm heq

/-! ### Reverse callbacks -/

theorem Unwound.start (hfwd : ∀ ev ∈ fwd, ev.isForward = true) :
    Unwound hooks abortPhase hooks.length fwd [] := by
  refine ⟨hfwd, nofun, .nil, fun i => ⟨nofun, ?_⟩⟩
  rintro ⟨hle, -, hrev⟩
  rw [List.getD_eq_getElem?_getD, List.getElem?_eq_none hle] at hrev
  cases abortPhase <;> exact nomatch hrev

/-- A hook with no callback to make is passed over. -/
theorem Unwound.skip {rev : List HookEvent} (h : Unwound hooks abortPhase (idx + 1) fwd rev)
    (hskip : ¬ (Succeeded fwd idx ∧ (hooks.getD idx PmOps.unset).reverse abortPhase = true)) :
    Unwound hooks abortPhase idx fwd rev := by
  refine ⟨h.forward, h.reverse, h.order, fun i => ?_⟩
  rw [h.mem]
  constructor
  · rintro ⟨hle, hs⟩
    exact ⟨Nat.le_of_succ_le hle, hs⟩
  · rintro ⟨hle, hs⟩
    refine ⟨Nat.lt_of_le_of_ne hle fun heq => ?_, hs⟩
    subst heq
    exact hskip hs

/-- The next reverse callback is the one of the next hook down. -/
theorem Unwound.call {rev : List HookEvent} (h : Unwound hooks abortPhase (idx + 1) fwd rev)
    (hs : Succeeded fwd idx) (hrev : (hooks.getD idx PmOps.unset).reverse abortPhase = true)
    (epoch : Nat) (status : Int) :
    Unwound hooks abortPhase idx fwd (rev ++ [.reverse epoch idx abortPhase status]) := by
  refine ⟨h.forward, fun ev hmem => ?_, ?_, fun i => ?_⟩
  · rcases List.mem_append.mp hmem with hold | hnew
    · exact h.reverse ev hold
    · rw [List.mem_singleton.mp hnew]
      exact ⟨epoch, status, rfl⟩
  · refine List.pairwise_append.mpr ⟨h.order, List.pairwise_singleton _ _, fun ev hold ev' hnew => ?_⟩
    rw [List.mem_singleton.mp hnew]
    exact ((h.mem ev.idx).mp ⟨ev, hold, rfl⟩).1
  · have hold := h.mem i
    constructor
    · rintro ⟨ev, hmem, rfl⟩
      rcases List.mem_append.mp hmem with hin | hnew
      · obtain ⟨hle, hrest⟩ := (h.mem ev.idx).mp ⟨ev, hin, rfl⟩
        exact ⟨Nat.le_of_succ_le hle, hrest⟩
      · rw [List.mem_singleton.mp hnew]
        exact ⟨Nat.le_refl idx, hs, hrev⟩
    · rintro ⟨hle, hrest⟩
      rcases Nat.eq_or_lt_of_le hle with rfl | hlt
      · exact ⟨_, List.mem_append.mpr (.inr (List.mem_singleton_self _)), rfl⟩
      · obtain ⟨ev, hin, hidx⟩ := hold.mpr ⟨hlt, hrest⟩
        exact ⟨ev, List.mem_append.mpr (.inl hin), hidx⟩

/-! ### Steps of the boot pCPU -/

section Steps

variable {h : PmHost} {epoch : Nat} {trace : List HookEvent}

/-- A step that makes no callback and records none. -/
theorem HookMachine.of_winding {h' : PmHost} {pc' : Pc}
    (hrec : Recorded h.data.completedHookMask none trace) (hpc : pc'.winding = true)
    (hmask : h'.data.completedHookMask = h.data.completedHookMask) :
    HookMachine (afterStep epoch (h', some pc')) (trace ++ []) := by
  rw [List.append_nil]
  exact HookPlace.of_winding hpc (hmask ▸ hrec)

variable {idx : Nat} {pc : Pc}

/-- The section behind a callback finds the transaction active. -/
theorem BusyInv.hookDone_eq (hbusy : BusyInv h epoch pc) : hvPmSetHookCompleted epoch idx h.data =
    ({ h.data with completedHookMask := bitmapSet idx h.data.completedHookMask }, 0) := by
  refine if_neg ?_
  rintro (hne | hrun | hfail)
  · exact hne hbusy.epoch_eq
  · exact hbusy.not_running hrun
  · exact hbusy.not_failed hfail

theorem HookPlace.forward {sp : Bool} {count : Nat}
    (hplace : HookPlace h trace (.forward sp count idx)) (env : PmEnv) :
    HookMachine (afterStep epoch (processStep env h epoch (.forward sp count idx)))
      (trace ++ (hookEvent env h epoch (.forward sp count idx)).toList) := by
  obtain ⟨hcount, hrec⟩ := hplace
  simp only [processStep, forwardStep, hookEvent]
  by_cases hidx : idx < count
  · rw [if_pos hidx]
    by_cases hcall : (h.hook idx).forward sp = true
    · rw [if_pos hcall, if_pos (And.intro hidx hcall)]
      by_cases hstatus : env.status = 0
      · rw [if_pos hstatus, hstatus]
        exact ⟨hcount, hidx, hrec.succeeded⟩
      · rw [if_neg hstatus]
        exact hrec.failed hstatus
    · rw [if_neg hcall, if_neg fun hc => hcall hc.2]
      exact ⟨hcount, (List.append_nil trace).symm ▸ hrec⟩
  · rw [if_neg hidx, if_neg fun hc => hidx hc.1]
    exact (List.append_nil trace).symm ▸ hrec

theorem HookPlace.hookDone {sp : Bool} {count : Nat}
    (hplace : HookPlace h trace (.hookDone sp count idx)) (hlen : h.hooks.length ≤ hvPmMaxHooks)
    (hbusy : BusyInv h epoch (.hookDone sp count idx)) (env : PmEnv) :
    HookMachine (afterStep epoch (processStep env h epoch (.hookDone sp count idx)))
      (trace ++ []) := by
  obtain ⟨hcount, hidx, hrec⟩ := hplace
  have hlt : idx < 64 := by
    have hmax : hvPmMaxHooks = 32 := rfl
    omega
  simp only [processStep, hbusy.hookDone_eq, List.append_nil]
  exact ⟨hcount, hrec.complete hlt⟩

theorem HookPlace.reverse {u : Unwind} {completed : BitVec 64} {firstError : Int}
    (hplace : HookPlace h trace (.reverse u completed idx firstError))
    (hlen : h.hooks.length ≤ hvPmMaxHooks) (env : PmEnv) :
    HookMachine (afterStep epoch (processStep env h epoch (.reverse u completed idx firstError)))
      (trace ++ (hookEvent env h epoch (.reverse u completed idx firstError)).toList) := by
  obtain ⟨hidx, fwd, rev, rfl, hbits, hun⟩ := hplace
  cases idx with
  | zero =>
    simp only [processStep, reverseStep, hookEvent, Option.toList_none, List.append_nil]
    split
    · exact trivial
    · exact ⟨fwd, rev, rfl, hun⟩
  | succ k =>
    have hk : k < 64 := by
      have hmax : hvPmMaxHooks = 32 := rfl
      omega
    have hk' : k ≤ h.hooks.length := by omega
    have hbit := hbits k hk
    simp only [processStep, reverseStep, hookEvent]
    by_cases hc : bitmapTest k completed = true
    · by_cases hr : (h.hook k).reverse u.abortPhase = true
      · simp only [hc, hr, Bool.not_true, and_self, if_true, if_false, Bool.false_eq_true,
          Option.toList_some, List.append_assoc]
        have hnext := hun.call (hbit.mp hc) hr epoch env.status
        split <;> exact ⟨hk', fwd, _, rfl, hbits, hnext⟩
      · simp only [hc, hr, Bool.not_true, and_false, if_true, if_false, Bool.false_eq_true,
          Option.toList_none, List.append_nil]
        exact ⟨hk', fwd, rev, rfl, hbits, hun.skip fun hs => hr hs.2⟩
    · simp only [hc, Bool.false_eq_true, false_and, if_false, if_true, Bool.not_false,
        Option.toList_none, List.append_nil]
      exact ⟨hk', fwd, rev, rfl, hbits, hun.skip fun hs => hc (hbit.mpr hs.1)⟩

theorem hookEvent_quiet (hpc : pc.quiet = true) (env : PmEnv) :
    hookEvent env h epoch pc = none := by
  cases pc <;> first | rfl | cases hpc

/-- The bits are all there is to know before a quiet step, and after it. -/
theorem HookPlace.of_quiet (hplace : HookPlace h trace pc) (hpc : pc.quiet = true) :
    Recorded h.data.completedHookMask none trace := by
  cases pc <;> first | exact hplace | cases hpc

theorem HookMachine.quiet {out : PmHost × Option Pc} (hstep : ProcessStep h epoch pc out)
    (hpc : pc.quiet = true) (hrec : Recorded h.data.completedHookMask none trace) :
    HookMachine (afterStep epoch out) (trace ++ []) := by
  cases hstep with
  | go _ hmask hnext => exact .of_winding hrec ((Pc.leadsTo_iff.mp hnext).2.1 hpc) (hmask hpc)
  | _ => cases hpc

theorem HookMachine.thawVcpu {u : Unwind} {snapshot : PmSnapshot} {vmid vcpuId : Nat}
    (hun : HooksUnwound h.hooks u.abortPhase trace) (env : PmEnv) :
    HookMachine (afterStep epoch (processStep env h epoch (.thawVcpu u snapshot vmid vcpuId)))
      trace := by
  simp only [processStep, thawVcpuStep]
  split
  · split
    · exact hun
    split
    · split
      · exact hun
      · split
        · exact trivial
        · exact hun
    · exact hun
  · exact hun

/-- **One step of the boot pCPU keeps the history and the mask in accord.** -/
theorem HookPlace.step (hplace : HookPlace h trace pc) (hbusy : BusyInv h epoch pc)
    (hfin : h.hooksFinalized = true) (hlen : h.hooks.length ≤ hvPmMaxHooks) (env : PmEnv) :
    HookMachine (afterStep epoch (processStep env h epoch pc))
      (trace ++ (hookEvent env h epoch pc).toList) := by
  by_cases hquiet : pc.quiet = true
  · rw [hookEvent_quiet hquiet]
    exact .quiet (processStep_cases env h epoch pc) hquiet (hplace.of_quiet hquiet)
  cases pc with
  | forwardStart =>
    simp only [processStep, hfin, if_true]
    exact ⟨rfl, (List.append_nil trace).symm ▸ hplace⟩
  | forward => exact hplace.forward env
  | hookDone => exact hplace.hookDone hlen hbusy env
  | scopeCheck =>
    simp only [processStep]
    cases h.data.scope with
    | vm => exact fun _ _ => (List.append_nil trace).symm ▸ hplace
    | system | none => exact .of_winding hplace rfl rfl
  | failEpoch status =>
    intro hrun hfail
    exact absurd (hbusy.failEpoch_state env.now status) hfail
  | reverseStart =>
    simp only [processStep, hfin]
    split
    · exact trivial
    split
    · exact trivial
    have hrec : Recorded h.data.completedHookMask none trace := hplace
    refine ⟨Nat.le_refl _, trace, [], rfl, fun i hi => ?_, .start hrec.forward⟩
    rw [← hrec.bits i hi]
    exact ⟨.inl, fun hb => hb.resolve_right (by simp)⟩
  | reverse => exact hplace.reverse hlen env
  | thawStart =>
    simp only [processStep, thawStartStep, hookEvent, Option.toList_none, List.append_nil]
    split
    · exact trivial
    split
    · exact trivial
    · exact hplace
  | thawVcpu =>
    simp only [hookEvent, Option.toList_none, List.append_nil]
    exact .thawVcpu hplace env
  | ungate =>
    simp only [processStep, hvPmUngate, hookEvent, Option.toList_none, List.append_nil]
    split
    · rw [if_pos (show -eInval ≠ 0 by decide)]
      exact trivial
    · rw [if_neg (not_not.mpr rfl)]
      exact hplace
  | complete u =>
    intro hrun _
    exact absurd (hbusy.complete_state env.now u.lastStatus) hrun
  | _ => exact absurd rfl hquiet

end Steps

/-! ### The hook table -/

/-- A hook goes behind those that do not come later, so the table stays sorted. -/
theorem registered_sorted (ops : PmOps)
    (hsorted : hooks.Pairwise fun a b => a.priority ≤ b.priority) :
    (hooks.rdropWhile (fun hook => decide (hook.priority > ops.priority)) ++
      ops :: hooks.rtakeWhile (fun hook => decide (hook.priority > ops.priority))).Pairwise
        fun a b => a.priority ≤ b.priority := by
  induction hooks using List.reverseRecOn with
  | nil => exact List.pairwise_singleton _ _
  | append_singleton _ last ih =>
    obtain ⟨hrest, -, hlast⟩ := List.pairwise_append.mp hsorted
    by_cases hlater : last.priority > ops.priority
    · rw [List.rdropWhile_concat_pos _ _ _ (by simpa using hlater),
        List.rtakeWhile_concat_pos _ _ _ (by simpa using hlater),
        ← List.cons_append, ← List.append_assoc]
      refine List.pairwise_append.mpr ⟨ih hrest, List.pairwise_singleton _ _, fun a ha b hb => ?_⟩
      rw [List.mem_singleton.mp hb]
      rcases List.mem_append.mp ha with hdrop | hcons
      · exact hlast a ((List.rdropWhile_prefix _ _).subset hdrop) last (List.mem_singleton_self last)
      rcases List.mem_cons.mp hcons with rfl | htake
      · exact Nat.le_of_lt hlater
      · exact hlast a ((List.rtakeWhile_suffix _ _).subset htake) last (List.mem_singleton_self last)
    · rw [List.rdropWhile_concat_neg _ _ _ (by simpa using hlater),
        List.rtakeWhile_concat_neg _ _ _ (by simpa using hlater)]
      refine List.pairwise_append.mpr ⟨hsorted, List.pairwise_singleton _ _, fun a ha b hb => ?_⟩
      rw [List.mem_singleton.mp hb]
      rcases List.mem_append.mp ha with hin | hin
      · exact (hlast a hin last (List.mem_singleton_self last)).trans (Nat.not_lt.mp hlater)
      · rw [List.mem_singleton.mp hin]
        exact Nat.not_lt.mp hlater

theorem registered_length (hooks : List PmOps) (ops : PmOps) :
    (hooks.rdropWhile (fun hook => decide (hook.priority > ops.priority)) ++
      ops :: hooks.rtakeWhile (fun hook => decide (hook.priority > ops.priority))).length =
        hooks.length + 1 := by
  generalize (fun hook : PmOps => decide (hook.priority > ops.priority)) = later
  have hsplit : (hooks.rdropWhile later ++ hooks.rtakeWhile later).length = hooks.length :=
    congrArg List.length List.rdropWhile_append_rtakeWhile
  rw [List.length_append] at hsplit ⊢
  rw [List.length_cons, ← hsplit, Nat.add_assoc]

/-- Only `hv_pm_register_hook` changes the table. -/
theorem requestOp_hooks (env : PmEnv) (h : PmHost) (op : PmOp) :
    (requestOp env h op).hooks = h.hooks ∨ ∃ ops, Registers h ops (requestOp env h op).hooks :=
  (requestOp_cases env h op).elim Request.hooks fun hstarts => .inl hstarts.hooks

theorem requestOp_table (env : PmEnv) (op : PmOp)
    (hsorted : h.hooks.Pairwise fun a b => a.priority ≤ b.priority)
    (hlen : h.hooks.length ≤ hvPmMaxHooks) :
    ((requestOp env h op).hooks.Pairwise fun a b => a.priority ≤ b.priority) ∧
      (requestOp env h op).hooks.length ≤ hvPmMaxHooks := by
  rcases requestOp_hooks env h op with heq | ⟨ops, hregs⟩
  · rw [heq]
    exact ⟨hsorted, hlen⟩
  · rw [hregs.hooks, registered_length]
    exact ⟨registered_sorted ops hsorted, hregs.room⟩

/-! ### Runs -/

theorem HooksOk.request {m : PmMachine} (hok : HooksOk m.host) (hinv : m.Inv) (env : PmEnv)
    (op : PmOp) : HooksOk (requestOp env m.host op) := by
  obtain ⟨hsorted, hlen⟩ := requestOp_table env op hok.sorted hok.length
  refine ⟨hsorted, hlen, fun hstate' => ?_⟩
  by_cases hstate : m.host.data.state = .running
  · rcases requestOp_running env op hstate with hstays | hstarts
    · exact absurd hstays.state hstate'
    · exact hstarts.finalized
  · have hint := requestOp_active env op hstate (hinv.owned.topology hstate)
    exact (hint.hooks (hok.finalized hstate)).1

/-- What another pCPU does leaves the history of an active transaction as it is. -/
theorem HookMachine.interferes {h' : PmHost} (hhist : HookMachine ⟨h, frame⟩ trace)
    (hint : Interferes h h') (hfin : h.hooksFinalized = true) (hrun : h.data.state ≠ .running) :
    HookMachine ⟨h', frame⟩ trace := by
  have hhooks := (hint.hooks hfin).2
  cases frame with
  | none =>
    intro _ hfail
    show Recorded h'.data.completedHookMask none trace
    rw [hint.completed]
    exact hhist hrun (mt hint.failed.mpr hfail)
  | some f =>
    obtain ⟨epoch, pc⟩ := f
    have hplace : HookPlace h trace pc := hhist
    show HookPlace h' trace pc
    refine cast ?_ hplace
    cases pc <;> simp only [HookPlace, hhooks, hint.completed]

theorem HookMachine.enter (hhist : HookMachine ⟨h, none⟩ trace) (hrun : h.data.state ≠ .running) :
    HookMachine ⟨h, (processEntry h.data).map fun pc => (h.data.epoch, pc)⟩ trace := by
  have hplace : ∀ pc : Pc, pc.winding = true → h.data.state ≠ .failed → HookPlace h trace pc :=
    fun pc hpc hfail => .of_winding hpc (hhist hrun hfail)
  unfold processEntry
  split
  · next hstate => exact hplace (.rollback h.data.lastStatus) rfl (by rw [hstate]; decide)
  · next hstate => exact hplace (.reverseStart .restore) rfl (by rw [hstate]; decide)
  · next hstate =>
    split
    · exact hplace (.forwardStart false) rfl (by rw [hstate]; decide)
    · exact hhist
  · exact hhist

theorem hookEvent_epoch {env : PmEnv} {pc : Pc} {ev : HookEvent}
    (hev : hookEvent env h epoch pc = some ev) : ev.epoch = epoch := by
  unfold hookEvent at hev
  split at hev
  · split at hev
    · rw [← Option.some.inj hev]; rfl
    · exact nomatch hev
  · split at hev
    · rw [← Option.some.inj hev]; rfl
    · exact nomatch hev
  · exact nomatch hev

/-- A step of the boot pCPU in an active transaction. -/
theorem PmHistory.Inv.process (hinv : PmHistory.Inv ⟨⟨h, frame⟩, trace⟩)
    (hrun : h.data.state ≠ .running) (env : PmEnv) : PmHistory.Inv ⟨processOp env ⟨h, frame⟩,
      trace ++ (PmMachine.event ⟨h, frame⟩ (env, .process)).toList⟩ := by
  have hmachine : (processOp env ⟨h, frame⟩).Inv := hinv.machine.step (env, .process)
  cases frame with
  | none =>
    rw [show PmMachine.event ⟨h, none⟩ (env, .process) = none from rfl, Option.toList_none,
      List.append_nil]
    exact ⟨hmachine, hinv.hooks, hinv.epoch, hinv.history.enter hrun⟩
  | some f =>
    obtain ⟨epoch, pc⟩ := f
    have hbusy : BusyInv h epoch pc := hinv.machine
    have hkeeps := (processStep_cases env h epoch pc).keeps
    have hfin := hinv.hooks.finalized hrun
    refine ⟨hmachine, ⟨?_, ?_, fun _ => hkeeps.finalized.trans hfin⟩, fun ev hmem => ?_, ?_⟩
    · exact hkeeps.hooks.symm ▸ hinv.hooks.sorted
    · exact hkeeps.hooks.symm ▸ hinv.hooks.length
    · show ev.epoch = (processStep env h epoch pc).1.data.epoch
      rw [hkeeps.epoch]
      rcases List.mem_append.mp hmem with hold | hnew
      · exact hinv.epoch ev hold
      · exact (hookEvent_epoch (Option.mem_toList.mp hnew)).trans hbusy.epoch_eq.symm
    · exact HookPlace.step hinv.history hbusy hfin hinv.hooks.length env

theorem PmHistory.Inv.request (hinv : PmHistory.Inv ⟨⟨h, frame⟩, trace⟩) (env : PmEnv) (op : PmOp)
    (hmachine : PmMachine.Inv ⟨requestOp env h op, frame⟩) :
    PmHistory.Inv ⟨⟨requestOp env h op, frame⟩, if h.data.state = .running then [] else trace⟩ := by
  have hhooks := hinv.hooks.request hinv.machine env op
  by_cases hrun : h.data.state = .running
  · rw [if_pos hrun]
    refine ⟨hmachine, hhooks, nofun, ?_⟩
    obtain rfl : frame = none := hinv.machine.frame_eq_none hrun
    intro hrun' _
    rcases requestOp_running env op hrun with hstays | hstarts
    · exact absurd hstays.state hrun'
    show Recorded (requestOp env h op).data.completedHookMask none []
    rw [hstarts.completed]
    refine ⟨nofun, fun i _ => ⟨?_, fun hs => ?_⟩⟩
    · rintro (hbit | hpend)
      · exact nomatch hbit.symm.trans (bitmapTest_zero i)
      · exact nomatch hpend
    · obtain ⟨_, _, hmem⟩ := hs
      exact nomatch hmem
  · rw [if_neg hrun]
    have hint := requestOp_active env op hrun (hinv.machine.owned.topology hrun)
    refine ⟨hmachine, hhooks, fun ev hmem => ?_,
      hinv.history.interferes hint (hinv.hooks.finalized hrun) hrun⟩
    exact (hinv.epoch ev hmem).trans hint.epoch.symm

theorem PmHistory.Inv.step {x : PmHistory} (hinv : x.Inv) (call : PmEnv × PmOp) :
    (x.step call).Inv := by
  obtain ⟨env, op⟩ := call
  obtain ⟨⟨h, frame⟩, trace⟩ := x
  by_cases hop : op = .process
  · subst hop
    by_cases hrun : h.data.state = .running
    · have hsame := hinv.machine.idle_process env (.inl hrun)
      unfold PmHistory.step
      rw [if_pos hrun, hsame]
      refine ⟨hinv.machine, hinv.hooks, nofun, ?_⟩
      obtain rfl : frame = none := hinv.machine.frame_eq_none hrun
      exact fun hne => absurd hrun hne
    · unfold PmHistory.step
      rw [if_neg hrun]
      exact hinv.process hrun env
  · have hstep : PmHistory.step ⟨⟨h, frame⟩, trace⟩ (env, op) =
        ⟨⟨requestOp env h op, frame⟩, if h.data.state = .running then [] else trace⟩ := by
      cases op with
      | process => exact absurd rfl hop
      | _ => simp [PmHistory.step, PmMachine.step, PmMachine.event]
    have hmachine := hinv.machine.step (env, op)
    rw [hstep]
    refine hinv.request env op ?_
    cases op with
    | process => exact absurd rfl hop
    | _ => exact hmachine

theorem PmHistory.inv_run (tickrate : Nat) (vcpus : Nat → VcpuCount) (calls : List (PmEnv × PmOp)) :
    (Run.exec PmHistory.step (PmHistory.boot tickrate vcpus) calls).Inv := by
  refine Run.inv_always PmHistory.Inv (fun _ call hm => hm.step call) calls ?_
  exact ⟨PmMachine.inv_boot tickrate vcpus, ⟨.nil, Nat.zero_le _, fun hne => absurd rfl hne⟩,
    nofun, fun hne => absurd rfl hne⟩

/-- A transaction ends only where `hv_pm_complete_running` is called. -/
theorem PmMachine.Inv.completes {m : PmMachine} (hinv : m.Inv) {call : PmEnv × PmOp}
    (hactive : m.host.data.state ≠ .running) (hdone : (m.step call).host.data.state = .running) :
    call.2 = .process ∧ ∃ u, m.frame = some (m.host.data.epoch, .complete u) := by
  obtain ⟨env, op⟩ := call
  obtain ⟨h, frame⟩ := m
  by_cases hop : op = .process
  · subst hop
    refine ⟨rfl, ?_⟩
    cases frame with
    | none => exact absurd hdone hactive
    | some f =>
      obtain ⟨epoch, pc⟩ := f
      have hbusy : BusyInv h epoch pc := hinv
      have hnext : (afterStep epoch (processStep env h epoch pc)).Inv := hbusy.step env
      have hdone' : (processStep env h epoch pc).1.data.state = .running := hdone
      have hstep := processStep_cases env h epoch pc
      generalize processStep env h epoch pc = out at *
      cases hstep with
      | go => exact absurd hdone' (BusyInv.not_running hnext)
      | leave => exact absurd hdone' hactive
      | fail now status => exact nomatch (hbusy.failEpoch_state now status).symm.trans hdone'
      | complete _ u => exact ⟨u, by rw [hbusy.epoch_eq]⟩
  · rw [PmMachine.step_of_ne ⟨h, frame⟩ env hop] at hdone
    exact absurd hdone (requestOp_active env op hactive (hinv.owned.topology hactive)).active

/-! ### Unwinding -/

/-- The history with which a step from `x` brings the machine back to `PM_RUNNING`. -/
structure ReturnsUnwound (x : PmHistory) (call : PmEnv × PmOp) : Prop where
  /-- the hooks stand in the order of their priorities, and their bits in one word -/
  sorted : x.machine.host.hooks.Pairwise fun a b => a.priority ≤ b.priority
  length : x.machine.host.hooks.length ≤ hvPmMaxHooks
  /-- every callback was made for the epoch of this transaction -/
  epoch : ∀ ev ∈ (x.step call).trace, ev.epoch = x.machine.host.data.epoch
  /-- the forward callbacks came first and were unwound the way the transaction ended -/
  unwound : ∃ u, x.machine.frame = some (x.machine.host.data.epoch, .complete u) ∧
    HooksUnwound x.machine.host.hooks u.abortPhase (x.step call).trace

/-- **A transaction that returns to `PM_RUNNING` has unwound its hooks.** -/
theorem pm_hook_unwinding (tickrate : Nat) (vcpus : Nat → VcpuCount) (calls : List (PmEnv × PmOp))
    (call : PmEnv × PmOp)
    (hactive : (Run.exec PmHistory.step (PmHistory.boot tickrate vcpus) calls).machine.host.data.state
      ≠ .running) (hdone : ((Run.exec PmHistory.step (PmHistory.boot tickrate vcpus) calls).step
      call).machine.host.data.state = .running) :
    ReturnsUnwound (Run.exec PmHistory.step (PmHistory.boot tickrate vcpus) calls) call := by
  have hinv := PmHistory.inv_run tickrate vcpus calls
  generalize Run.exec PmHistory.step (PmHistory.boot tickrate vcpus) calls = x at *
  obtain ⟨⟨h, frame⟩, trace⟩ := x
  obtain ⟨env, op⟩ := call
  obtain ⟨hop, u, hframe⟩ := hinv.machine.completes hactive hdone
  obtain rfl : op = .process := hop
  obtain rfl : frame = some (h.data.epoch, .complete u) := hframe
  have htrace : (PmHistory.step ⟨⟨h, some (h.data.epoch, .complete u)⟩, trace⟩
      (env, .process)).trace = trace := by
    unfold PmHistory.step
    rw [if_neg hactive]
    exact List.append_nil trace
  refine ⟨hinv.hooks.sorted, hinv.hooks.length, ?_, u, rfl, ?_⟩
  · rw [htrace]
    exact hinv.epoch
  · rw [htrace]
    exact hinv.history

/-- Every VM runs with vCPUs that can be frozen, and every callback succeeds. -/
def calm : PmEnv := ⟨0, 0, true, fun _ => .running, fun _ _ => .running, false, fun _ _ => true⟩

/-- A VM is suspended with these hooks, and an abort comes after they have been prepared. -/
def abortedRun (hooks : List PmOps) : List (PmEnv × PmOp) :=
  hooks.map (fun ops => (calm, .registerHook ops)) ++
    [(calm, .setPolicy ⟨1#64, 1, 1, 2, 1, 1⟩), (calm, .requestVmSuspend 1)] ++
    List.replicate 7 (calm, .process) ++ [(calm, .abort 1 (-4))] ++
    List.replicate 26 (calm, .process)

def oneVcpu : Nat → VcpuCount := fun _ => ⟨1, by decide⟩

theorem pm_hook_unwinding_aborted :
    ReturnsUnwound (Run.exec PmHistory.step (PmHistory.boot 1 oneVcpu)
      (abortedRun [⟨"vgic", 2, true, true, true, true⟩, ⟨"wdt", 1, true, false, true, true⟩]))
      (calm, .process) :=
  pm_hook_unwinding 1 oneVcpu _ _ (by decide +kernel) (by decide +kernel)

/-- The history when a hook was prepared that has no callback to undo it. -/
def unpairedHistory : PmHistory :=
  Run.exec PmHistory.step (PmHistory.boot 1 oneVcpu)
    (abortedRun [⟨"log", 1, true, true, false, false⟩])

/-- Such a hook is left wound up, although the transaction returns to `PM_RUNNING`. -/
theorem pm_hook_without_reverse : unpairedHistory.machine.host.data.state ≠ .running ∧
      (unpairedHistory.step (calm, .process)).machine.host.data.state = .running ∧
      HookEvent.forward 1 0 false 0 ∈ (unpairedHistory.step (calm, .process)).trace ∧
      ∀ ev ∈ (unpairedHistory.step (calm, .process)).trace, ev.isForward = true := by
  decide +kernel

end BeauOs.Pm
