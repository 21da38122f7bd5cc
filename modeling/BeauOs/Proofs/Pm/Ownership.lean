/-
Who owns the guests: a transaction, or the rest of the hypervisor.

The theorem speaks of every state that any interleaving reaches, also between two steps of
`hv_pm_process_from_idle`, so the invariant ties the record of the transaction to the place
the boot pCPU has come to.  Three facts carry it.  The boot pCPU alone ends a transaction, so
while it is inside one the epoch stays and the state is active (`Interferes` is all that the
other pCPUs can do).  A thread is frozen only for the current epoch, in a required VM, and its
bit is published before the next thread is touched; the one exception is the VM whose masks
the boot pCPU still holds.  And the thawing loops go through the published bits in order, so
the threads still frozen are the ones ahead of them.
-/
import BeauOs.Pm.Process
import BeauOs.Lib.Run
import BeauOs.Proofs.Sched.ThreadGates

namespace BeauOs.Pm

/-! ### What a call can do -/

def PmHost.NoneFrozen (h : PmHost) : Prop := ∀ vmid vcpuId, h.freezeEpoch vmid vcpuId = 0

/-- `hv_pm_register_hook` puts `ops` behind the hooks that do not come later. -/
structure Registers (h : PmHost) (ops : PmOps) (hooks : List PmOps) : Prop where
  open_table : h.hooksFinalized = false
  room : h.hooks.length < hvPmMaxHooks
  new : ∀ hook ∈ h.hooks, hook.name ≠ ops.name
  hooks : hooks = h.hooks.rdropWhile (fun hook => decide (hook.priority > ops.priority)) ++
    ops :: h.hooks.rtakeWhile (fun hook => decide (hook.priority > ops.priority))

/-- A call that starts no transaction: it may abort or resume one, but ends none. -/
structure Request (h : PmHost) (op : PmOp) (h' : PmHost) : Prop where
  epoch : h'.data.epoch = h.data.epoch
  required : h'.data.requiredVmMask = h.data.requiredVmMask
  ioGated : h'.data.ioGatedVmMask = h.data.ioGatedVmMask
  completed : h'.data.completedHookMask = h.data.completedHookMask
  topology : h'.data.topologyChangeVmMask = h.data.topologyChangeVmMask ∨
    (∃ vmid, op = .beginVmTopologyChange vmid ∧ h.data.state = .running) ∨
    ∃ vmid, op = .endVmTopologyChange vmid ∧
      h'.data.topologyChangeVmMask = bitmapClear vmid h.data.topologyChangeVmMask
  vm : h'.data.vm = h.data.vm
  vcpus : h.data.topologyChangeVmMask = 0 → h'.vcpus = h.vcpus
  freezeEpoch : h'.freezeEpoch = h.freezeEpoch
  finalized : h.hooksFinalized = true → h'.hooksFinalized = true
  hooks : h'.hooks = h.hooks ∨ ∃ ops, Registers h ops h'.hooks
  scope : h'.data.scope = h.data.scope ∧ h'.data.targetVmid = h.data.targetVmid
  state : h'.data.state = h.data.state ∨
    (h.data.state ≠ .running ∧ h.data.state ≠ .failed ∧ h'.data.state = .aborting) ∨
    (h.data.state = .suspended ∧ h'.data.state = .restoringHost)

structure Starts (h h' : PmHost) : Prop where
  running : h.data.state = .running
  state : h'.data.state = .preparing
  free : h.data.topologyChangeVmMask = 0
  topology : h'.data.topologyChangeVmMask = 0
  ioGated : h'.data.ioGatedVmMask = h'.data.requiredVmMask
  freezeEpoch : h'.freezeEpoch = h.freezeEpoch
  completed : h'.data.completedHookMask = 0
  finalized : h'.hooksFinalized = true
  hooks : h'.hooks = h.hooks

variable {h h' : PmHost} {pc : Pc} {m : PmMachine} {op : PmOp} (env : PmEnv)

theorem Request.refl (h : PmHost) (op : PmOp) : Request h op h :=
  ⟨rfl, rfl, rfl, rfl, .inl rfl, rfl, fun _ => rfl, rfl, id, .inl rfl, ⟨rfl, rfl⟩, .inl rfl⟩

theorem Request.finalize (h : PmHost) (op : PmOp) : Request h op { h with hooksFinalized := true } :=
  { Request.refl h op with finalized := fun _ => rfl }

theorem hvPmRequestSuspend_cases (h : PmHost) (op : PmOp) (initiatorVmid : Nat) :
    Request h op (hvPmRequestSuspend env initiatorVmid h).1 ∨
      Starts h (hvPmRequestSuspend env initiatorVmid h).1 := by
  simp only [hvPmRequestSuspend]
  split
  · exact .inl (.finalize h op)
  split
  · exact .inl (.finalize h op)
  split
  · exact .inl (.finalize h op)
  next hrun =>
  split
  · exact .inl (.finalize h op)
  next htop =>
  split
  · exact .inl (.finalize h op)
  split
  · exact .inl (.finalize h op)
  · exact .inr ⟨not_not.mp hrun, rfl, not_not.mp htop, not_not.mp htop, rfl, rfl, rfl, rfl, rfl⟩

theorem hvPmRequestVmSuspend_cases (h : PmHost) (op : PmOp) (vmid : Nat) :
    Request h op (hvPmRequestVmSuspend env vmid h).1 ∨
      Starts h (hvPmRequestVmSuspend env vmid h).1 := by
  simp only [hvPmRequestVmSuspend]
  split
  · exact .inl (.refl h op)
  split
  · exact .inl (.finalize h op)
  split
  · exact .inl (.finalize h op)
  next hrun =>
  split
  · exact .inl (.finalize h op)
  next htop =>
  split
  · exact .inl (.finalize h op)
  · exact .inr ⟨not_not.mp hrun, rfl, not_not.mp htop, not_not.mp htop, rfl, rfl, rfl, rfl, rfl⟩

/-- **What a call can do**: it starts a transaction, or does to one no more than `Request` says. -/
theorem requestOp_cases (h : PmHost) (op : PmOp) :
    Request h op (requestOp env h op) ∨ Starts h (requestOp env h op) := by
  have hrefl := Request.refl h op
  cases op with
  | requestSuspend initiatorVmid => exact hvPmRequestSuspend_cases env h _ initiatorVmid
  | requestVmSuspend vmid => exact hvPmRequestVmSuspend_cases env h _ vmid
  | setPolicy _ | recordWake _ _ =>
    refine .inl ?_
    simp only [requestOp, hvPmSetPolicy, hvPmRecordWake]
    split
    · exact hrefl
    split
    · exact hrefl
    · exact { hrefl with }
  | requestVmResume =>
    refine .inl ?_
    simp only [requestOp, hvPmRequestVmResume]
    split
    · exact hrefl
    split
    · exact hrefl
    split
    · exact hrefl
    · next hsusp =>
      exact { hrefl with state := .inr (.inr ⟨not_not.mp hsusp, rfl⟩) }
  | abort =>
    refine .inl ?_
    simp only [requestOp, hvPmAbort]
    split
    · exact hrefl
    · next hok =>
      split
      · exact { hrefl with state := .inr (.inl
          ⟨fun hr => hok (by simp [hr]), fun hf => hok (by simp [hf]), rfl⟩) }
      · exact hrefl
  | beginVmTopologyChange vmid =>
    refine .inl ?_
    simp only [requestOp, hvPmBeginVmTopologyChange]
    split
    · exact hrefl
    split
    · exact hrefl
    · next hfree =>
      have hrun : h.data.state = .running := not_not.mp fun hne => hfree (.inl hne)
      exact { hrefl with topology := .inr (.inl ⟨vmid, rfl, hrun⟩) }
  | endVmTopologyChange vmid =>
    refine .inl ?_
    simp only [requestOp, hvPmEndVmTopologyChange]
    split
    · exact hrefl
    · exact { hrefl with topology := .inr (.inr ⟨vmid, rfl, rfl⟩) }
  | changeVcpus vmid =>
    refine .inl ?_
    simp only [requestOp]
    split
    · next hbit =>
      refine { hrefl with vcpus := fun htop => ?_ }
      rw [htop] at hbit
      exact nomatch hbit.symm.trans (bitmapTest_zero vmid)
    · exact hrefl
  | registerHook ops =>
    refine .inl ?_
    simp only [requestOp, hvPmRegisterHook]
    split
    · exact hrefl
    split
    · exact hrefl
    next hopen =>
    split
    · exact hrefl
    next hroom =>
    split
    · exact hrefl
    · next hnew =>
      refine { hrefl with
        finalized := id
        hooks := .inr ⟨ops, Bool.eq_false_iff.mpr hopen, Nat.not_le.mp hroom, fun hook hin hname =>
          hnew (List.any_eq_true.mpr ⟨hook, hin, decide_eq_true hname⟩), rfl⟩ }
  | finalizeHooks => exact .inl (.finalize h _)
  | process => exact .inl hrefl

/-! ### Calls of the other pCPUs during a transaction -/

/-- The part of the record that only the boot pCPU writes while a transaction is active. -/
structure Interferes (h h' : PmHost) : Prop where
  epoch : h'.data.epoch = h.data.epoch
  required : h'.data.requiredVmMask = h.data.requiredVmMask
  ioGated : h'.data.ioGatedVmMask = h.data.ioGatedVmMask
  completed : h'.data.completedHookMask = h.data.completedHookMask
  topology : h'.data.topologyChangeVmMask = 0
  vm : h'.data.vm = h.data.vm
  vcpus : h'.vcpus = h.vcpus
  freezeEpoch : h'.freezeEpoch = h.freezeEpoch
  hooks : h.hooksFinalized = true → h'.hooksFinalized = true ∧ h'.hooks = h.hooks
  scope : h'.data.scope = h.data.scope ∧ h'.data.targetVmid = h.data.targetVmid
  active : h'.data.state ≠ .running
  failed : h'.data.state = .failed ↔ h.data.state = .failed
  preparing : h'.data.state = .preparing → h.data.state = .preparing

/-- While a transaction is active no call of another pCPU ends it or touches the guests. -/
theorem requestOp_active (op : PmOp) (hstate : h.data.state ≠ .running)
    (htop : h.data.topologyChangeVmMask = 0) : Interferes h (requestOp env h op) := by
  have hreq := (requestOp_cases env h op).resolve_right fun hstarts => hstate hstarts.running
  have htop' : (requestOp env h op).data.topologyChangeVmMask = 0 := by
    rcases hreq.topology with heq | ⟨-, -, hrun⟩ | ⟨vmid, -, heq⟩
    · exact heq.trans htop
    · exact absurd hrun hstate
    · rw [heq, htop]
      exact bitmapClear_zero vmid
  have hhooks : h.hooksFinalized = true → (requestOp env h op).hooks = h.hooks := by
    refine fun hfin => hreq.hooks.resolve_right ?_
    rintro ⟨ops, hregs⟩
    exact nomatch hfin.symm.trans hregs.open_table
  refine ⟨hreq.epoch, hreq.required, hreq.ioGated, hreq.completed, htop', hreq.vm, hreq.vcpus htop,
    hreq.freezeEpoch, fun hfin => ⟨hreq.finalized hfin, hhooks hfin⟩, hreq.scope, ?_, ?_, ?_⟩
  all_goals rcases hreq.state with heq | ⟨-, hfail, heq⟩ | ⟨hsusp, heq⟩ <;> rw [heq]
  · exact hstate
  · decide
  · decide
  · exact iff_of_false (by decide) hfail
  · rw [hsusp]
    decide
  · exact id
  · exact nofun
  · exact nofun

/-! ### Calls while no transaction is active -/

structure StaysRunning (h h' : PmHost) : Prop where
  state : h'.data.state = .running
  ioGated : h'.data.ioGatedVmMask = h.data.ioGatedVmMask
  freezeEpoch : h'.freezeEpoch = h.freezeEpoch

theorem requestOp_running (op : PmOp) (hstate : h.data.state = .running) :
    StaysRunning h (requestOp env h op) ∨ Starts h (requestOp env h op) := by
  refine (requestOp_cases env h op).imp_left fun hreq => ⟨?_, hreq.ioGated, hreq.freezeEpoch⟩
  rcases hreq.state with heq | ⟨hne, -, -⟩ | ⟨hsusp, -⟩
  · exact heq.trans hstate
  · exact absurd hstate hne
  · exact nomatch hstate.symm.trans hsusp

/-! ### The invariant -/

/-- The VM whose new mask the boot pCPU holds and has not published yet. -/
def Pc.publishing : Pc → Option Nat
  | .gatePublish _ _ vmid _ _ => some vmid
  | _ => none

/-- The gates of the VMs are open again. -/
def Pc.ungated : Pc → Bool
  | .complete _ => true
  | _ => false

/-- What is known of the guests and the local variables at a place. -/
def PlaceInv (h : PmHost) : Pc → Prop
  | .forwardStart suspendPhase | .forward suspendPhase _ _ | .hookDone suspendPhase _ _
  | .phaseEnd suspendPhase _ => suspendPhase = false → h.NoneFrozen
  | .setFreezing | .freezeStart => h.NoneFrozen
  | .gateVm _ required vmid =>
    required = h.data.requiredVmMask ∧ ∀ v c, h.freezeEpoch v c ≠ 0 → v < vmid
  | .gateRecord _ required vmid =>
    required = h.data.requiredVmMask ∧ vmid < configMaxVmNum ∧ bitmapTest vmid required = true ∧
      ∀ v c, h.freezeEpoch v c ≠ 0 → v < vmid
  | .gateVcpu _ required vmid _ masks | .gatePublish _ required vmid _ masks =>
    required = h.data.requiredVmMask ∧ vmid < configMaxVmNum ∧ bitmapTest vmid required = true ∧
      ∀ v c, h.freezeEpoch v c ≠ 0 → v < vmid ∨ v = vmid ∧ bitmapTest c masks.gated = true
  | .pollVm _ snapshot _ _ =>
    ∀ v, (snapshot.vm v).gatedVcpuMask = (h.data.vm v).gatedVcpuMask
  | .scopeCheck => h.data.state ≠ .preparing
  | .thawVcpu _ snapshot vmid vcpuId =>
    snapshot.requiredVmMask = h.data.requiredVmMask ∧
      (∀ v, (snapshot.vm v).gatedVcpuMask = (h.data.vm v).gatedVcpuMask) ∧
      ∀ v c, h.freezeEpoch v c ≠ 0 → vmid < v ∨ v = vmid ∧ vcpuId ≤ c
  | .ungate _ required => required = h.data.requiredVmMask ∧ h.NoneFrozen
  | .complete _ => h.NoneFrozen
  | _ => True

/-- A frozen thread belongs to the transaction, and its bit is on record. -/
structure FrozenOk (h : PmHost) (publishing : Option Nat) (vmid vcpuId : Nat) : Prop where
  epoch : h.freezeEpoch vmid vcpuId = h.data.epoch
  vm_lt : vmid < configMaxVmNum
  required : bitmapTest vmid h.data.requiredVmMask = true
  ioGated : bitmapTest vmid h.data.ioGatedVmMask = true
  vcpu_lt : vcpuId < (h.vcpus vmid).val
  gated : bitmapTest vcpuId (h.data.vm vmid).gatedVcpuMask = true ∨ publishing = some vmid

/-- The boot pCPU is outside `hv_pm_process_from_idle`. -/
structure IdleInv (h : PmHost) : Prop where
  frozen : ∀ v c, h.freezeEpoch v c ≠ 0 → FrozenOk h none v c
  running : h.data.state = .running → h.data.ioGatedVmMask = 0 ∧ h.NoneFrozen
  preparing : h.data.state = .preparing → h.NoneFrozen
  topology : h.data.state ≠ .running → h.data.topologyChangeVmMask = 0
  gated : h.data.state ≠ .running → h.data.ioGatedVmMask = h.data.requiredVmMask

/-- The boot pCPU is at `pc` for an epoch. -/
structure BusyInv (h : PmHost) (epoch : Nat) (pc : Pc) : Prop where
  frozen : ∀ v c, h.freezeEpoch v c ≠ 0 → FrozenOk h pc.publishing v c
  epoch_eq : h.data.epoch = epoch
  not_running : h.data.state ≠ .running
  not_failed : h.data.state ≠ .failed
  topology : h.data.topologyChangeVmMask = 0
  gated : pc.ungated = false → h.data.ioGatedVmMask = h.data.requiredVmMask
  place : PlaceInv h pc

def PmMachine.Inv (m : PmMachine) : Prop :=
  match m.frame with
  | none => IdleInv m.host
  | some (epoch, pc) => BusyInv m.host epoch pc

/-! ### Steps that leave the guests alone -/

/-- Everything the invariant says about guests is the same. -/
structure SameGuests (h h' : PmHost) : Prop where
  epoch : h'.data.epoch = h.data.epoch
  required : h'.data.requiredVmMask = h.data.requiredVmMask
  ioGated : h'.data.ioGatedVmMask = h.data.ioGatedVmMask
  topology : h'.data.topologyChangeVmMask = h.data.topologyChangeVmMask
  gated : ∀ v, (h'.data.vm v).gatedVcpuMask = (h.data.vm v).gatedVcpuMask
  vcpus : h'.vcpus = h.vcpus
  freezeEpoch : h'.freezeEpoch = h.freezeEpoch

theorem SameGuests.refl (h : PmHost) : SameGuests h h :=
  ⟨rfl, rfl, rfl, rfl, fun _ => rfl, rfl, rfl⟩

theorem Interferes.sameGuests (hint : Interferes h h') (htop : h.data.topologyChangeVmMask = 0) :
    SameGuests h h' :=
  ⟨hint.epoch, hint.required, hint.ioGated, hint.topology.trans htop.symm,
    fun v => by rw [hint.vm], hint.vcpus, hint.freezeEpoch⟩

theorem FrozenOk.congr (hsame : SameGuests h h') {publishing : Option Nat} {v c : Nat}
    (hok : FrozenOk h publishing v c) : FrozenOk h' publishing v c where
  epoch := by rw [hsame.freezeEpoch, hsame.epoch]; exact hok.epoch
  vm_lt := hok.vm_lt
  required := by rw [hsame.required]; exact hok.required
  ioGated := by rw [hsame.ioGated]; exact hok.ioGated
  vcpu_lt := by rw [hsame.vcpus]; exact hok.vcpu_lt
  gated := by rw [hsame.gated]; exact hok.gated

theorem PlaceInv.congr (hsame : SameGuests h h')
    (hstate : h.data.state ≠ .preparing → h'.data.state ≠ .preparing) (hplace : PlaceInv h pc) :
    PlaceInv h' pc := by
  cases pc with
  | scopeCheck => exact hstate hplace
  | _ =>
    refine cast ?_ hplace
    simp only [PlaceInv, PmHost.NoneFrozen, hsame.required, hsame.freezeEpoch, hsame.gated]

variable {epoch : Nat}

theorem BusyInv.interferes (hinv : BusyInv h epoch pc) (hint : Interferes h h') :
    BusyInv h' epoch pc := by
  have hsame := hint.sameGuests hinv.topology
  refine ⟨?_, hsame.epoch.trans hinv.epoch_eq, hint.active, mt hint.failed.mp hinv.not_failed,
    hint.topology, ?_, hinv.place.congr hsame (mt hint.preparing)⟩
  · intro v c hfrozen
    rw [hsame.freezeEpoch] at hfrozen
    exact (hinv.frozen v c hfrozen).congr hsame
  · intro hung
    rw [hsame.ioGated, hsame.required]
    exact hinv.gated hung

theorem IdleInv.interferes (hinv : IdleInv h) (hstate : h.data.state ≠ .running)
    (hint : Interferes h h') : IdleInv h' := by
  have hsame := hint.sameGuests (hinv.topology hstate)
  refine ⟨?_, fun hrun => absurd hrun hint.active, ?_, fun _ => hint.topology, fun _ => ?_⟩
  · intro v c hfrozen
    rw [hsame.freezeEpoch] at hfrozen
    exact (hinv.frozen v c hfrozen).congr hsame
  · intro hprep v c
    rw [hsame.freezeEpoch]
    exact hinv.preparing (hint.preparing hprep) v c
  · rw [hsame.ioGated, hsame.required]
    exact hinv.gated hstate

/-- A call of any pCPU outside the transaction's own code. -/
theorem IdleInv.request (hinv : IdleInv h) (env : PmEnv) (op : PmOp) :
    IdleInv (requestOp env h op) := by
  by_cases hstate : h.data.state = .running
  · obtain ⟨hgated, hnone⟩ := hinv.running hstate
    have hkeep : ∀ {h' : PmHost}, h'.freezeEpoch = h.freezeEpoch → h'.NoneFrozen := by
      intro h' heq v c
      rw [heq]
      exact hnone v c
    rcases requestOp_running env op hstate with hstays | hstarts
    · have hnone' := hkeep hstays.freezeEpoch
      exact ⟨fun v c hfrozen => absurd (hnone' v c) hfrozen,
        fun _ => ⟨hstays.ioGated.trans hgated, hnone'⟩, fun _ => hnone',
        fun hne => absurd hstays.state hne, fun hne => absurd hstays.state hne⟩
    · have hnone' := hkeep hstarts.freezeEpoch
      refine ⟨fun v c hfrozen => absurd (hnone' v c) hfrozen, fun hrun => ?_, fun _ => hnone',
        fun _ => hstarts.topology, fun _ => hstarts.ioGated⟩
      rw [hstarts.state] at hrun
      exact nomatch hrun
  · exact hinv.interferes hstate (requestOp_active env op hstate (hinv.topology hstate))

/-! ### The steps of the boot pCPU -/

section Steps

variable {h h' : PmHost} {epoch : Nat} {pc pc' : Pc}

section

variable (hinv : BusyInv h epoch pc)

include hinv

theorem BusyInv.move (hsame : SameGuests h h') (hrun : h'.data.state ≠ .running)
    (hfail : h'.data.state ≠ .failed) (hpub : pc.publishing = none) (hung : pc.ungated = false)
    (hplace : PlaceInv h' pc') : BusyInv h' epoch pc' := by
  refine ⟨?_, hsame.epoch.trans hinv.epoch_eq, hrun, hfail, hsame.topology.trans hinv.topology,
    fun _ => ?_, hplace⟩
  · intro v c hfrozen
    rw [hsame.freezeEpoch] at hfrozen
    have hok := (hinv.frozen v c hfrozen).congr hsame
    rw [hpub] at hok
    exact { hok with gated := .inl (hok.gated.resolve_right nofun) }
  · rw [hsame.ioGated, hsame.required]
    exact hinv.gated hung

theorem BusyInv.goto (hpub : pc.publishing = none) (hung : pc.ungated = false)
    (hplace : PlaceInv h pc') : BusyInv h epoch pc' :=
  hinv.move (.refl h) hinv.not_running hinv.not_failed hpub hung hplace

theorem BusyInv.gotoIte (hpub : pc.publishing = none) (hung : pc.ungated = false) {c : Prop}
    [Decidable c] {pc₁ pc₂ : Pc} (h₁ : PlaceInv h pc₁) (h₂ : PlaceInv h pc₂) :
    BusyInv h epoch (if c then pc₁ else pc₂) := by
  split
  · exact hinv.goto hpub hung h₁
  · exact hinv.goto hpub hung h₂

end

theorem SameGuests.transition (h : PmHost) (now : Nat) (next : PmState) :
    SameGuests h { h with data := h.data.transition now next } :=
  ⟨rfl, rfl, rfl, rfl, fun _ => rfl, rfl, rfl⟩

theorem SameGuests.updVm (h : PmHost) (vmid : Nat) {f : VmPmRecord → VmPmRecord}
    (hf : ∀ record, (f record).gatedVcpuMask = record.gatedVcpuMask) :
    SameGuests h { h with data := h.data.updVm vmid f } := by
  refine ⟨rfl, rfl, rfl, rfl, fun v => ?_, rfl, rfl⟩
  by_cases hv : v = vmid
  · subst hv
    simp [PmSnapshot.updVm, hf]
  · simp [PmSnapshot.updVm, Function.update_of_ne hv]

/-- `hv_pm_set_epoch_state` either leaves the record or moves to `next`. -/
theorem BusyInv.setEpochState (hinv : BusyInv h epoch pc) (env : PmEnv) {expected next : PmState}
    (hrun : next ≠ .running) (hfail : next ≠ .failed) (hpub : pc.publishing = none)
    (hung : pc.ungated = false) {failed : Int → Pc} (hfailed : ∀ status, PlaceInv h (failed status))
    (hdone : PlaceInv { h with data := h.data.transition env.now next } pc') :
    BusyInv { h with data := (hvPmSetEpochState env.now epoch expected next h.data).1 } epoch
      (if (hvPmSetEpochState env.now epoch expected next h.data).2 ≠ 0 then
        failed (hvPmSetEpochState env.now epoch expected next h.data).2 else pc') := by
  unfold hvPmSetEpochState
  split
  · rw [if_pos (show -eInval ≠ 0 by decide)]
    exact hinv.goto hpub hung (hfailed _)
  · rw [if_neg (not_not.mpr rfl)]
    exact hinv.move (.transition h env.now next) hrun hfail hpub hung hdone

/-- The boot pCPU leaves an active transaction as it is. -/
theorem BusyInv.leave (hinv : BusyInv h epoch pc) (hpub : pc.publishing = none)
    (hung : pc.ungated = false) (hstate : h.data.state ≠ .preparing) : IdleInv h where
  frozen v c hfrozen := by
    have hok := hinv.frozen v c hfrozen
    rw [hpub] at hok
    exact hok
  running hrun := absurd hrun hinv.not_running
  preparing hprep := absurd hprep hstate
  topology _ := hinv.topology
  gated _ := hinv.gated hung

theorem BusyInv.failEpoch {status : Int} (hinv : BusyInv h epoch (.failEpoch status)) (now : Nat) :
    IdleInv { h with data := hvPmFailEpoch now epoch status h.data } := by
  rw [hvPmFailEpoch, if_pos ⟨hinv.epoch_eq, hinv.not_running⟩]
  refine ⟨fun v c hfrozen => ?_, nofun, nofun, fun _ => hinv.topology, fun _ => hinv.gated rfl⟩
  have hok := hinv.frozen v c hfrozen
  exact ⟨hok.epoch, hok.vm_lt, hok.required, hok.ioGated, hok.vcpu_lt, hok.gated⟩

variable {vmid vcpuId start : Nat} {u : Unwind} {required : BitVec 64} {masks : VcpuMasks}

theorem BusyInv.complete (hinv : BusyInv h epoch (.complete u)) (now : Nat) :
    IdleInv { h with data := hvPmCompleteRunning now epoch u.lastStatus h.data } := by
  rw [hvPmCompleteRunning, if_pos ⟨hinv.epoch_eq, hinv.not_failed⟩]
  have hnone : h.NoneFrozen := hinv.place
  exact ⟨fun v c hfrozen => absurd (hnone v c) hfrozen, fun _ => ⟨rfl, hnone⟩, nofun,
    fun hne => absurd rfl hne, fun hne => absurd rfl hne⟩

/-! #### Freezing -/

theorem setFreezeEpoch_self (h : PmHost) (vmid vcpuId e : Nat) :
    (h.setFreezeEpoch vmid vcpuId e).freezeEpoch vmid vcpuId = e := by
  simp [PmHost.setFreezeEpoch]

theorem setFreezeEpoch_other (h : PmHost) {v c : Nat} (e : Nat) (hne : ¬ (v = vmid ∧ c = vcpuId)) :
    (h.setFreezeEpoch vmid vcpuId e).freezeEpoch v c = h.freezeEpoch v c := by
  by_cases hv : v = vmid
  · subst hv
    have hc : c ≠ vcpuId := fun hc => hne ⟨rfl, hc⟩
    simp [PmHost.setFreezeEpoch, Function.update_of_ne hc]
  · simp [PmHost.setFreezeEpoch, Function.update_of_ne hv]

/-- What is on record about a thread does not depend on the freeze epochs of the others. -/
theorem FrozenOk.setFreezeEpoch {publishing : Option Nat} {v c e : Nat}
    (hok : FrozenOk h publishing v c)
    (hsame : (h.setFreezeEpoch vmid vcpuId e).freezeEpoch v c = h.freezeEpoch v c) :
    FrozenOk (h.setFreezeEpoch vmid vcpuId e) publishing v c :=
  ⟨hsame.trans hok.epoch, hok.vm_lt, hok.required, hok.ioGated, hok.vcpu_lt, hok.gated⟩

/-- The thread is frozen; its bit stands in the mask the boot pCPU is about to publish. -/
theorem BusyInv.freeze {e : Nat} {masks' : VcpuMasks}
    (hinv : BusyInv h epoch (.gateVcpu start required vmid vcpuId masks))
    (hlt : vcpuId < (h.vcpus vmid).val)
    (he : freezeThread epoch (h.freezeEpoch vmid vcpuId) = some e)
    (hmasks : masks'.gated = bitmapSet vcpuId masks.gated) :
    BusyInv (h.setFreezeEpoch vmid vcpuId e) epoch
      (.gatePublish start required vmid vcpuId masks') := by
  obtain ⟨hreq, hvm, hbit, hahead⟩ := hinv.place
  have hbit' : bitmapTest vmid h.data.requiredVmMask = true := hreq ▸ hbit
  have he' : e = epoch := by
    unfold freezeThread at he
    split at he
    · exact (Option.some.inj he).symm
    · exact nomatch he
  subst he'
  refine ⟨fun v c hfrozen => ?_, hinv.epoch_eq, hinv.not_running, hinv.not_failed, hinv.topology,
    fun _ => hinv.gated rfl, hreq, hvm, hbit, fun v c hfrozen => ?_⟩
  · by_cases hvc : v = vmid ∧ c = vcpuId
    · obtain ⟨rfl, rfl⟩ := hvc
      refine ⟨(setFreezeEpoch_self h v c e).trans hinv.epoch_eq.symm, hvm, hbit', ?_, hlt, .inr rfl⟩
      exact (congrArg (bitmapTest v) (hinv.gated rfl)).trans hbit'
    · have hsame := setFreezeEpoch_other h e hvc
      rw [hsame] at hfrozen
      have hok := hinv.frozen v c hfrozen
      have hok' : FrozenOk h (some vmid) v c :=
        { hok with gated := .inl (hok.gated.resolve_right nofun) }
      exact hok'.setFreezeEpoch hsame
  · rw [hmasks]
    by_cases hvc : v = vmid ∧ c = vcpuId
    · obtain ⟨rfl, rfl⟩ := hvc
      exact .inr ⟨rfl, bitmapTest_set c masks.gated⟩
    · rw [setFreezeEpoch_other h e hvc] at hfrozen
      exact (hahead v c hfrozen).imp_right fun hc => ⟨hc.1, bitmapTest_set_of_test hc.2 vcpuId⟩

theorem BusyInv.gateVcpu (hinv : BusyInv h epoch (.gateVcpu start required vmid vcpuId masks))
    (env : PmEnv) : BusyInv (gateVcpuStep env h epoch start required vmid vcpuId masks).1 epoch
      (gateVcpuStep env h epoch start required vmid vcpuId masks).2 := by
  unfold gateVcpuStep
  split
  · next hlt =>
    split
    · exact hinv.goto rfl rfl hinv.place
    · exact hinv.goto rfl rfl nofun
    · split
      · exact hinv.goto rfl rfl nofun
      · next he => exact hinv.freeze hlt he rfl
  · next hend =>
    -- every frozen thread of this VM is published by now
    obtain ⟨hreq, -, -, hahead⟩ := hinv.place
    refine hinv.goto rfl rfl ⟨hreq, fun v c hfrozen => ?_⟩
    rcases hahead v c hfrozen with hlt | ⟨rfl, -⟩
    · exact Nat.lt_succ_of_lt hlt
    · exact Nat.lt_succ_self v

theorem publish_gated (d : PmSnapshot) (hvm : vmid < configMaxVmNum) (masks : VcpuMasks)
    (frozen : BitVec 64) (v : Nat) :
    ((hvPmPublishVcpuMasks d.epoch vmid masks frozen d).vm v).gatedVcpuMask =
      if v = vmid then masks.gated else (d.vm v).gatedVcpuMask := by
  rw [hvPmPublishVcpuMasks, if_pos ⟨rfl, hvm⟩]
  by_cases hv : v = vmid
  · subst hv
    simp [PmSnapshot.updVm]
  · simp [PmSnapshot.updVm, hv]

/-- Publishing writes one record and nothing else. -/
theorem publish_frame (epoch vmid : Nat) (masks : VcpuMasks) (frozen : BitVec 64) (d : PmSnapshot) :
    ∃ vm, hvPmPublishVcpuMasks epoch vmid masks frozen d = { d with vm := vm } := by
  unfold hvPmPublishVcpuMasks
  split
  · exact ⟨_, rfl⟩
  · exact ⟨d.vm, rfl⟩

theorem BusyInv.publish {masks' : VcpuMasks}
    (hinv : BusyInv h epoch (.gatePublish start required vmid vcpuId masks))
    (hmasks : masks'.gated = masks.gated) :
    BusyInv { h with data := hvPmPublishVcpuMasks epoch vmid masks' 0 h.data } epoch
      (.gateVcpu start required vmid (vcpuId + 1) masks') := by
  obtain ⟨hreq, hvm, hbit, hahead⟩ := hinv.place
  obtain ⟨vm, hpub⟩ := publish_frame epoch vmid masks' 0 h.data
  have hgated : ∀ v, (vm v).gatedVcpuMask =
      if v = vmid then masks.gated else (h.data.vm v).gatedVcpuMask := by
    intro v
    have hrec := publish_gated h.data hvm masks' 0 v
    rw [hinv.epoch_eq, hpub, hmasks] at hrec
    exact hrec
  rw [hpub]
  refine ⟨fun v c hfrozen => ?_, hinv.epoch_eq, hinv.not_running, hinv.not_failed, hinv.topology,
    fun _ => hinv.gated rfl, hreq, hvm, hbit, fun v c hfrozen => ?_⟩
  · have hok := hinv.frozen v c hfrozen
    refine ⟨hok.epoch, hok.vm_lt, hok.required, hok.ioGated, hok.vcpu_lt, .inl ?_⟩
    show bitmapTest c (vm v).gatedVcpuMask = true
    rw [hgated]
    by_cases hv : v = vmid
    · rw [if_pos hv]
      rcases hahead v c hfrozen with hlt | ⟨-, hc⟩
      · exact absurd hv (Nat.ne_of_lt hlt)
      · exact hc
    · rw [if_neg hv]
      exact hok.gated.resolve_right fun hpub => hv (Option.some.inj hpub).symm
  · rw [hmasks]
    exact hahead v c hfrozen

theorem recordPoll_frame (epoch vmid : Nat) (record : VmPmRecord) (frozen : BitVec 64)
    (d : PmSnapshot) : ∃ vm, recordPoll epoch vmid record frozen d = { d with vm := vm } := by
  obtain ⟨vm, hpub⟩ := publish_frame epoch vmid
    ⟨record.gatedVcpuMask, record.activeVcpuMask, record.wakeOwnedVcpuMask⟩ frozen d
  simp only [recordPoll, hpub]
  split
  · exact ⟨_, rfl⟩
  · exact ⟨vm, rfl⟩

theorem recordPoll_sameGuests (hvm : vmid < configMaxVmNum) {record : VmPmRecord}
    (hrec : record.gatedVcpuMask = (h.data.vm vmid).gatedVcpuMask) (frozen : BitVec 64) :
    SameGuests h { h with data := recordPoll h.data.epoch vmid record frozen h.data } := by
  unfold recordPoll
  obtain ⟨vm, hpub⟩ := publish_frame h.data.epoch vmid
    ⟨record.gatedVcpuMask, record.activeVcpuMask, record.wakeOwnedVcpuMask⟩ frozen h.data
  have hgated : ∀ v, (vm v).gatedVcpuMask = (h.data.vm v).gatedVcpuMask := by
    intro v
    have hv := publish_gated h.data hvm
      ⟨record.gatedVcpuMask, record.activeVcpuMask, record.wakeOwnedVcpuMask⟩ frozen v
    rw [hpub, hrec] at hv
    refine hv.trans ?_
    split
    · next heq => rw [heq]
    · rfl
  simp only [hpub]
  split
  · refine ⟨rfl, rfl, rfl, rfl, fun v => ?_, rfl, rfl⟩
    by_cases hv : v = vmid
    · subst hv
      simp [PmSnapshot.updVm, hgated]
    · simp [PmSnapshot.updVm, Function.update_of_ne hv, hgated]
  · exact ⟨rfl, rfl, rfl, rfl, hgated, rfl, rfl⟩

/-- A polling round writes the gated masks back that it has read. -/
theorem BusyInv.pollVm {snapshot : PmSnapshot} {allFrozen : Bool}
    (hinv : BusyInv h epoch (.pollVm start snapshot vmid allFrozen)) (env : PmEnv) :
    BusyInv (pollVmStep env h epoch start snapshot vmid allFrozen).1 epoch
      (pollVmStep env h epoch start snapshot vmid allFrozen).2 := by
  have hgated : ∀ v, (snapshot.vm v).gatedVcpuMask = (h.data.vm v).gatedVcpuMask := hinv.place
  unfold pollVmStep
  split
  · next hvm =>
    split
    · have hsame := recordPoll_sameGuests hvm (hgated vmid)
        (frozenMask env h epoch vmid (snapshot.vm vmid).gatedVcpuMask)
      obtain ⟨vm, hrec⟩ := recordPoll_frame epoch vmid (snapshot.vm vmid)
        (frozenMask env h epoch vmid (snapshot.vm vmid).gatedVcpuMask) h.data
      rw [hinv.epoch_eq, hrec] at hsame
      dsimp only
      rw [hrec]
      exact hinv.move hsame hinv.not_running hinv.not_failed rfl rfl
        fun v => (hgated v).trans (hsame.gated v).symm
    · exact hinv.goto rfl rfl hgated
  · split
    · exact hinv.goto rfl rfl nofun
    split
    · exact hinv.goto rfl rfl nofun
    · exact hinv.goto rfl rfl trivial

/-! #### Thawing -/

theorem BusyInv.thawVcpu {snapshot : PmSnapshot}
    (hinv : BusyInv h epoch (.thawVcpu u snapshot vmid vcpuId)) :
    BusyInv (thawVcpuStep h epoch u snapshot vmid vcpuId).1 epoch
      (thawVcpuStep h epoch u snapshot vmid vcpuId).2 := by
  obtain ⟨hreq, hgated, hahead⟩ := hinv.place
  have hfrozen : ∀ v c, h.freezeEpoch v c ≠ 0 → bitmapTest v snapshot.requiredVmMask = true ∧
      bitmapTest c (snapshot.vm v).gatedVcpuMask = true ∧ c < (h.vcpus v).val := by
    intro v c hne
    have hok := hinv.frozen v c hne
    rw [hreq, hgated]
    exact ⟨hok.required, hok.gated.resolve_right nofun, hok.vcpu_lt⟩
  -- once nothing of this VM is frozen the loop goes on with the next one
  have hnext : (∀ c, h.freezeEpoch vmid c ≠ 0 → vcpuId ≤ c → False) →
      ∀ v c, h.freezeEpoch v c ≠ 0 → vmid + 1 < v ∨ v = vmid + 1 ∧ 0 ≤ c := by
    intro hnone v c hne
    rcases hahead v c hne with hlt | ⟨rfl, hle⟩
    · omega
    · exact (hnone c hne hle).elim
  unfold thawVcpuStep
  split
  · split
    · next hskip =>
      refine hinv.goto rfl rfl ⟨hreq, hgated, hnext fun c hne _ => ?_⟩
      rw [(hfrozen vmid c hne).1] at hskip
      exact nomatch hskip
    split
    · split
      · next hskip =>
        refine hinv.goto rfl rfl ⟨hreq, hgated, fun v c hne => ?_⟩
        rcases hahead v c hne with hlt | ⟨rfl, hle⟩
        · exact .inl hlt
        · refine .inr ⟨rfl, Nat.lt_of_le_of_ne hle fun heq => ?_⟩
          rw [heq, (hfrozen v c hne).2.1] at hskip
          exact nomatch hskip
      · split
        · exact hinv.goto rfl rfl trivial
        · next thawed hthaw =>
          have hzero : thawed = 0 := by
            unfold thawThread at hthaw
            split at hthaw
            · exact (Option.some.inj hthaw).symm
            · exact nomatch hthaw
          subst hzero
          have hkeep : ∀ v c, (h.setFreezeEpoch vmid vcpuId 0).freezeEpoch v c ≠ 0 →
              ¬ (v = vmid ∧ c = vcpuId) := by
            rintro v c hne ⟨rfl, rfl⟩
            exact hne (setFreezeEpoch_self h v c 0)
          refine ⟨fun v c hne => ?_, hinv.epoch_eq, hinv.not_running, hinv.not_failed,
            hinv.topology, fun _ => hinv.gated rfl, hreq, hgated, fun v c hne => ?_⟩
          · have hsame := setFreezeEpoch_other h 0 (hkeep v c hne)
            exact (hinv.frozen v c (hsame ▸ hne)).setFreezeEpoch hsame
          · have hvc := hkeep v c hne
            rw [setFreezeEpoch_other h 0 hvc] at hne
            rcases hahead v c hne with hlt | ⟨rfl, hle⟩
            · exact .inl hlt
            · exact .inr ⟨rfl, Nat.lt_of_le_of_ne hle fun heq => hvc ⟨rfl, heq.symm⟩⟩
    · next hend =>
      have hsame : SameGuests h
          { h with data := h.data.updVm vmid fun record => { record with state := .running } } :=
        .updVm h vmid fun _ => rfl
      refine hinv.move hsame hinv.not_running hinv.not_failed rfl rfl
        ⟨hreq, fun v => (hgated v).trans (hsame.gated v).symm, hnext fun c hne hle => ?_⟩
      exact hend (Nat.lt_of_le_of_lt hle (hfrozen vmid c hne).2.2)
  · next hend =>
    refine hinv.goto rfl rfl ⟨hreq, fun v c => ?_⟩
    by_contra hne
    have hlt := (hinv.frozen v c hne).vm_lt
    rcases hahead v c hne with hgt | ⟨rfl, -⟩ <;> omega

theorem BusyInv.thawStart (hinv : BusyInv h epoch (.thawStart u)) (env : PmEnv) :
    BusyInv h epoch (thawStartStep env h epoch u) := by
  unfold thawStartStep
  split
  · exact hinv.goto rfl rfl trivial
  split
  · exact hinv.goto rfl rfl trivial
  · refine hinv.goto rfl rfl ⟨rfl, fun _ => rfl, fun v c _ => ?_⟩
    omega

theorem BusyInv.ungate (hinv : BusyInv h epoch (.ungate u required)) :
    BusyInv { h with data := (hvPmUngate epoch required h.data).1 } epoch
      (if (hvPmUngate epoch required h.data).2 ≠ 0 then
        .failEpoch (hvPmUngate epoch required h.data).2 else .complete u) := by
  have hnone : h.NoneFrozen := hinv.place.2
  rw [hvPmUngate, if_neg (not_not.mpr hinv.epoch_eq), if_neg (not_not.mpr rfl)]
  exact ⟨fun v c hne => absurd (hnone v c) hne, hinv.epoch_eq, hinv.not_running, hinv.not_failed,
    hinv.topology, nofun, hnone⟩

/-! #### All steps -/

theorem BusyInv.reverse {completed : BitVec 64} {idx : Nat} {firstError : Int}
    (hinv : BusyInv h epoch (.reverse u completed idx firstError)) (env : PmEnv) :
    BusyInv (reverseStep env h u completed idx firstError).1 epoch
      (reverseStep env h u completed idx firstError).2 := by
  unfold reverseStep
  split
  · exact hinv.gotoIte rfl rfl trivial trivial
  split
  · exact hinv.goto rfl rfl trivial
  · next hookIdx _ =>
    generalize (if (h.hook hookIdx).reverse u.abortPhase then env.status else 0) = status
    dsimp only
    split
    · exact hinv.move ⟨rfl, rfl, rfl, rfl, fun _ => rfl, rfl, rfl⟩ hinv.not_running
        hinv.not_failed rfl rfl trivial
    · exact hinv.goto rfl rfl trivial

def afterStep (epoch : Nat) (x : PmHost × Option Pc) : PmMachine :=
  ⟨x.1, x.2.map fun pc => (epoch, pc)⟩

theorem BusyInv.step (hinv : BusyInv h epoch pc) (env : PmEnv) :
    (afterStep epoch (processStep env h epoch pc)).Inv := by
  cases pc with
  | forwardStart => exact hinv.gotoIte rfl rfl hinv.place hinv.place
  | forward suspendPhase count idx =>
    show BusyInv h epoch (forwardStep env h suspendPhase count idx)
    unfold forwardStep
    split
    · split
      · exact hinv.gotoIte rfl rfl hinv.place hinv.place
      · exact hinv.goto rfl rfl hinv.place
    · exact hinv.goto rfl rfl hinv.place
  | hookDone _ _ idx =>
    show BusyInv { h with data := (hvPmSetHookCompleted epoch idx h.data).1 } epoch
      (if (hvPmSetHookCompleted epoch idx h.data).2 ≠ 0 then _ else _)
    unfold hvPmSetHookCompleted
    split
    · rw [if_pos (show -eInval ≠ 0 by decide)]
      exact hinv.goto rfl rfl hinv.place
    · rw [if_neg (not_not.mpr rfl)]
      exact hinv.move ⟨rfl, rfl, rfl, rfl, fun _ => rfl, rfl, rfl⟩ hinv.not_running
        hinv.not_failed rfl rfl hinv.place
  | phaseEnd suspendPhase status =>
    show BusyInv h epoch (phaseEndStep h epoch suspendPhase status)
    unfold phaseEndStep
    split
    · exact hinv.goto rfl rfl trivial
    split
    · exact hinv.gotoIte rfl rfl trivial trivial
    · next hphase =>
      exact hinv.gotoIte rfl rfl (hinv.place (Bool.eq_false_iff.mpr hphase)) trivial
  | setFreezing =>
    exact hinv.setEpochState env (by decide) (by decide) rfl rfl (fun _ => nofun) hinv.place
  | freezeStart =>
    exact hinv.gotoIte rfl rfl nofun ⟨rfl, fun v c hne => absurd (hinv.place v c) hne⟩
  | gateVm =>
    obtain ⟨hreq, hahead⟩ := hinv.place
    show BusyInv h epoch (if _ then _ else _)
    split
    · next hvm =>
      split
      · exact hinv.goto rfl rfl ⟨hreq, fun v c hne => Nat.lt_succ_of_lt (hahead v c hne)⟩
      · next hbit =>
        exact hinv.gotoIte rfl rfl nofun ⟨hreq, hvm, by simpa using hbit, hahead⟩
    · exact hinv.goto rfl rfl trivial
  | gateRecord _ _ vmid =>
    obtain ⟨hreq, hvm, hbit, hahead⟩ := hinv.place
    show (afterStep epoch (if _ then _ else _)).Inv
    split
    · exact hinv.goto rfl rfl nofun
    · exact hinv.move (.updVm h vmid fun _ => rfl) hinv.not_running hinv.not_failed rfl rfl
        ⟨hreq, hvm, hbit, fun v c hne => .inl (hahead v c hne)⟩
  | gateVcpu => exact hinv.gateVcpu env
  | gatePublish => exact hinv.publish rfl
  | poll => exact hinv.gotoIte rfl rfl nofun fun _ => rfl
  | pollVm => exact hinv.pollVm env
  | wakeCheck => exact hinv.gotoIte rfl rfl trivial trivial
  | setSuspended =>
    exact hinv.setEpochState env (by decide) (by decide) rfl rfl (fun _ => trivial) nofun
  | scopeCheck =>
    simp only [processStep]
    cases h.data.scope with
    | vm => exact hinv.leave rfl rfl hinv.place
    | system | none => exact hinv.goto rfl rfl trivial
  | platformEnter | reverseStart _ =>
    show BusyInv h epoch (if _ then _ else _)
    split
    · exact hinv.goto rfl rfl trivial
    · exact hinv.gotoIte rfl rfl trivial trivial
  | setRestoring =>
    exact hinv.setEpochState env (by decide) (by decide) rfl rfl (fun _ => trivial) trivial
  | failEpoch => exact hinv.failEpoch env.now
  | rollback reason =>
    show BusyInv { h with data := hvPmStartRollback env.now epoch reason h.data } epoch _
    unfold hvPmStartRollback
    split
    · exact hinv.move ⟨rfl, rfl, rfl, rfl, fun _ => rfl, rfl, rfl⟩ nofun nofun rfl rfl trivial
    · exact hinv.goto rfl rfl trivial
  | reverse => exact hinv.reverse env
  | thawStart => exact hinv.thawStart env
  | thawVcpu => exact hinv.thawVcpu
  | ungate => exact hinv.ungate
  | complete => exact hinv.complete env.now

end Steps

/-! ### Runs -/

theorem IdleInv.enter (hinv : IdleInv h) :
    PmMachine.Inv ⟨h, (processEntry h.data).map fun pc => (h.data.epoch, pc)⟩ := by
  have hbusy : ∀ pc : Pc, h.data.state ≠ .running → h.data.state ≠ .failed →
      pc.publishing = none → PlaceInv h pc → BusyInv h h.data.epoch pc := by
    intro pc hrun hfail hpub hplace
    refine ⟨?_, rfl, hrun, hfail, hinv.topology hrun, fun _ => hinv.gated hrun, hplace⟩
    rw [hpub]
    exact hinv.frozen
  unfold processEntry
  split
  · next hstate => exact hbusy _ (by rw [hstate]; decide) (by rw [hstate]; decide) rfl trivial
  · next hstate => exact hbusy _ (by rw [hstate]; decide) (by rw [hstate]; decide) rfl trivial
  · next hstate =>
    split
    · exact hbusy _ (by rw [hstate]; decide) (by rw [hstate]; decide) rfl
        fun _ => hinv.preparing hstate
    · exact hinv
  · exact hinv

theorem PmMachine.step_of_ne (m : PmMachine) (env : PmEnv) (hop : op ≠ .process) :
    m.step (env, op) = ⟨requestOp env m.host op, m.frame⟩ := by
  cases op with
  | process => exact absurd rfl hop
  | _ => rfl

theorem PmMachine.Inv.step (hinv : m.Inv) (call : PmEnv × PmOp) : (m.step call).Inv := by
  obtain ⟨env, op⟩ := call
  obtain ⟨h, frame⟩ := m
  by_cases hop : op = .process
  · subst hop
    cases frame with
    | none => exact IdleInv.enter hinv
    | some f => exact BusyInv.step hinv env
  · rw [PmMachine.step_of_ne _ env hop]
    cases frame with
    | none => exact IdleInv.request hinv env op
    | some f =>
      have hbusy : BusyInv h f.1 f.2 := hinv
      exact hbusy.interferes (requestOp_active env op hbusy.not_running hbusy.topology)

theorem PmMachine.inv_boot (tickrate : Nat) (vcpus : Nat → VcpuCount) :
    (PmMachine.boot tickrate vcpus).Inv :=
  ⟨fun _ _ hne => absurd rfl hne, fun _ => ⟨rfl, fun _ _ => rfl⟩, nofun,
    fun hne => absurd rfl hne, fun hne => absurd rfl hne⟩

theorem PmMachine.inv_run (tickrate : Nat) (vcpus : Nat → VcpuCount) (calls : List (PmEnv × PmOp)) :
    (Run.exec PmMachine.step (PmMachine.boot tickrate vcpus) calls).Inv :=
  Run.inv_always PmMachine.Inv (fun _ call hm => hm.step call) calls
    (PmMachine.inv_boot tickrate vcpus)

/-! ### What one step of the boot pCPU does -/

/-- Places at which the mask of the completed hooks is all there is to know of them. -/
def Pc.winding : Pc → Bool
  | .forward .. | .hookDone .. | .reverse .. | .thawStart _ | .thawVcpu .. | .ungate .. | .complete _ =>
    false
  | _ => true

/-- Places outside the phase that prepares the hooks. -/
def Pc.prepared : Pc → Bool
  | .forwardStart false | .forward false _ _ | .hookDone false _ _ => false
  | _ => true

/-- Places between the callbacks. -/
def Pc.quiet : Pc → Bool
  | .forwardStart _ | .forward .. | .hookDone .. | .scopeCheck | .failEpoch _ | .reverseStart _
  | .reverse .. | .thawStart _ | .thawVcpu .. | .ungate .. | .complete _ => false
  | _ => true

/-- A place between the first reverse callback and `PM_RUNNING`. -/
def Pc.unwinds : Pc → Bool
  | .reverse .. | .thawStart _ | .thawVcpu .. | .ungate .. | .complete _ => true
  | _ => false

/-- The start of the way back, or a place on it. -/
def Pc.turnsBack : Pc → Bool
  | .reverseStart _ => true
  | pc => pc.unwinds

/-- Where a step may go from a place. -/
def Pc.leadsTo (pc pc' : Pc) : Bool :=
  (!pc.prepared || pc'.prepared) && (!pc.quiet || pc'.winding) && (!pc'.unwinds || pc.turnsBack)

def PmHost.fixed (h : PmHost) : Nat × BitVec 64 × List PmOps × Bool × PmScope × Nat :=
  (h.data.epoch, h.data.topologyChangeVmMask, h.hooks, h.hooksFinalized, h.data.scope,
    h.data.targetVmid)

/-- What one step of the boot pCPU does: it goes on, leaves a suspended VM, fails or completes. -/
inductive ProcessStep (h : PmHost) (epoch : Nat) : Pc → PmHost × Option Pc → Prop
  | go {pc pc' : Pc} {h' : PmHost} (fixed : h'.fixed = h.fixed)
      (mask : pc.quiet = true → h'.data.completedHookMask = h.data.completedHookMask)
      (next : pc.leadsTo pc' = true) : ProcessStep h epoch pc (h', some pc')
  | leave : ProcessStep h epoch .scopeCheck (h, none)
  | fail (now : Nat) (status : Int) : ProcessStep h epoch (.failEpoch status)
      ({ h with data := hvPmFailEpoch now epoch status h.data }, none)
  | complete (now : Nat) (u : Unwind) : ProcessStep h epoch (.complete u)
      ({ h with data := hvPmCompleteRunning now epoch u.lastStatus h.data }, none)

theorem processStep_cases (h : PmHost) (epoch : Nat) (pc : Pc) :
    ProcessStep h epoch pc (processStep env h epoch pc) := by
  cases pc with
  | forwardStart suspendPhase =>
    cases suspendPhase <;> simp only [processStep] <;> split <;> exact .go rfl nofun rfl
  | forward suspendPhase =>
    cases suspendPhase <;> simp only [processStep, forwardStep] <;> split_ifs <;>
      exact .go rfl nofun rfl
  | hookDone suspendPhase =>
    simp only [processStep, hvPmSetHookCompleted]
    cases suspendPhase <;> split <;> split <;> exact .go rfl nofun rfl
  | phaseEnd =>
    simp only [processStep, phaseEndStep]
    split_ifs <;> exact .go rfl (fun _ => rfl) rfl
  | setFreezing | setSuspended | setRestoring =>
    simp only [processStep, hvPmSetEpochState]
    split <;> split <;> exact .go rfl (fun _ => rfl) rfl
  | freezeStart | gateVm _ _ _ | gateRecord _ _ _ | poll _ | wakeCheck | platformEnter =>
    simp only [processStep]
    split_ifs <;> exact .go rfl (fun _ => rfl) rfl
  | gateVcpu =>
    simp only [processStep, gateVcpuStep]
    split
    · split
      · exact .go rfl (fun _ => rfl) rfl
      · exact .go rfl (fun _ => rfl) rfl
      · split <;> exact .go rfl (fun _ => rfl) rfl
    · exact .go rfl (fun _ => rfl) rfl
  | gatePublish _ _ vmid vcpuId masks =>
    obtain ⟨vm, hpub⟩ := publish_frame epoch vmid
      { masks with
        active := if env.vcpuState vmid vcpuId = .running then bitmapSet vcpuId masks.active
          else masks.active } 0 h.data
    simp only [processStep, hpub]
    exact .go rfl (fun _ => rfl) rfl
  | pollVm _ snapshot vmid =>
    obtain ⟨vm, hrec⟩ := recordPoll_frame epoch vmid (snapshot.vm vmid)
      (frozenMask env h epoch vmid (snapshot.vm vmid).gatedVcpuMask) h.data
    simp only [processStep, pollVmStep, hrec]
    split_ifs <;> exact .go rfl (fun _ => rfl) rfl
  | scopeCheck =>
    simp only [processStep]
    cases h.data.scope with
    | vm => exact .leave
    | _ => exact .go rfl nofun rfl
  | failEpoch status => exact .fail env.now status
  | rollback =>
    simp only [processStep, hvPmStartRollback]
    split <;> exact .go rfl (fun _ => rfl) rfl
  | reverseStart =>
    simp only [processStep]
    split_ifs <;> exact .go rfl nofun rfl
  | reverse _ _ idx =>
    cases idx <;> simp only [processStep, reverseStep] <;> split_ifs <;> exact .go rfl nofun rfl
  | thawStart =>
    simp only [processStep, thawStartStep]
    split
    · exact .go rfl nofun rfl
    · split <;> exact .go rfl nofun rfl
  | thawVcpu =>
    simp only [processStep, thawVcpuStep]
    split
    · split
      · exact .go rfl nofun rfl
      split
      · split
        · exact .go rfl nofun rfl
        · split <;> exact .go rfl nofun rfl
      · exact .go rfl nofun rfl
    · exact .go rfl nofun rfl
  | ungate =>
    simp only [processStep, hvPmUngate]
    split <;> split <;> exact .go rfl nofun rfl
  | complete u => exact .complete env.now u

theorem Pc.leadsTo_iff {pc' : Pc} : pc.leadsTo pc' = true ↔
    (pc.prepared = true → pc'.prepared = true) ∧ (pc.quiet = true → pc'.winding = true) ∧
      (pc'.unwinds = true → pc.turnsBack = true) := by
  simp [Pc.leadsTo, and_assoc, imp_iff_not_or]

theorem BusyInv.failEpoch_state (hinv : BusyInv h epoch pc) (now : Nat) (status : Int) :
    (hvPmFailEpoch now epoch status h.data).state = .failed := by
  rw [hvPmFailEpoch, if_pos ⟨hinv.epoch_eq, hinv.not_running⟩]
  rfl

theorem BusyInv.complete_state (hinv : BusyInv h epoch pc) (now : Nat) (status : Int) :
    (hvPmCompleteRunning now epoch status h.data).state = .running := by
  rw [hvPmCompleteRunning, if_pos ⟨hinv.epoch_eq, hinv.not_failed⟩]
  rfl

/-- The part of the record that `hv_pm_process_from_idle` does not write. -/
structure ProcessKeeps (h h' : PmHost) : Prop where
  epoch : h'.data.epoch = h.data.epoch
  topology : h'.data.topologyChangeVmMask = h.data.topologyChangeVmMask
  hooks : h'.hooks = h.hooks
  finalized : h'.hooksFinalized = h.hooksFinalized
  scope : h'.data.state ≠ .running →
    h'.data.scope = h.data.scope ∧ h'.data.targetVmid = h.data.targetVmid

theorem ProcessKeeps.of_fixed (hfixed : h'.fixed = h.fixed) : ProcessKeeps h h' := by
  simp only [PmHost.fixed, Prod.mk.injEq] at hfixed
  obtain ⟨hepoch, htop, hhooks, hfin, hscope⟩ := hfixed
  exact ⟨hepoch, htop, hhooks, hfin, fun _ => hscope⟩

/-- The boot pCPU never begins or ends a topology change, and never changes the hook table. -/
theorem ProcessStep.keeps {out : PmHost × Option Pc}
    (hstep : ProcessStep h epoch pc out) : ProcessKeeps h out.1 := by
  cases hstep with
  | go hfixed => exact .of_fixed hfixed
  | leave => exact .of_fixed rfl
  | fail =>
    simp only [hvPmFailEpoch]
    split <;> exact .of_fixed rfl
  | complete =>
    simp only [hvPmCompleteRunning]
    split
    · exact ⟨rfl, rfl, rfl, rfl, fun hne => absurd rfl hne⟩
    · exact .of_fixed rfl

/-! ### Ownership -/

/-- What holds of the guests in every state. -/
structure GuestsOwned (m : PmMachine) : Prop where
  /-- without a transaction nothing is gated and nothing is frozen -/
  running : m.host.data.state = .running → m.host.data.ioGatedVmMask = 0 ∧ m.host.NoneFrozen
  /-- a frozen thread carries the epoch of the transaction that is not over -/
  current : ∀ vmid vcpuId, m.host.freezeEpoch vmid vcpuId ≠ 0 →
    m.host.freezeEpoch vmid vcpuId = m.host.data.epoch ∧ m.host.data.state ≠ .running
  /-- a VM with a frozen vCPU is gated -/
  gated : ∀ vmid vcpuId, m.host.freezeEpoch vmid vcpuId ≠ 0 →
    hvPmVmIoIsGated vmid m.host.data = true
  /-- during a transaction no topology change is under way -/
  topology : m.host.data.state ≠ .running → m.host.data.topologyChangeVmMask = 0

/-- What a step from a state can do. -/
structure StepExcludes (m : PmMachine) (call : PmEnv × PmOp) : Prop where
  /-- a transaction starts only while no topology change is under way -/
  starts : m.host.data.state = .running → (m.step call).host.data.state ≠ .running →
    m.host.data.topologyChangeVmMask = 0
  /-- a topology change begins only while there is no transaction -/
  topology : ∀ vmid, bitmapTest vmid m.host.data.topologyChangeVmMask = false →
    bitmapTest vmid (m.step call).host.data.topologyChangeVmMask = true →
    m.host.data.state = .running
  /-- a failed transaction stays failed -/
  failed : m.host.data.state = .failed → (m.step call).host.data.state = .failed

theorem IdleInv.owned (hinv : IdleInv h) (frame : Option (Nat × Pc)) : GuestsOwned ⟨h, frame⟩ where
  running := hinv.running
  current v c hne := ⟨(hinv.frozen v c hne).epoch, fun hrun => hne ((hinv.running hrun).2 v c)⟩
  gated v c hne := by
    have hok := hinv.frozen v c hne
    simp [hvPmVmIoIsGated, hok.vm_lt, hok.ioGated]
  topology := hinv.topology

theorem BusyInv.owned (hinv : BusyInv h epoch pc) (frame : Option (Nat × Pc)) :
    GuestsOwned ⟨h, frame⟩ where
  running hrun := absurd hrun hinv.not_running
  current v c hne := ⟨(hinv.frozen v c hne).epoch, hinv.not_running⟩
  gated v c hne := by
    have hok := hinv.frozen v c hne
    simp [hvPmVmIoIsGated, hok.vm_lt, hok.ioGated]
  topology _ := hinv.topology

theorem PmMachine.Inv.owned (hinv : m.Inv) : GuestsOwned m := by
  obtain ⟨h, frame⟩ := m
  cases frame with
  | none => exact IdleInv.owned hinv none
  | some f => exact BusyInv.owned hinv (some f)

/-- The boot pCPU works on active transactions only. -/
theorem PmMachine.Inv.active (hinv : m.Inv) (hframe : m.frame = some (epoch, pc)) :
    m.host.data.state ≠ .running := by
  unfold PmMachine.Inv at hinv
  rw [hframe] at hinv
  exact hinv.not_running

theorem PmMachine.Inv.frame_eq_none (hinv : m.Inv) (hrun : m.host.data.state = .running) :
    m.frame = none := by
  cases hframe : m.frame with
  | none => rfl
  | some f => exact absurd hrun (hinv.active hframe)

/-- Without an active transaction the boot pCPU does nothing. -/
theorem PmMachine.Inv.idle_process (hinv : m.Inv) (env : PmEnv)
    (hstate : m.host.data.state = .running ∨ m.host.data.state = .failed) :
    m.step (env, .process) = m := by
  obtain ⟨h, frame⟩ := m
  cases frame with
  | none =>
    show PmMachine.mk h ((processEntry h.data).map _) = _
    have hentry : processEntry h.data = none := by
      unfold processEntry
      rcases hstate with hs | hs <;> rw [show h.data.state = _ from hs]
    rw [hentry]
    rfl
  | some f =>
    have hbusy : BusyInv h f.1 f.2 := hinv
    exact absurd hstate (not_or.mpr ⟨hbusy.not_running, hbusy.not_failed⟩)

theorem PmMachine.Inv.stepExcludes (hinv : m.Inv) (call : PmEnv × PmOp) : StepExcludes m call := by
  obtain ⟨env, op⟩ := call
  by_cases hop : op = .process
  · subst hop
    refine ⟨fun hrun hnot => ?_, fun vmid hclear hset => ?_, fun hfail => ?_⟩
    · rw [hinv.idle_process env (.inl hrun)] at hnot
      exact absurd hrun hnot
    · have hsame : (m.step (env, .process)).host.data.topologyChangeVmMask =
          m.host.data.topologyChangeVmMask := by
        obtain ⟨h, frame⟩ := m
        cases frame with
        | none => rfl
        | some f => exact (processStep_cases env h f.1 f.2).keeps.topology
      rw [hsame, hclear] at hset
      exact nomatch hset
    · rw [hinv.idle_process env (.inr hfail)]
      exact hfail
  · have hactive : m.host.data.state ≠ .running →
        Interferes m.host (m.step (env, op)).host := by
      intro hne
      rw [m.step_of_ne env hop]
      exact requestOp_active env op hne (hinv.owned.topology hne)
    refine ⟨fun hrun hnot => ?_, fun vmid hclear hset => ?_, fun hfail => ?_⟩
    · rw [m.step_of_ne env hop] at hnot
      rcases requestOp_running env op hrun with hstays | hstarts
      · exact absurd hstays.state hnot
      · exact hstarts.free
    · by_contra hne
      rw [(hactive hne).topology] at hset
      exact nomatch hset.symm.trans (bitmapTest_zero vmid)
    · have hne : m.host.data.state ≠ .running := by rw [hfail]; decide
      exact (hactive hne).failed.mpr hfail

/-- **Every state any interleaving reaches, and every step from it, respects ownership.** -/
theorem pm_transaction_ownership (tickrate : Nat) (vcpus : Nat → VcpuCount)
    (calls : List (PmEnv × PmOp)) :
    GuestsOwned (Run.exec PmMachine.step (PmMachine.boot tickrate vcpus) calls) ∧
      ∀ call, StepExcludes (Run.exec PmMachine.step (PmMachine.boot tickrate vcpus) calls) call := by
  have hinv := PmMachine.inv_run tickrate vcpus calls
  exact ⟨hinv.owned, hinv.stepExcludes⟩

end BeauOs.Pm
