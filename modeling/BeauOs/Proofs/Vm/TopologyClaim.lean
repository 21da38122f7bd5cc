/-
The topology-change bit of a VM is an exclusive claim.

A claim is taken by a caller, held by it over several steps, and either released by the same
call or left in the reset bitmap of a pCPU for the idle thread, which releases it when the VM
has been restarted.  The books (`Claim.Balanced`) say that a bit is set exactly while there is
one such holder.  Every step of the callers and of the idle threads is one of the rules for
claims: a bit is taken, handed over, released, or left alone.

There is one exception.  `make_reset_vm_request_internal` takes the bit before it looks at the
VM, and if the VM is powered off or is the service VM it returns zero with the bit still set
and nothing queued.  The guarantee therefore is for runs in which that test does not fail.
-/
import BeauOs.Lib.Claim
import BeauOs.Lib.Run
import BeauOs.Vm.Restart
import BeauOs.Proofs.Pm.Ownership

namespace BeauOs.Vm

open BeauOs.Pm

/-! ### Holders -/

/-- Who can hold the claim on a VM. -/
inductive Holder
  /-- a call that is being executed -/
  | caller (c : Nat)
  /-- a request that is queued on a pCPU -/
  | queued (pcpuId : Nat)
  /-- the idle thread, once it has taken the request from its queue -/
  | idle (pcpuId : Nat)

/-- The VM whose bit a call holds. -/
def CallerPc.claim : CallerPc → Option Nat
  | .requestCheck _ vmid _ | .requestLock _ vmid _ | .requestOwner _ vmid _
  | .requestPublish _ vmid | .requestEnd vmid | .restartLocked vmid _ | .restartEnd vmid _
  | .psciEnd vmid _ => some vmid
  | .idle | .requestBegin .. | .restartBegin .. | .psciBegin _ => none

/-- The VM whose bit the idle thread has still to release. -/
def IdlePc.claim : IdlePc → Option Nat
  | .release vmid _ _ => some vmid
  | _ => none

/-- The VM whose request the idle thread works on. -/
def IdlePc.working : IdlePc → Option Nat
  | .work vmid _ | .clear vmid _ _ => some vmid
  | _ => none

namespace VmMachine

/-- `topology_change_vm_mask` -/
def topologyMask (m : VmMachine) : BitVec 64 := m.host.pm.host.data.topologyChangeVmMask

def TopologyBit (m : VmMachine) (vmid : Nat) : Prop :=
  vmid < 64 ∧ bitmapTest vmid m.topologyMask = true

def Holds (m : VmMachine) : Holder → Nat → Prop
  | .caller c, vmid => (m.caller c).claim = some vmid
  | .queued pcpuId, vmid =>
    vmid < configMaxVmNum ∧ bitmapTest vmid (m.host.resetVmBitmap pcpuId) = true
  | .idle pcpuId, vmid => (m.idle pcpuId).claim = some vmid

structure ClaimInv (m : VmMachine) : Prop where
  balanced : Claim.Balanced m.TopologyBit m.Holds
  range : ∀ k vmid, m.Holds k vmid → vmid < configMaxVmNum
  /-- a request stays queued while the idle thread works on it -/
  working : ∀ pcpuId vmid, (m.idle pcpuId).working = some vmid → m.Holds (.queued pcpuId) vmid

/-- A step that leaves the bits and the claims alone. -/
theorem ClaimInv.congr {m m' : VmMachine} (hinv : m.ClaimInv)
    (hmask : m'.topologyMask = m.topologyMask) (hholds : ∀ k v, m'.Holds k v ↔ m.Holds k v)
    (hworking : ∀ p v, (m'.idle p).working = some v → m.Holds (.queued p) v) : m'.ClaimInv where
  balanced := hinv.balanced.congr (fun v => by unfold TopologyBit; rw [hmask]) hholds
  range k v hk := hinv.range k v ((hholds k v).mp hk)
  working p v hp := (hholds _ v).mpr (hworking p v hp)

/-- Whether a reset request that has taken the bit finds a VM it can reset. -/
def requestChecked (m : VmMachine) (call : VmEnv × VmCall) : Bool :=
  match call.2 with
  | .caller c =>
    match m.caller c with
    | .requestCheck _ vmid _ => !(m.host.vm vmid).isPoweroff && !(m.host.vm vmid).isService
    | _ => true
  | _ => true

def RequestChecked (m : VmMachine) (call : VmEnv × VmCall) : Prop := m.requestChecked call = true

instance (m : VmMachine) (call : VmEnv × VmCall) : Decidable (m.RequestChecked call) :=
  inferInstanceAs (Decidable (m.requestChecked call = true))

variable {m : VmMachine} {wdtOwned : Bool}

theorem requestChecked_at {env : VmEnv} {c pcpuId vmid : Nat}
    (hpc : m.caller c = .requestCheck pcpuId vmid wdtOwned) :
    m.RequestChecked (env, .caller c) ↔
      (!(m.host.vm vmid).isPoweroff && !(m.host.vm vmid).isService) = true := by
  simp only [RequestChecked, requestChecked, hpc]

/-! ### Bits -/

theorem bits_set {n vmid v : Nat} (hn : n ≤ 64) (hvm : vmid < n) (mask : BitVec 64) :
    (v < n ∧ bitmapTest v (bitmapSet vmid mask) = true) ↔
      (v < n ∧ bitmapTest v mask = true) ∨ v = vmid := by
  by_cases hv : v = vmid
  · subst hv
    simp [hvm, bitmapTest_set]
  · simp only [hv, or_false]
    refine and_congr_right fun hlt => ?_
    rw [bitmapTest_set_of_ne (by omega)]

theorem bits_clear {n vmid v : Nat} (hn : n ≤ 64) (hvm : vmid < n) (mask : BitVec 64) :
    (v < n ∧ bitmapTest v (bitmapClear vmid mask) = true) ↔
      (v < n ∧ bitmapTest v mask = true) ∧ v ≠ vmid := by
  by_cases hv : v = vmid
  · subst hv
    simp [bitmapTest_clear]
  · simp only [hv, ne_eq, not_false_eq_true, and_true]
    refine and_congr_right fun hlt => ?_
    rw [bitmapTest_clear_of_ne (by omega)]

variable {vmid : Nat}

theorem topologyBit_set {m m' : VmMachine} (hvm : vmid < configMaxVmNum)
    (hmask : m'.topologyMask = bitmapSet vmid m.topologyMask) (v : Nat) :
    m'.TopologyBit v ↔ m.TopologyBit v ∨ v = vmid := by
  unfold TopologyBit
  rw [hmask]
  exact bits_set (Nat.le_refl 64) (Nat.lt_trans hvm (by decide)) _

theorem topologyBit_clear {m m' : VmMachine} (hvm : vmid < configMaxVmNum)
    (hmask : m'.topologyMask = bitmapClear vmid m.topologyMask) (v : Nat) :
    m'.TopologyBit v ↔ m.TopologyBit v ∧ v ≠ vmid := by
  unfold TopologyBit
  rw [hmask]
  exact bits_clear (Nat.le_refl 64) (Nat.lt_trans hvm (by decide)) _

/-- `hv_pm_begin_vm_topology_change` refuses, or takes a bit that was clear. -/
theorem begin_cases (s : VmHost) (vmid : Nat) :
    ((s.begin vmid).2 ≠ 0 ∧ (s.begin vmid).1 = s) ∨
      ((s.begin vmid).2 = 0 ∧ vmid < configMaxVmNum ∧
        bitmapTest vmid s.pm.host.data.topologyChangeVmMask = false ∧
        (s.begin vmid).1 = s.setData { s.pm.host.data with
          topologyChangeVmMask := bitmapSet vmid s.pm.host.data.topologyChangeVmMask }) := by
  unfold VmHost.begin hvPmBeginVmTopologyChange
  by_cases hvm : vmid ≥ configMaxVmNum
  · rw [if_pos hvm]
    exact .inl ⟨show -eInval ≠ 0 by decide, rfl⟩
  rw [if_neg hvm]
  by_cases hbusy : s.pm.host.data.state ≠ .running ∨
      bitmapTest vmid s.pm.host.data.topologyChangeVmMask = true
  · rw [if_pos hbusy]
    exact .inl ⟨show -eBusy ≠ 0 by decide, rfl⟩
  · rw [if_neg hbusy]
    refine .inr ⟨rfl, Nat.not_le.mp hvm, ?_, rfl⟩
    exact Bool.eq_false_iff.mpr fun hbit => hbusy (.inr hbit)

theorem finish_eq (s : VmHost) (hvm : vmid < configMaxVmNum) :
    s.finish vmid = s.setData { s.pm.host.data with
      topologyChangeVmMask := bitmapClear vmid s.pm.host.data.topologyChangeVmMask } := by
  unfold VmHost.finish hvPmEndVmTopologyChange
  rw [if_neg (Nat.not_le.mpr hvm)]

/-! ### Steps of a caller -/

section Caller

variable {m : VmMachine} {s : VmHost} {c : Nat} {pc : CallerPc}

def afterCaller (m : VmMachine) (s : VmHost) (c : Nat) (pc : CallerPc) : VmMachine :=
  { m with host := s, caller := Function.update m.caller c pc }

theorem afterCaller_self (m : VmMachine) (s : VmHost) (c : Nat) (pc : CallerPc) (v : Nat) :
    (m.afterCaller s c pc).Holds (.caller c) v ↔ pc.claim = some v := by
  simp [Holds, afterCaller]

theorem afterCaller_other (m : VmMachine) (hs : s.resetVmBitmap = m.host.resetVmBitmap)
    {k : Holder} (hk : k ≠ .caller c) (pc : CallerPc) (v : Nat) :
    (m.afterCaller s c pc).Holds k v ↔ m.Holds k v := by
  cases k with
  | caller c' =>
    have hne : c' ≠ c := fun heq => hk (heq ▸ rfl)
    simp [Holds, afterCaller, Function.update_of_ne hne]
  | queued => simp [Holds, afterCaller, hs]
  | idle => rfl

variable (hinv : m.ClaimInv)

include hinv

/-- The idle threads find their requests where they were. -/
theorem ClaimInv.of_caller (hs : s.resetVmBitmap = m.host.resetVmBitmap)
    (hbal : Claim.Balanced (m.afterCaller s c pc).TopologyBit (m.afterCaller s c pc).Holds)
    (hrange : ∀ v, pc.claim = some v → v < configMaxVmNum) : (m.afterCaller s c pc).ClaimInv where
  balanced := hbal
  range k v hk := by
    by_cases heq : k = .caller c
    · subst heq
      exact hrange v ((afterCaller_self m s c pc v).mp hk)
    · exact hinv.range k v ((afterCaller_other m hs heq pc v).mp hk)
  working p v hp := (afterCaller_other m hs (k := .queued p) nofun pc v).mpr (hinv.working p v hp)

/-- A step that leaves the bit and the claim alone. -/
theorem ClaimInv.keep (hs : s.resetVmBitmap = m.host.resetVmBitmap)
    (hmask : (m.afterCaller s c pc).topologyMask = m.topologyMask)
    (hpc : pc.claim = (m.caller c).claim) : (m.afterCaller s c pc).ClaimInv := by
  refine hinv.congr hmask (fun k v => ?_) hinv.working
  by_cases heq : k = .caller c
  · subst heq
    rw [afterCaller_self, hpc]
    rfl
  · exact afterCaller_other m hs heq pc v

theorem ClaimInv.take (hvm : vmid < configMaxVmNum) (hs : s.resetVmBitmap = m.host.resetVmBitmap)
    (hclear : bitmapTest vmid m.topologyMask = false)
    (hmask : (m.afterCaller s c pc).topologyMask = bitmapSet vmid m.topologyMask)
    (hold : (m.caller c).claim = none) (hpc : pc.claim = some vmid) :
    (m.afterCaller s c pc).ClaimInv := by
  refine hinv.of_caller hs (hinv.balanced.acquire (k := .caller c)
    (fun hbit => nomatch hclear.symm.trans hbit.2) (topologyBit_set hvm hmask)
    (fun k v hk => afterCaller_other m hs hk pc v) fun v => ?_)
    fun v hv => Option.some.inj (hpc.symm.trans hv) ▸ hvm
  rw [afterCaller_self, hpc]
  simp [Holds, hold, eq_comm]

theorem ClaimInv.finish (hold : (m.caller c).claim = some vmid) :
    (m.afterCaller (m.host.finish vmid) c .idle).ClaimInv := by
  have hvm := hinv.range (.caller c) vmid hold
  rw [finish_eq _ hvm]
  refine hinv.of_caller rfl (hinv.balanced.release (k := .caller c) hold (topologyBit_clear hvm rfl)
    (fun k v hk => afterCaller_other m rfl hk .idle v) fun v => ?_) nofun
  rw [afterCaller_self, show CallerPc.idle.claim = none from rfl]
  simp [Holds, hold, eq_comm]

theorem ClaimInv.publish {pcpuId vmid : Nat} (hold : m.caller c = .requestPublish pcpuId vmid) :
    (m.afterCaller (m.host.publishReset pcpuId vmid) c .idle).ClaimInv := by
  have hclaim : m.Holds (.caller c) vmid := congrArg CallerPc.claim hold
  have hvm := hinv.range _ _ hclaim
  have hother : ∀ k v, k ≠ .caller c → k ≠ .queued pcpuId →
      ((m.afterCaller (m.host.publishReset pcpuId vmid) c .idle).Holds k v ↔ m.Holds k v) := by
    intro k v hk hk'
    cases k with
    | caller c' =>
      have hc : c' ≠ c := fun heq => hk (heq ▸ rfl)
      simp [Holds, afterCaller, hc]
    | queued p =>
      have hp : p ≠ pcpuId := fun heq => hk' (heq ▸ rfl)
      simp [Holds, afterCaller, VmHost.publishReset, hp]
    | idle => rfl
  have hfrom : ∀ v, ¬ (m.afterCaller (m.host.publishReset pcpuId vmid) c .idle).Holds
      (.caller c) v := fun v hv => nomatch (afterCaller_self m _ c .idle v).mp hv
  have hto : ∀ v, (m.afterCaller (m.host.publishReset pcpuId vmid) c .idle).Holds
      (.queued pcpuId) v ↔ m.Holds (.queued pcpuId) v ∨ v = vmid := by
    intro v
    simp only [Holds, afterCaller, VmHost.publishReset, Function.update_self]
    exact bits_set (by decide) hvm _
  refine ⟨hinv.balanced.handOver (k := .queued pcpuId) hclaim nofun (fun _ => Iff.rfl) hother
      (fun v => ?_) hto,
    fun k v hk => ?_, fun p v hp => ?_⟩
  · refine iff_of_false (hfrom v) fun h => h.2 ?_
    exact Option.some.inj (h.1.symm.trans hclaim)
  · by_cases hq : k = .queued pcpuId
    · subst hq
      exact hk.1
    · exact hinv.range k v ((hother k v (fun heq => hfrom v (heq ▸ hk)) hq).mp hk)
  · have hqueued := hinv.working p v hp
    by_cases hq : p = pcpuId
    · subst hq
      exact (hto v).mpr (.inl hqueued)
    · exact (hother (.queued p) v nofun fun heq => hq (Holder.queued.inj heq)).mpr hqueued

theorem ClaimInv.begin (c vmid : Nat) (pc : CallerPc)
    (hold : (m.caller c).claim = none) (hpc : pc.claim = some vmid) :
    (m.afterCaller (beginStep m.host vmid pc).1 c (beginStep m.host vmid pc).2.1).ClaimInv := by
  unfold beginStep
  rcases begin_cases m.host vmid with ⟨hstatus, hsame⟩ | ⟨hstatus, hvm, hclear, htaken⟩
  · simp only [if_pos hstatus, hsame]
    exact hinv.keep rfl rfl hold.symm
  · simp only [hstatus, ne_eq, not_true_eq_false, if_false, htaken]
    exact hinv.take hvm rfl hclear rfl hold hpc

/-- A caller's step, if the test of a reset request does not fail. -/
theorem ClaimInv.callerStep (env : VmEnv) (c : Nat)
    (hok : m.RequestChecked (env, .caller c)) : (m.step (env, .caller c)).ClaimInv := by
  show (m.afterCaller (Vm.callerStep env m.host (m.caller c)).1 c
    (Vm.callerStep env m.host (m.caller c)).2.1).ClaimInv
  obtain ⟨pc, hpc⟩ : ∃ pc, m.caller c = pc := ⟨_, rfl⟩
  have hold : (m.caller c).claim = pc.claim := congrArg CallerPc.claim hpc
  rw [hpc]
  cases pc with
  | idle | restartLocked vmid reloadImage => exact hinv.keep rfl rfl hold.symm
  | requestBegin _ vmid =>
    simp only [Vm.callerStep]
    split
    · exact hinv.keep rfl rfl hold.symm
    · exact hinv.begin c vmid _ hold rfl
  | requestCheck =>
    simp only [Vm.callerStep, (requestChecked_at hpc).mp hok]
    exact hinv.keep rfl rfl hold.symm
  | requestLock pcpuId vmid wdtOwned | requestOwner pcpuId vmid wdtOwned =>
    simp only [Vm.callerStep]
    split
    · exact hinv.keep rfl rfl hold.symm
    · exact hinv.keep rfl rfl hold.symm
  | requestPublish => exact hinv.publish hpc
  | restartBegin vmid | psciBegin vmid => exact hinv.begin c vmid _ hold rfl
  | requestEnd vmid | restartEnd vmid status | psciEnd vmid status => exact hinv.finish hold

end Caller

/-! ### Steps of an idle thread -/

section Idle

variable {m : VmMachine} {s : VmHost} {p : Nat} {pc : IdlePc}

def afterIdle (m : VmMachine) (s : VmHost) (p : Nat) (pc : IdlePc) : VmMachine :=
  { m with host := s, idle := Function.update m.idle p pc }

theorem afterIdle_pc (m : VmMachine) (s : VmHost) (p : Nat) (pc : IdlePc) (p' : Nat) :
    (m.afterIdle s p pc).idle p' = if p' = p then pc else m.idle p' := by
  simp [afterIdle, Function.update_apply]

theorem afterIdle_other (m : VmMachine) (hs : s.resetVmBitmap = m.host.resetVmBitmap)
    {k : Holder} (hk : k ≠ .idle p) (pc : IdlePc) (v : Nat) :
    (m.afterIdle s p pc).Holds k v ↔ m.Holds k v := by
  cases k with
  | caller => rfl
  | queued => simp [Holds, afterIdle, hs]
  | idle p' =>
    have hp : p' ≠ p := fun heq => hk (heq ▸ rfl)
    simp [Holds, afterIdle, hp]

/-- A step that leaves the bits alone; a request that is begun is queued. -/
theorem ClaimInv.keepIdle (hinv : m.ClaimInv) (hs : s.resetVmBitmap = m.host.resetVmBitmap)
    (hmask : (m.afterIdle s p pc).topologyMask = m.topologyMask)
    (hold : (m.idle p).claim = none) (hpc : pc.claim = none)
    (hwork : ∀ v, pc.working = some v → m.Holds (.queued p) v) : (m.afterIdle s p pc).ClaimInv := by
  refine hinv.congr hmask (fun k v => ?_) fun p' v hp' => ?_
  · by_cases hk : k = .idle p
    · subst hk
      simp [Holds, afterIdle, hold, hpc]
    · exact afterIdle_other m hs hk pc v
  · rw [afterIdle_pc] at hp'
    split at hp'
    · next heq => exact heq ▸ hwork v hp'
    · exact hinv.working p' v hp'

/-- The request leaves the queue; the idle thread holds the claim. -/
theorem ClaimInv.takeFromQueue (hinv : m.ClaimInv) {status : Int}
    (hold : m.idle p = .clear vmid wdtOwned status) :
    (m.afterIdle { m.host with
        resetVmBitmap := Function.update m.host.resetVmBitmap p
          (bitmapClear vmid (m.host.resetVmBitmap p)) } p (.release vmid wdtOwned status)).ClaimInv := by
  have hclaim : m.Holds (.queued p) vmid := hinv.working p vmid (by rw [hold]; rfl)
  have hvm := hinv.range _ _ hclaim
  generalize hm : m.afterIdle { m.host with
    resetVmBitmap := Function.update m.host.resetVmBitmap p
      (bitmapClear vmid (m.host.resetVmBitmap p)) } p (.release vmid wdtOwned status) = m'
  have hother : ∀ k v, k ≠ .queued p → k ≠ .idle p → (m'.Holds k v ↔ m.Holds k v) := by
    intro k v hk hk'
    subst hm
    cases k with
    | caller => rfl
    | queued p' =>
      have hp : p' ≠ p := fun heq => hk (heq ▸ rfl)
      simp [Holds, afterIdle, hp]
    | idle p' =>
      have hp : p' ≠ p := fun heq => hk' (heq ▸ rfl)
      simp [Holds, afterIdle, hp]
  have hto : ∀ v, m'.Holds (.idle p) v ↔ v = vmid := by
    intro v
    subst hm
    simp [Holds, afterIdle, IdlePc.claim, eq_comm]
  refine ⟨hinv.balanced.handOver (k := .idle p) hclaim nofun (fun v => ?_) hother (fun v => ?_)
    (fun v => ?_), fun k v hk => ?_, fun p' v hp => ?_⟩
  · subst hm
    rfl
  · subst hm
    simp only [Holds, afterIdle, Function.update_self]
    exact bits_clear (by decide) hvm _
  · rw [hto]
    simp [Holds, hold, IdlePc.claim]
  · by_cases hi : k = .idle p
    · subst hi
      exact (hto v).mp hk ▸ hvm
    by_cases hq : k = .queued p
    · subst hq
      exact hk.1
    · exact hinv.range k v ((hother k v hq hi).mp hk)
  · -- the thread is past its queue, and the others work where they did
    have hp' : p' ≠ p ∧ (m.idle p').working = some v := by
      subst hm
      rw [afterIdle_pc] at hp
      split at hp
      · exact nomatch hp
      · next hne => exact ⟨hne, hp⟩
    exact (hother (.queued p') v (fun heq => hp'.1 (Holder.queued.inj heq)) nofun).mpr
      (hinv.working p' v hp'.2)

theorem ClaimInv.releaseIdle (hinv : m.ClaimInv) {status : Int}
    (hold : m.idle p = .release vmid wdtOwned status) :
    (m.afterIdle (m.host.finish vmid) p .scan).ClaimInv := by
  have hclaim : m.Holds (.idle p) vmid := congrArg IdlePc.claim hold
  have hvm := hinv.range _ _ hclaim
  have hgone (s : VmHost) (v : Nat) : ¬ (m.afterIdle s p .scan).Holds (.idle p) v := by
    simp [Holds, afterIdle, IdlePc.claim]
  rw [finish_eq _ hvm]
  refine ⟨hinv.balanced.release hclaim (topologyBit_clear hvm rfl)
      (fun k v hk => afterIdle_other m rfl hk .scan v) fun v => ?_,
    fun k v hk => ?_, fun p' v hp => ?_⟩
  · exact iff_of_false (hgone _ v) fun h => h.2 (Option.some.inj (h.1.symm.trans hclaim))
  · exact hinv.range k v ((afterIdle_other m rfl (fun heq => hgone _ v (heq ▸ hk)) .scan v).mp hk)
  · refine (afterIdle_other m rfl (p := p) (k := .queued p') nofun .scan v).mpr ?_
    rw [afterIdle_pc] at hp
    split at hp
    · exact nomatch hp
    · exact hinv.working p' v hp

theorem ClaimInv.idleStep (hinv : m.ClaimInv) (env : VmEnv) (p : Nat) :
    (m.step (env, .idle p)).ClaimInv := by
  show (m.afterIdle (Vm.idleStep env m.host p (m.idle p)).1 p
    (Vm.idleStep env m.host p (m.idle p)).2).ClaimInv
  obtain ⟨pc, hpc⟩ : ∃ pc, m.idle p = pc := ⟨_, rfl⟩
  have hold : (m.idle p).claim = pc.claim := congrArg IdlePc.claim hpc
  rw [hpc]
  cases pc with
  | out =>
    simp only [Vm.idleStep]
    split
    · exact hinv.keepIdle rfl rfl hold rfl nofun
    · exact hinv.keepIdle rfl rfl hold rfl nofun
  | scan =>
    simp only [Vm.idleStep]
    split
    · exact hinv.keepIdle rfl rfl hold rfl nofun
    · next vmid hfls =>
      split
      · next hvm =>
        refine hinv.keepIdle rfl rfl hold rfl fun v heq => ?_
        obtain rfl := Option.some.inj heq
        exact ⟨hvm, by simpa using List.find?_some hfls⟩
      · exact hinv.keepIdle rfl rfl hold rfl nofun
  | work =>
    refine hinv.keepIdle rfl rfl hold rfl fun v heq => ?_
    exact hinv.working p v (by rw [hpc]; exact heq)
  | clear => exact hinv.takeFromQueue hpc
  | release => exact hinv.releaseIdle hpc

end Idle

/-! ### Runs -/

/-- Power management leaves the topology bits alone unless it is asked to change them. -/
theorem pm_step_topology (m : PmMachine) (env : PmEnv) {op : PmOp} (hop : isTopologyOp op = false) :
    (m.step (env, op)).host.data.topologyChangeVmMask = m.host.data.topologyChangeVmMask := by
  by_cases hproc : op = .process
  · subst hproc
    obtain ⟨h, frame⟩ := m
    cases frame with
    | none => rfl
    | some f => exact (processStep_cases env h f.1 f.2).keeps.topology
  · rw [m.step_of_ne env hproc]
    rcases requestOp_cases env m.host op with hreq | hstarts
    · rcases hreq.topology with heq | ⟨vmid, rfl, -⟩ | ⟨vmid, rfl, -⟩
      · exact heq
      · exact nomatch hop
      · exact nomatch hop
    · exact hstarts.topology.trans hstarts.free.symm

theorem ClaimInv.host (hinv : m.ClaimInv) {s : VmHost}
    (hs : s.resetVmBitmap = m.host.resetVmBitmap)
    (hmask : s.pm.host.data.topologyChangeVmMask = m.topologyMask) :
    ClaimInv { m with host := s } := by
  refine hinv.congr hmask (fun k v => ?_) hinv.working
  cases k with
  | queued => simp only [Holds, hs]
  | _ => rfl

theorem ClaimInv.enter (hinv : m.ClaimInv) (c : Nat) {pc : CallerPc}
    (hpc : pc.claim = none) : (m.enter c pc).ClaimInv := by
  unfold VmMachine.enter
  split
  · next hidle => exact hinv.keep rfl rfl (by rw [hpc, hidle]; rfl)
  · exact hinv

theorem ClaimInv.step (hinv : m.ClaimInv) (call : VmEnv × VmCall)
    (hok : m.RequestChecked call) : (m.step call).ClaimInv := by
  obtain ⟨env, call⟩ := call
  cases call with
  | makeResetVmRequest c => exact hinv.enter c rfl
  | requestVmRestart c =>
    refine hinv.enter c ?_
    unfold Vm.requestVmRestart
    split <;> rfl
  | restartVm c | psci c => exact hinv.enter c rfl
  | caller c => exact hinv.callerStep env c hok
  | idle p => exact hinv.idleStep env p
  | vm => exact hinv.host rfl rfl
  | pm pmEnv =>
    simp only [VmMachine.step]
    split
    · exact hinv
    · next hop =>
      exact hinv.host rfl (pm_step_topology m.host.pm pmEnv (Bool.eq_false_iff.mpr hop))

theorem claimInv_boot (tickrate pcpuNums : Nat) (vcpus : Nat → VcpuCount) (vm : Nat → AcrnVm) :
    (boot tickrate pcpuNums vcpus vm).ClaimInv := by
  have hnone : ∀ k v, ¬ (boot tickrate pcpuNums vcpus vm).Holds k v := by
    intro k v hk
    cases k with
    | caller => exact nomatch hk
    | queued => exact nomatch hk.2.symm.trans (bitmapTest_zero v)
    | idle => exact nomatch hk
  refine ⟨⟨fun v => ⟨fun hbit => ?_, fun ⟨k, hk⟩ => absurd hk (hnone k v)⟩,
    fun v k _ hk => absurd hk (hnone k v)⟩, fun k v hk => absurd hk (hnone k v), nofun⟩
  exact nomatch hbit.2.symm.trans (bitmapTest_zero v)

/-! ### The guarantee -/

/-- The status with which a reset request returns in this step, if it does. -/
def requestResult (m : VmMachine) (call : VmEnv × VmCall) : Option (Nat × Int) :=
  match call.2 with
  | .caller c =>
    let status := (Vm.callerStep call.1 m.host (m.caller c)).2.2
    match m.caller c with
    | .requestBegin _ vmid _ | .requestCheck _ vmid _ | .requestPublish _ vmid
    | .requestEnd vmid => status.map fun st => (vmid, st)
    | _ => none
  | _ => none

/-- What holds of the topology bits in a state. -/
structure ClaimsBalanced (m : VmMachine) : Prop where
  /-- a bit is set exactly while one call, queue or idle thread holds the claim -/
  held : ∀ vmid < 64, bitmapTest vmid m.topologyMask = true ↔ ∃ k, m.Holds k vmid
  unique : ∀ vmid k k', m.Holds k vmid → m.Holds k' vmid → k = k'
  /-- no bit is left when nothing is queued and nothing is being executed -/
  drained : (∀ pcpuId, m.host.resetVmBitmap pcpuId = 0) → (∀ c, m.caller c = .idle) →
    (∀ pcpuId vmid wdtOwned status, m.idle pcpuId ≠ .release vmid wdtOwned status) →
    m.topologyMask = 0

theorem ClaimInv.claimsBalanced (hinv : m.ClaimInv) : m.ClaimsBalanced := by
  have hheld : ∀ vmid < 64, bitmapTest vmid m.topologyMask = true ↔ ∃ k, m.Holds k vmid :=
    fun vmid hlt => ⟨fun hbit => (hinv.balanced.held vmid).mp ⟨hlt, hbit⟩,
      fun hk => ((hinv.balanced.held vmid).mpr hk).2⟩
  refine ⟨hheld, hinv.balanced.unique, fun hqueues hcallers hidle => ?_⟩
  refine BitVec.eq_of_getLsbD_eq fun i hi => ?_
  have hnot : ¬ ∃ k, m.Holds k i := by
    rintro ⟨k, hk⟩
    cases k with
    | caller c =>
      have hc : (m.caller c).claim = some i := hk
      rw [hcallers c] at hc
      exact nomatch hc
    | queued p =>
      have hbit := hk.2
      rw [hqueues p] at hbit
      exact nomatch hbit.symm.trans (bitmapTest_zero i)
    | idle p =>
      have hp : (m.idle p).claim = some i := hk
      cases hpc : m.idle p with
      | release vmid wdtOwned status => exact hidle p vmid wdtOwned status hpc
      | _ => rw [hpc] at hp; exact nomatch hp
  have hclear : bitmapTest i m.topologyMask = false :=
    Bool.eq_false_iff.mpr fun hbit => hnot ((hheld i hi).mp hbit)
  unfold bitmapTest at hclear
  rw [Nat.mod_eq_of_lt hi] at hclear
  rw [hclear]
  simp

/-- A request that returns zero has left its claim in a queue. -/
theorem request_queued {call : VmEnv × VmCall} (hok : m.RequestChecked call)
    (hret : m.requestResult call = some (vmid, 0)) :
    ∃ pcpuId, bitmapTest vmid ((m.step call).host.resetVmBitmap pcpuId) = true := by
  obtain ⟨env, call⟩ := call
  cases call with
  | caller c =>
    simp only [requestResult] at hret
    cases hpc : m.caller c with
    | requestBegin _ v =>
      -- the bit is refused with an error, and taken without a result
      rw [hpc] at hret
      simp only [Vm.callerStep] at hret
      split at hret
      · exact nomatch hret
      unfold beginStep at hret
      rcases begin_cases m.host v with ⟨hstatus, -⟩ | ⟨hstatus, -⟩
      · simp only [if_pos hstatus, Option.map_some, Option.some.injEq, Prod.mk.injEq] at hret
        exact absurd hret.2 hstatus
      · simp [hstatus] at hret
    | requestCheck =>
      have htest := (requestChecked_at hpc).mp hok
      rw [hpc] at hret
      simp only [Vm.callerStep, htest, if_true] at hret
      exact nomatch hret
    | requestPublish pcpuId v =>
      rw [hpc] at hret
      obtain rfl : v = vmid := (Prod.mk.inj (Option.some.inj hret)).1
      refine ⟨pcpuId, ?_⟩
      simp [VmMachine.step, hpc, Vm.callerStep, VmHost.publishReset, bitmapTest_set]
    | requestEnd =>
      rw [hpc] at hret
      exact nomatch (Prod.mk.inj (Option.some.inj hret)).2
    | _ => rw [hpc] at hret; exact nomatch hret
  | _ => exact nomatch hret

/-- A request that returns zero is queued. -/
def QueuesRequest (m : VmMachine) (call : VmEnv × VmCall) : Prop :=
  ∀ vmid, m.requestResult call = some (vmid, 0) →
    ∃ pcpuId, bitmapTest vmid ((m.step call).host.resetVmBitmap pcpuId) = true

/-- If the test of a reset request fails, its claim is lost. -/
theorem ClaimInv.claim_lost (hinv : m.ClaimInv) {env : VmEnv}
    {c pcpuId vmid : Nat} (hpc : m.caller c = .requestCheck pcpuId vmid wdtOwned)
    (hfail : ¬ m.RequestChecked (env, .caller c)) :
    ¬ (m.step (env, .caller c)).ClaimsBalanced := by
  have hclaim : m.Holds (.caller c) vmid := by
    show (m.caller c).claim = some vmid
    rw [hpc]
    rfl
  have hstep : m.step (env, .caller c) = m.afterCaller m.host c .idle := by
    have htest := Bool.eq_false_iff.mpr (fun h => hfail ((requestChecked_at hpc).mpr h))
    simp only [VmMachine.step, hpc, Vm.callerStep, htest]
    rfl
  intro hbal
  rw [hstep] at hbal
  have hlt : vmid < 64 := Nat.lt_trans (hinv.range _ _ hclaim) (by decide)
  have hbit : bitmapTest vmid m.topologyMask = true :=
    ((hinv.balanced.held vmid).mpr ⟨_, hclaim⟩).2
  obtain ⟨k, hk⟩ := (hbal.held vmid hlt).mp hbit
  by_cases heq : k = .caller c
  · subst heq
    exact nomatch (afterCaller_self m m.host c .idle vmid).mp hk
  · have hk' := (afterCaller_other m rfl heq .idle vmid).mp hk
    exact heq (hinv.balanced.unique vmid _ _ hk' hclaim)

/-- **A step keeps the books and queues what it accepts exactly if the request checks out.** -/
theorem ClaimInv.step_iff (hinv : m.ClaimInv) (call : VmEnv × VmCall) :
    (m.step call).ClaimsBalanced ∧ m.QueuesRequest call ↔ m.RequestChecked call := by
  constructor
  · rintro ⟨hbal, -⟩
    by_contra hfail
    obtain ⟨env, call⟩ := call
    cases call with
    | caller c =>
      cases hpc : m.caller c with
      | requestCheck => exact hinv.claim_lost hpc hfail hbal
      | _ => exact hfail (by simp [RequestChecked, requestChecked, hpc])
    | _ => exact hfail rfl
  · intro hok
    exact ⟨(hinv.step call hok).claimsBalanced, fun vmid hret => request_queued hok hret⟩

end VmMachine

/--
**Topology claims.**  Along every run whose reset requests check out, a topology bit is set exactly
while there is one holder of the claim, and a further step keeps it so, and queues a request that
it lets return zero, exactly if it checks out too.
-/
theorem vm_topology_claims (tickrate pcpuNums : Nat) (vcpus : Nat → VcpuCount) (vm : Nat → AcrnVm)
    (calls : List (VmEnv × VmCall))
    (hok : Run.Along VmMachine.step VmMachine.RequestChecked
      (VmMachine.boot tickrate pcpuNums vcpus vm) calls) :
    (Run.exec VmMachine.step (VmMachine.boot tickrate pcpuNums vcpus vm) calls).ClaimsBalanced ∧
      ∀ call, ((Run.exec VmMachine.step (VmMachine.boot tickrate pcpuNums vcpus vm) calls).step
            call).ClaimsBalanced ∧
          (Run.exec VmMachine.step (VmMachine.boot tickrate pcpuNums vcpus vm) calls).QueuesRequest
            call ↔
        (Run.exec VmMachine.step (VmMachine.boot tickrate pcpuNums vcpus vm) calls).RequestChecked
          call := by
  have hinv : (Run.exec VmMachine.step (VmMachine.boot tickrate pcpuNums vcpus vm) calls).ClaimInv :=
    Run.inv_exec (fun m call hm hcall => hm.step call hcall)
      (VmMachine.claimInv_boot tickrate pcpuNums vcpus vm) hok
  exact ⟨hinv.claimsBalanced, hinv.step_iff⟩

/-! ### A restart, and a request that comes too late -/

/-- Everything succeeds. -/
def smooth : VmEnv := ⟨true, true, true, 0, 0, 0, 0, 1⟩

def vmIn (state : VmState) (phase : VmLifecyclePhase) : AcrnVm :=
  ⟨state, ⟨1, 0, 0, phase, .off⟩, 1, 0, false, false⟩

/-- Caller 0 asks pCPU 0 to reset VM 1 and goes on for some steps, then the idle thread does. -/
def resetVm1 (steps idleSteps : Nat) : List (VmEnv × VmCall) :=
  (smooth, .makeResetVmRequest 0 0 1) :: List.replicate steps (smooth, .caller 0) ++
    List.replicate idleSteps (smooth, .idle 0)

def bootVms (vm : AcrnVm) : VmMachine :=
  VmMachine.boot 1 1 (fun _ => ⟨1, Nat.le_of_ble_eq_true rfl⟩) fun _ => vm

theorem vm_topology_claims_reset :
    (Run.exec VmMachine.step (bootVms (vmIn .running .running)) (resetVm1 5 6)).ClaimsBalanced :=
  (vm_topology_claims 1 1 (fun _ => ⟨1, Nat.le_of_ble_eq_true rfl⟩)
    (fun _ => vmIn .running .running) (resetVm1 5 6) (by decide)).1

/-- The state in which the request looks at a VM that is powered off. -/
def lateRequest : VmMachine :=
  Run.exec VmMachine.step (bootVms (vmIn .poweredOff .off)) (resetVm1 1 0)

/-- The request returns zero, nothing is queued, and the bit is set for good. -/
theorem vm_topology_claim_leaked :
    lateRequest.requestResult (smooth, .caller 0) = some (1, 0) ∧
      (∀ pcpuId, (lateRequest.step (smooth, .caller 0)).host.resetVmBitmap pcpuId = 0) ∧
      (∀ c, (lateRequest.step (smooth, .caller 0)).caller c = .idle) ∧
      (∀ pcpuId, (lateRequest.step (smooth, .caller 0)).idle pcpuId = .out) ∧
      (lateRequest.step (smooth, .caller 0)).topologyMask = 2#64 := by
  refine ⟨by decide, fun _ => rfl, fun c => ?_, fun _ => rfl, by decide⟩
  cases c with
  | zero => decide
  | succ c => rfl

end BeauOs.Vm
