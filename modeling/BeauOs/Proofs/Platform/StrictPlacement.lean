/-
The strict placement contract.

`StrictPlacement` says what a placement should be, in terms of which vCPU is on which pCPU.
`accepts_iff_strictPlacement` shows that the boot accepts a tree with strict placement exactly if
its placement is of this kind.

The validator counts.  What its counters are after some of the VMs is `Summary`, and a VM is refused
exactly if it does not fit to the ones before it (`placeVm_spec`).  After all VMs nothing is left to
be found on a shared pCPU: a parsed affinity has no repetition, so the vCPUs of a pCPU and the VMs
in its mask are equally many, and at most sixteen.
-/
import Mathlib.Data.List.Pairwise
import BeauOs.Platform.Placement

namespace BeauOs.Platform

open Function

open BeauOs.Sched (configMaxVmNum)

/-! ### The contract -/

/-- The configured VMs with their ordered affinities. -/
def PlatformTree.vms (tree : PlatformTree) : List (Nat × List Nat) :=
  (List.range configMaxVmNum).filterMap fun vmId =>
    (tree.vm vmId).map fun affinity => (vmId, affinity.cells)

def InPool (pool : BitVec 64) (pcpuId : Nat) : Prop := pcpuId < 64 ∧ bitmapTest pcpuId pool = true

instance (pool : BitVec 64) (pcpuId : Nat) : Decidable (InPool pool pcpuId) :=
  inferInstanceAs (Decidable (_ ∧ _))

def PlatformTree.Placed (tree : PlatformTree) (vmId idx pcpuId : Nat) : Prop :=
  ∃ cells, (vmId, cells) ∈ tree.vms ∧ cells[idx]? = some pcpuId

def vcpusOn (vms : List (Nat × List Nat)) (pcpuId : Nat) : Nat :=
  (vms.map fun vm => vm.2.count pcpuId).sum

/-- The pCPUs of a pool that carry a vCPU 0, once for each VM. -/
def bspsOn (pool : BitVec 64) (vms : List (Nat × List Nat)) : List Nat :=
  (vms.filterMap fun vm => vm.2.head?).filter fun pcpuId => InPool pool pcpuId

def poolPcpus (pool : BitVec 64) : List Nat := (List.range 64).filter fun pcpuId => InPool pool pcpuId

/-- **The contract.** -/
structure StrictPlacement (limit : PcpuLimit) (tree : PlatformTree) : Prop where
  disjoint : ∀ pcpuId, ¬(InPool tree.pools.exclusive pcpuId ∧ InPool tree.pools.shared pcpuId)
  cover : ∀ pcpuId, InPool tree.pools.exclusive pcpuId ∨ InPool tree.pools.shared pcpuId ↔
    pcpuId < limit.maxPcpuNum
  exclusive_bsp : ∀ vmId idx pcpuId, tree.Placed vmId idx pcpuId →
    InPool tree.pools.exclusive pcpuId → idx = 0
  exclusive_alone : ∀ vmId vmId' idx idx' pcpuId, tree.Placed vmId idx pcpuId →
    tree.Placed vmId' idx' pcpuId → InPool tree.pools.exclusive pcpuId → vmId = vmId' ∧ idx = idx'
  others_shared : ∀ vmId idx pcpuId, tree.Placed vmId idx pcpuId →
    ¬InPool tree.pools.exclusive pcpuId → InPool tree.pools.shared pcpuId
  shared_once : ∀ vmId idx idx' pcpuId, tree.Placed vmId idx pcpuId →
    tree.Placed vmId idx' pcpuId → InPool tree.pools.shared pcpuId → idx = idx'
  shared_load : ∀ pcpuId, InPool tree.pools.shared pcpuId →
    vcpusOn tree.vms pcpuId ≤ tree.vms.length
  bsps : (bspsOn tree.pools.exclusive tree.vms).length =
    min tree.vms.length (poolPcpus tree.pools.exclusive).length

/-! ### Masks -/

section Masks

variable {limit : PcpuLimit} {a b : BitVec 64}

theorem bitmap_ext_iff : a = b ↔ ∀ nr < 64, bitmapTest nr a = bitmapTest nr b := by
  constructor
  · rintro rfl _ _
    rfl
  · intro h
    refine BitVec.eq_of_getLsbD_eq fun nr hnr => ?_
    have := h nr hnr
    rwa [bitmapTest, bitmapTest, Nat.mod_eq_of_lt hnr] at this

theorem bitmapTest_and (nr : Nat) : bitmapTest nr (a &&& b) = (bitmapTest nr a && bitmapTest nr b) :=
  BitVec.getLsbD_and

theorem bitmapTest_or (nr : Nat) : bitmapTest nr (a ||| b) = (bitmapTest nr a || bitmapTest nr b) :=
  BitVec.getLsbD_or

theorem bitmapTest_allMask (limit : PcpuLimit) {nr : Nat} (hnr : nr < 64) :
    bitmapTest nr (dtsAllPcpusMask limit) = decide (nr < limit.maxPcpuNum) := by
  unfold dtsAllPcpusMask bitmapTest
  rw [Nat.mod_eq_of_lt hnr]
  split
  next hge =>
    rw [BitVec.getLsbD_allOnes, decide_eq_decide]
    omega
  next hlt =>
    have hn : limit.maxPcpuNum < 64 := by omega
    have hpow : 2 ^ limit.maxPcpuNum < 2 ^ 64 := Nat.pow_lt_pow_right (by decide) hn
    have hpos : 0 < 2 ^ limit.maxPcpuNum := Nat.two_pow_pos _
    have hmask : (1#64 <<< limit.maxPcpuNum - 1#64) =
        BitVec.ofNat 64 (2 ^ limit.maxPcpuNum - 1) := by
      apply BitVec.eq_of_toNat_eq
      rw [BitVec.toNat_sub, BitVec.toNat_shiftLeft, Nat.shiftLeft_eq,
        show (1#64).toNat = 1 from rfl, Nat.one_mul, BitVec.toNat_ofNat, Nat.mod_eq_of_lt hpow]
      omega
    rw [hmask, BitVec.getLsbD_ofNat, Nat.testBit_two_pow_sub_one]
    simp [hnr]

structure Partition (limit : PcpuLimit) (pools : SchedPools) : Prop where
  disjoint : ∀ pcpuId, ¬(InPool pools.exclusive pcpuId ∧ InPool pools.shared pcpuId)
  cover : ∀ pcpuId,
    InPool pools.exclusive pcpuId ∨ InPool pools.shared pcpuId ↔ pcpuId < limit.maxPcpuNum

theorem validateSchedConfig_iff {pools : SchedPools} :
    dtsValidateSchedConfig limit pools = true ↔ Partition limit pools := by
  have hand : pools.exclusive &&& pools.shared = 0#64 ↔
      ∀ nr < 64, ¬(bitmapTest nr pools.exclusive = true ∧ bitmapTest nr pools.shared = true) := by
    rw [bitmap_ext_iff]
    refine forall₂_congr fun nr _ => ?_
    rw [bitmapTest_and, bitmapTest_zero, Bool.and_eq_false_iff, not_and_or, Bool.not_eq_true,
      Bool.not_eq_true]
  have hor : pools.exclusive ||| pools.shared = dtsAllPcpusMask limit ↔
      ∀ nr < 64, (bitmapTest nr pools.exclusive = true ∨ bitmapTest nr pools.shared = true ↔
        nr < limit.maxPcpuNum) := by
    rw [bitmap_ext_iff]
    refine forall₂_congr fun nr hnr => ?_
    rw [bitmapTest_or, bitmapTest_allMask limit hnr, Bool.eq_iff_iff, Bool.or_eq_true,
      decide_eq_true_iff]
  -- the mask of all pCPUs has a bit and nothing beside itself
  have hzero : ¬(dtsAllPcpusMask limit = 0#64) := by
    intro h
    have htest := bitmapTest_allMask limit (Nat.zero_lt_succ 63)
    rw [h, bitmapTest_zero, eq_comm, decide_eq_false_iff_not] at htest
    exact htest limit.pos
  have hchecks : dtsValidateSchedConfig limit pools = true ↔
      pools.exclusive &&& pools.shared = 0#64 ∧
        pools.exclusive ||| pools.shared = dtsAllPcpusMask limit := by
    unfold dtsValidateSchedConfig
    dsimp only
    constructor
    · intro h
      split_ifs at h with h₁ h₂ h₃
      rw [not_or, not_not] at h₁
      exact ⟨h₁.1, not_not.mp h₃⟩
    · rintro ⟨hdisj, hall⟩
      rw [if_neg, if_neg, if_neg]
      · exact not_not.mpr hall
      · rintro ⟨he, hs⟩
        rw [he, hs] at hall
        exact hzero (hall.symm.trans (by decide))
      · rw [not_or, not_not, not_not, hall]
        exact ⟨hdisj, BitVec.and_not_self _⟩
  rw [hchecks, hand, hor]
  constructor
  · rintro ⟨hdisj, hcover⟩
    refine ⟨fun pcpuId ⟨he, hs⟩ => hdisj pcpuId he.1 ⟨he.2, hs.2⟩, fun pcpuId => ?_⟩
    by_cases hlt : pcpuId < 64
    · rw [← hcover pcpuId hlt]
      simp [InPool, hlt]
    · have := limit.le
      refine iff_of_false ?_ (by omega)
      rintro (h | h) <;> exact hlt h.1
  · rintro ⟨hdisj, hcover⟩
    refine ⟨fun nr hnr ⟨he, hs⟩ => hdisj nr ⟨⟨hnr, he⟩, hnr, hs⟩, fun nr hnr => ?_⟩
    rw [← hcover nr]
    simp [InPool, hnr]

end Masks

/-! ### Parsing -/

section Parsing

variable {limit : PcpuLimit}

structure Parses (limit : PcpuLimit) (cells : List Nat) : Prop where
  range : ∀ pcpuId ∈ cells, pcpuId < limit.maxPcpuNum
  nodup : cells.Nodup

theorem parseAffinityCells_spec :
    ∀ {cells order : List Nat} {affinity : BitVec 64},
      (∀ pcpuId < 64, bitmapTest pcpuId affinity = true ↔ pcpuId ∈ order) →
      (Parses limit cells ∧ (∀ pcpuId ∈ cells, pcpuId ∉ order) ∧
          ∃ affinity', parseAffinityCells limit cells order affinity =
            some (order ++ cells, affinity') ∧
          ∀ pcpuId < 64, bitmapTest pcpuId affinity' = true ↔ pcpuId ∈ order ++ cells) ∨
        (¬(Parses limit cells ∧ ∀ pcpuId ∈ cells, pcpuId ∉ order) ∧
          parseAffinityCells limit cells order affinity = none) := by
  intro cells
  induction cells with
  | nil =>
    intro order affinity hmem
    exact .inl ⟨⟨by simp, List.nodup_nil⟩, by simp, affinity, by simp [parseAffinityCells], by
      simpa using hmem⟩
  | cons pcpuId rest ih =>
    intro order affinity hmem
    rw [parseAffinityCells]
    split
    next hge =>
      refine .inr ⟨fun ⟨h, _⟩ => ?_, rfl⟩
      exact absurd (h.range pcpuId List.mem_cons_self) (by omega)
    next hlt =>
    have h64 : pcpuId < 64 := by have := limit.le; omega
    split
    next hdup =>
      refine .inr ⟨fun ⟨_, h⟩ => ?_, rfl⟩
      exact h pcpuId List.mem_cons_self ((hmem pcpuId h64).mp hdup)
    next hnew =>
    have hfresh : pcpuId ∉ order := fun h => hnew ((hmem pcpuId h64).mpr h)
    have hmem' : ∀ nr < 64,
        bitmapTest nr (bitmapSet pcpuId affinity) = true ↔ nr ∈ order ++ [pcpuId] := by
      intro nr hnr
      rw [List.mem_append, List.mem_singleton]
      by_cases heq : nr = pcpuId
      · subst heq
        simp [bitmapTest_set]
      · rw [bitmapTest_set_of_ne (by omega), hmem nr hnr]
        simp [heq]
    rcases ih hmem' with ⟨hparses, hout, affinity', hresult, hbits⟩ | ⟨hbad, hresult⟩
    · have hrest : ∀ nr ∈ rest, nr ∉ order ∧ nr ≠ pcpuId := by
        intro nr hnr
        have := hout nr hnr
        rw [List.mem_append, List.mem_singleton, not_or] at this
        exact this
      refine .inl ⟨⟨List.forall_mem_cons.mpr ⟨by omega, hparses.range⟩,
        List.nodup_cons.mpr ⟨fun h => (hrest pcpuId h).2 rfl, hparses.nodup⟩⟩,
        List.forall_mem_cons.mpr ⟨hfresh, fun nr hnr => (hrest nr hnr).1⟩, affinity', ?_, ?_⟩
      · rw [hresult, List.append_assoc]
        rfl
      · intro nr hnr
        rw [hbits nr hnr, List.append_assoc]
        rfl
    · refine .inr ⟨fun ⟨hparses, hout⟩ => hbad ?_, hresult⟩
      obtain ⟨hnot, hnodup⟩ := List.nodup_cons.mp hparses.nodup
      refine ⟨⟨fun nr hnr => hparses.range nr (List.mem_cons_of_mem _ hnr), hnodup⟩, ?_⟩
      intro nr hnr
      rw [List.mem_append, List.mem_singleton, not_or]
      exact ⟨hout nr (List.mem_cons_of_mem _ hnr), fun heq => hnot (heq ▸ hnr)⟩

theorem parseAffinityCells_nil (limit : PcpuLimit) (cells : List Nat) :
    (Parses limit cells ∧ ∃ mask, parseAffinityCells limit cells [] 0#64 = some (cells, mask) ∧
        ∀ pcpuId < 64, bitmapTest pcpuId mask = true ↔ pcpuId ∈ cells) ∨
      (¬Parses limit cells ∧ parseAffinityCells limit cells [] 0#64 = none) := by
  have hspec := @parseAffinityCells_spec limit cells [] 0#64 (by simp [bitmapTest_zero])
  simpa using hspec

theorem Parses.length_le {cells : List Nat} (h : Parses limit cells) :
    cells.length ≤ limit.maxPcpuNum := by
  have hsub : cells ⊆ List.range limit.maxPcpuNum :=
    fun pcpuId hmem => List.mem_range.mpr (h.range pcpuId hmem)
  have hlen := (List.subperm_of_subset h.nodup hsub).length_le
  rwa [List.length_range] at hlen

/-- What a slot of the table holds after parsing. -/
theorem dtsParseVm_some {tree : PlatformTree} {vmId : Nat} {affinity : CpuAffinity}
    (hvm : tree.vm vmId = some affinity) (h : Parses limit affinity.cells) :
    ∃ mask, dtsParseVm limit tree vmId = some ⟨mask, affinity.cells⟩ ∧ mask ≠ 0#64 := by
  unfold dtsParseVm dtsParseCpuAffinity
  rw [hvm]
  dsimp only
  rw [if_neg (by simp [CpuAffinity.cells]), if_neg (Nat.not_lt.mpr h.length_le)]
  rcases parseAffinityCells_nil limit affinity.cells with ⟨-, mask, hresult, hbits⟩ | ⟨hbad, -⟩
  · refine ⟨mask, by rw [hresult]; rfl, fun hzero => ?_⟩
    have hmem : affinity.vcpu0 ∈ affinity.cells := List.mem_cons_self
    have hlt : affinity.vcpu0 < 64 := Nat.lt_of_lt_of_le (h.range _ hmem) limit.le
    have hbit := (hbits _ hlt).mpr hmem
    rw [hzero, bitmapTest_zero] at hbit
    exact Bool.false_ne_true hbit
  · exact absurd h hbad

theorem dtsParseVm_isSome {tree : PlatformTree} {vmId : Nat} :
    (dtsParseVm limit tree vmId).isSome = true ↔
      ∀ affinity, tree.vm vmId = some affinity → Parses limit affinity.cells := by
  constructor
  · intro hsome affinity hvm
    unfold dtsParseVm dtsParseCpuAffinity at hsome
    rw [hvm] at hsome
    dsimp only at hsome
    rcases parseAffinityCells_nil limit affinity.cells with ⟨hparses, -⟩ | ⟨-, hresult⟩
    · exact hparses
    · rw [hresult, ite_self, ite_self] at hsome
      exact absurd hsome Bool.false_ne_true
  · intro h
    cases hvm : tree.vm vmId with
    | none =>
      unfold dtsParseVm
      rw [hvm]
      rfl
    | some affinity =>
      obtain ⟨mask, hresult, -⟩ := dtsParseVm_some hvm (h affinity hvm)
      rw [hresult]
      rfl

end Parsing

/-! ### Counting -/

section Counting

variable {pools : SchedPools} {vms : List (Nat × List Nat)} {st : PlacementState}

/-- What the counters are after the given VMs. -/
structure Summary (pools : SchedPools) (vms : List (Nat × List Nat)) (st : PlacementState) :
    Prop where
  configured : st.configuredVmCount = vms.length
  exclusive : ∀ pcpuId, InPool pools.exclusive pcpuId →
    st.exclusiveVcpuCount pcpuId = if pcpuId ∈ bspsOn pools.exclusive vms then 1 else 0
  bspMask : ∀ pcpuId < 64,
    bitmapTest pcpuId st.exclusiveBspMask = true ↔ pcpuId ∈ bspsOn pools.exclusive vms
  bspCount : st.exclusiveBspCount = (bspsOn pools.exclusive vms).length
  shared : ∀ pcpuId < 64, st.sharedVcpuCount pcpuId =
    if InPool pools.exclusive pcpuId then 0 else vcpusOn vms pcpuId % 256
  masks : ∀ pcpuId < 64, ∀ vmId < 64, bitmapTest vmId (st.sharedVmMasks pcpuId) = true ↔
    ¬InPool pools.exclusive pcpuId ∧ ∃ cells, (vmId, cells) ∈ vms ∧ pcpuId ∈ cells

structure VmFits (pools : SchedPools) (vms : List (Nat × List Nat)) (vcpu0 : Nat)
    (others : List Nat) : Prop where
  bsp : InPool pools.exclusive vcpu0 ∨ InPool pools.shared vcpu0
  bsp_alone : InPool pools.exclusive vcpu0 → vcpu0 ∉ bspsOn pools.exclusive vms
  others : ∀ pcpuId ∈ others, ¬InPool pools.exclusive pcpuId ∧ InPool pools.shared pcpuId

variable {pcpuId vmId vcpu0 : Nat} {others : List Nat}

theorem inPool_iff {pool : BitVec 64} (h : pcpuId < 64) :
    InPool pool pcpuId ↔ bitmapTest pcpuId pool = true := by simp [InPool, h]

def addShareds (vmId : Nat) (pcpuIds : List Nat) (st : PlacementState) : PlacementState :=
  pcpuIds.foldl (fun st pcpuId => addShared vmId pcpuId st) st

theorem addShareds_count (vmId pcpuId : Nat) :
    ∀ (pcpuIds : List Nat) (st : PlacementState),
      (addShareds vmId pcpuIds st).sharedVcpuCount pcpuId % 256 =
        (st.sharedVcpuCount pcpuId + pcpuIds.count pcpuId) % 256 := by
  intro pcpuIds
  induction pcpuIds with
  | nil => exact fun st => rfl
  | cons head rest ih =>
    intro st
    refine (ih (addShared vmId head st)).trans ?_
    show (Function.update st.sharedVcpuCount head _ pcpuId + _) % 256 = _
    by_cases heq : pcpuId = head
    · subst heq
      rw [update_self, List.count_cons_self]
      omega
    · rw [update_of_ne heq, List.count_cons_of_ne (Ne.symm heq)]

/-- A counter that is reached has eight bits. -/
theorem addShareds_count_lt (vmId : Nat) :
    ∀ (pcpuIds : List Nat) {st : PlacementState}, st.sharedVcpuCount pcpuId < 256 →
      (addShareds vmId pcpuIds st).sharedVcpuCount pcpuId < 256 := by
  intro pcpuIds
  induction pcpuIds with
  | nil => exact fun h => h
  | cons head rest ih =>
    intro st h
    refine ih ?_
    show Function.update st.sharedVcpuCount head _ pcpuId < 256
    by_cases heq : pcpuId = head
    · subst heq
      rw [update_self]
      exact Nat.mod_lt _ (by decide)
    · rwa [update_of_ne heq]

theorem addShareds_masks {nr : Nat} (hvm : vmId < 64) (hnr : nr < 64) :
    ∀ (pcpuIds : List Nat) (st : PlacementState),
      bitmapTest nr ((addShareds vmId pcpuIds st).sharedVmMasks pcpuId) = true ↔
        bitmapTest nr (st.sharedVmMasks pcpuId) = true ∨ nr = vmId ∧ pcpuId ∈ pcpuIds := by
  intro pcpuIds
  induction pcpuIds with
  | nil => exact fun st => by simp [addShareds]
  | cons head rest ih =>
    intro st
    refine (ih (addShared vmId head st)).trans ?_
    have hmask : (addShared vmId head st).sharedVmMasks =
        Function.update st.sharedVmMasks head (bitmapSet vmId (st.sharedVmMasks head)) :=
      if_pos hvm
    rw [hmask, List.mem_cons]
    by_cases heq : pcpuId = head
    · subst heq
      rw [update_self]
      by_cases hself : nr = vmId
      · subst hself
        simp [bitmapTest_set]
      · rw [bitmapTest_set_of_ne (by omega)]
        simp [hself]
    · rw [update_of_ne heq]
      simp [heq]

theorem addShareds_rest (vmId : Nat) :
    ∀ (pcpuIds : List Nat) (st : PlacementState),
      (addShareds vmId pcpuIds st).configuredVmCount = st.configuredVmCount ∧
        (addShareds vmId pcpuIds st).exclusiveVcpuCount = st.exclusiveVcpuCount ∧
        (addShareds vmId pcpuIds st).exclusiveBspMask = st.exclusiveBspMask ∧
        (addShareds vmId pcpuIds st).exclusiveBspCount = st.exclusiveBspCount := by
  intro pcpuIds
  induction pcpuIds with
  | nil => exact fun st => ⟨rfl, rfl, rfl, rfl⟩
  | cons head rest ih => exact fun st => ih (addShared vmId head st)

theorem placeVcpus_others (vmId : Nat) :
    ∀ {others : List Nat} (idx : Nat) (st : PlacementState), (∀ pcpuId ∈ others, pcpuId < 64) →
      placeVcpus pools vmId others (idx + 1) st =
        if ∀ pcpuId ∈ others, ¬InPool pools.exclusive pcpuId ∧ InPool pools.shared pcpuId then
          some (addShareds vmId others st) else none := by
  intro others
  induction others with
  | nil => exact fun idx st _ => by simp [placeVcpus, addShareds]
  | cons head rest ih =>
    intro idx st hrange
    obtain ⟨hhead, hrest⟩ := List.forall_mem_cons.mp hrange
    have hif : (∀ pcpuId ∈ head :: rest,
        ¬InPool pools.exclusive pcpuId ∧ InPool pools.shared pcpuId) ↔
        (¬InPool pools.exclusive head ∧ InPool pools.shared head) ∧
          ∀ pcpuId ∈ rest, ¬InPool pools.exclusive pcpuId ∧ InPool pools.shared pcpuId :=
      List.forall_mem_cons
    rw [placeVcpus, placeVcpu]
    simp only [hif, inPool_iff hhead]
    cases hexcl : bitmapTest head pools.exclusive with
    | true => simp
    | false =>
      cases hshared : bitmapTest head pools.shared with
      | false => simp
      | true =>
        simp only [Bool.false_eq_true, if_false, if_true, Option.bind_some, not_false_eq_true,
          true_and]
        exact ih (idx + 1) (addShared vmId head st) hrest

theorem bspsOn_append {pool : BitVec 64} :
    bspsOn pool (vms ++ [(vmId, vcpu0 :: others)]) =
      bspsOn pool vms ++ if InPool pool vcpu0 then [vcpu0] else [] := by
  unfold bspsOn
  rw [List.filterMap_append, List.filter_append]
  by_cases h : InPool pool vcpu0 <;> simp [h]

theorem vcpusOn_append {cells : List Nat} :
    vcpusOn (vms ++ [(vmId, cells)]) pcpuId = vcpusOn vms pcpuId + cells.count pcpuId := by
  simp [vcpusOn]

/-- The counters after one more VM, once vCPU 0 is accounted for. -/
theorem Summary.add (h : Summary pools vms st) (hvm : vmId < 64)
    (hfits : VmFits pools vms vcpu0 others) {st' : PlacementState} {shareds : List Nat}
    (hconf : st'.configuredVmCount = st.configuredVmCount + 1)
    (hcount : st'.sharedVcpuCount = st.sharedVcpuCount)
    (hmasks : st'.sharedVmMasks = st.sharedVmMasks)
    (hbsp : (InPool pools.exclusive vcpu0 ∧ shareds = others ∧
      st'.exclusiveVcpuCount = Function.update st.exclusiveVcpuCount vcpu0 1 ∧
      st'.exclusiveBspMask = bitmapSet vcpu0 st.exclusiveBspMask ∧
      st'.exclusiveBspCount = st.exclusiveBspCount + 1) ∨
      (¬InPool pools.exclusive vcpu0 ∧ shareds = vcpu0 :: others ∧
      st'.exclusiveVcpuCount = st.exclusiveVcpuCount ∧
      st'.exclusiveBspMask = st.exclusiveBspMask ∧ st'.exclusiveBspCount = st.exclusiveBspCount)) :
    Summary pools (vms ++ [(vmId, vcpu0 :: others)]) (addShareds vmId shareds st') := by
  obtain ⟨hc, he, hm, hb⟩ := addShareds_rest vmId shareds st'
  -- on a pCPU that is not exclusive all vCPUs of the VM count as shared ones
  have hshareds : ∀ pcpuId, ¬InPool pools.exclusive pcpuId →
      shareds.count pcpuId = (vcpu0 :: others).count pcpuId ∧
        (pcpuId ∈ shareds ↔ pcpuId ∈ vcpu0 :: others) := by
    intro pcpuId hnot
    rcases hbsp with ⟨hin, rfl, -⟩ | ⟨-, rfl, -⟩
    · have hne : vcpu0 ≠ pcpuId := fun heq => hnot (heq ▸ hin)
      exact ⟨(List.count_cons_of_ne hne).symm, by simp [hne.symm]⟩
    · exact ⟨rfl, Iff.rfl⟩
  have hnone : ∀ pcpuId, InPool pools.exclusive pcpuId → pcpuId ∉ shareds := by
    intro pcpuId hin hmem
    rcases hbsp with ⟨-, rfl, -⟩ | ⟨hnot, rfl, -⟩
    · exact (hfits.others pcpuId hmem).1 hin
    · rcases List.mem_cons.mp hmem with rfl | hmem
      · exact hnot hin
      · exact (hfits.others pcpuId hmem).1 hin
  refine ⟨?_, ?_, ?_, ?_, ?_, ?_⟩
  · rw [hc, hconf, h.configured, List.length_append]
    rfl
  · intro pcpuId hin
    rw [he, bspsOn_append]
    rcases hbsp with ⟨hself, -, hcnt, -⟩ | ⟨hself, -, hcnt, -⟩
    · rw [hcnt, if_pos hself]
      by_cases heq : pcpuId = vcpu0
      · subst heq
        simp
      · rw [update_of_ne heq, h.exclusive pcpuId hin]
        simp [heq]
    · rw [hcnt, if_neg hself, List.append_nil, h.exclusive pcpuId hin]
  · intro pcpuId hlt
    rw [hm, bspsOn_append]
    rcases hbsp with ⟨hself, -, -, hmask, -⟩ | ⟨hself, -, -, hmask, -⟩
    · rw [hmask, if_pos hself, List.mem_append, List.mem_singleton, ← h.bspMask pcpuId hlt]
      by_cases heq : pcpuId = vcpu0
      · subst heq
        simp [bitmapTest_set]
      · have hvcpu0 := hself.1
        rw [bitmapTest_set_of_ne (by omega)]
        simp [heq]
    · rw [hmask, if_neg hself, List.append_nil]
      exact h.bspMask pcpuId hlt
  · rw [hb, bspsOn_append, List.length_append, ← h.bspCount]
    rcases hbsp with ⟨hself, -, -, -, hcnt⟩ | ⟨hself, -, -, -, hcnt⟩
    · rw [hcnt, if_pos hself]
      rfl
    · rw [hcnt, if_neg hself]
      rfl
  · intro pcpuId hlt
    have hold := h.shared pcpuId hlt
    have hbound : st'.sharedVcpuCount pcpuId < 256 := by
      rw [hcount, hold]
      split
      · decide
      · exact Nat.mod_lt _ (by decide)
    have hsum := addShareds_count vmId pcpuId shareds st'
    rw [Nat.mod_eq_of_lt (addShareds_count_lt vmId shareds hbound), hcount, hold] at hsum
    rw [hsum, vcpusOn_append]
    by_cases hin : InPool pools.exclusive pcpuId
    · rw [if_pos hin, if_pos hin, List.count_eq_zero_of_not_mem (hnone pcpuId hin)]
    · rw [if_neg hin, if_neg hin, (hshareds pcpuId hin).1, Nat.mod_add_mod]
  · intro pcpuId hlt nr hnr
    rw [addShareds_masks hvm hnr, hmasks, h.masks pcpuId hlt nr hnr]
    by_cases hin : InPool pools.exclusive pcpuId
    · simp [hin, hnone pcpuId hin]
    simp only [hin, not_false_eq_true, true_and, (hshareds pcpuId hin).2, List.mem_append,
      List.mem_singleton, Prod.mk.injEq]
    constructor
    · rintro (⟨cells, hmem, hp⟩ | ⟨rfl, hp⟩)
      · exact ⟨cells, .inl hmem, hp⟩
      · exact ⟨_, .inr ⟨rfl, rfl⟩, hp⟩
    · rintro ⟨cells, hmem | ⟨rfl, rfl⟩, hp⟩
      · exact .inl ⟨cells, hmem, hp⟩
      · exact .inr ⟨rfl, hp⟩

/-- **One VM.**  It is refused exactly if it does not fit. -/
theorem placeVm_spec (h : Summary pools vms st) {mask : BitVec 64} (hvm : vmId < 64)
    (hrange : ∀ pcpuId ∈ vcpu0 :: others, pcpuId < 64) (hmask : mask ≠ 0#64) :
    (VmFits pools vms vcpu0 others ∧
        ∃ st', placeVm pools vmId ⟨mask, vcpu0 :: others⟩ st = some st' ∧
          Summary pools (vms ++ [(vmId, vcpu0 :: others)]) st') ∨
      (¬VmFits pools vms vcpu0 others ∧
        placeVm pools vmId ⟨mask, vcpu0 :: others⟩ st = none) := by
  obtain ⟨h0, hothers⟩ := List.forall_mem_cons.mp hrange
  unfold placeVm
  rw [if_neg hmask]
  dsimp only
  unfold placeBsp
  by_cases hexcl : InPool pools.exclusive vcpu0
  · rw [if_pos ((inPool_iff h0).mp hexcl)]
    by_cases hdup : vcpu0 ∈ bspsOn pools.exclusive vms
    · rw [if_pos ((h.bspMask vcpu0 h0).mpr hdup)]
      exact .inr ⟨fun hfits => hfits.bsp_alone hexcl hdup, rfl⟩
    rw [if_neg (fun hbit => hdup ((h.bspMask vcpu0 h0).mp hbit)), Option.bind_some, placeVcpus,
      placeVcpu, if_pos ((inPool_iff h0).mp hexcl), if_neg (by simp)]
    have hcount : st.exclusiveVcpuCount vcpu0 = 0 := by
      rw [h.exclusive vcpu0 hexcl, if_neg hdup]
    dsimp only
    rw [hcount, if_neg (by decide), Option.bind_some, placeVcpus_others vmId 0 _ hothers]
    split
    next hall =>
      refine .inl ⟨⟨.inl hexcl, fun _ => hdup, hall⟩, _, rfl, ?_⟩
      exact h.add hvm ⟨.inl hexcl, fun _ => hdup, hall⟩ rfl rfl rfl
        (.inl ⟨hexcl, rfl, rfl, rfl, rfl⟩)
    next hbad => exact .inr ⟨fun hfits => hbad hfits.others, rfl⟩
  · rw [if_neg (fun hbit => hexcl ((inPool_iff h0).mpr hbit))]
    by_cases hshared : InPool pools.shared vcpu0
    · have hbit := (inPool_iff h0).mp hshared
      rw [hbit, if_neg (by decide), Option.bind_some, placeVcpus, placeVcpu,
        if_neg (fun hbit => hexcl ((inPool_iff h0).mpr hbit)), if_pos hbit, Option.bind_some,
        placeVcpus_others vmId 0 _ hothers]
      split
      next hall =>
        refine .inl ⟨⟨.inr hshared, fun hin => absurd hin hexcl, hall⟩, _, rfl, ?_⟩
        show Summary pools _ (addShareds vmId (vcpu0 :: others)
          { st with configuredVmCount := st.configuredVmCount + 1 })
        exact h.add hvm ⟨.inr hshared, fun hin => absurd hin hexcl, hall⟩ rfl rfl rfl
          (.inr ⟨hexcl, rfl, rfl, rfl, rfl⟩)
      next hbad => exact .inr ⟨fun hfits => hbad hfits.others, rfl⟩
    · have hbit : bitmapTest vcpu0 pools.shared = false :=
        Bool.eq_false_iff.mpr fun hbit => hshared ((inPool_iff h0).mpr hbit)
      rw [if_pos hbit]
      exact .inr ⟨fun hfits => hfits.bsp.elim hexcl hshared, rfl⟩

end Counting

/-! ### All VMs -/

section AllVms

variable {limit : PcpuLimit} {pools : SchedPools} {tree : PlatformTree}
  {vms done : List (Nat × List Nat)}

def PlatformTree.vmsOf (tree : PlatformTree) (vmIds : List Nat) : List (Nat × List Nat) :=
  vmIds.filterMap fun vmId => (tree.vm vmId).map fun affinity => (vmId, affinity.cells)

def FitsFrom (pools : SchedPools) : List (Nat × List Nat) → List (Nat × List Nat) → Prop
  | _, [] => True
  | _, (_, []) :: _ => False
  | done, (vmId, vcpu0 :: others) :: rest =>
    VmFits pools done vcpu0 others ∧ FitsFrom pools (done ++ [(vmId, vcpu0 :: others)]) rest

theorem placeVms_spec :
    ∀ {vmIds : List Nat} {done : List (Nat × List Nat)} {st : PlacementState},
      (∀ vmId ∈ vmIds, vmId < 64 ∧
        ∀ affinity, tree.vm vmId = some affinity → Parses limit affinity.cells) →
      Summary pools done st →
      (FitsFrom pools done (tree.vmsOf vmIds) ∧ ∃ st',
        placeVms pools (fun vmId => (dtsParseVm limit tree vmId).getD .zero) vmIds st = some st' ∧
          Summary pools (done ++ tree.vmsOf vmIds) st') ∨
      (¬FitsFrom pools done (tree.vmsOf vmIds) ∧
        placeVms pools (fun vmId => (dtsParseVm limit tree vmId).getD .zero) vmIds st = none) := by
  intro vmIds
  induction vmIds with
  | nil =>
    intro done st _ hsummary
    exact .inl ⟨trivial, st, rfl, by simpa [PlatformTree.vmsOf] using hsummary⟩
  | cons vmId rest ih =>
    intro done st hparses hsummary
    obtain ⟨⟨hvm, hself⟩, hrest⟩ := List.forall_mem_cons.mp hparses
    rw [placeVms]
    cases hnode : tree.vm vmId with
    | none =>
      have hparsed : dtsParseVm limit tree vmId = some .zero := by
        unfold dtsParseVm
        rw [hnode]
      have hvms : tree.vmsOf (vmId :: rest) = tree.vmsOf rest := by
        simp [PlatformTree.vmsOf, hnode]
      rw [hparsed, hvms]
      exact ih hrest hsummary
    | some affinity =>
      have hp := hself affinity hnode
      obtain ⟨mask, hparsed, hmask⟩ := dtsParseVm_some hnode hp
      have hvms : tree.vmsOf (vmId :: rest) =
          (vmId, affinity.vcpu0 :: affinity.others) :: tree.vmsOf rest := by
        simp [PlatformTree.vmsOf, hnode, CpuAffinity.cells]
      have hrange : ∀ pcpuId ∈ affinity.vcpu0 :: affinity.others, pcpuId < 64 :=
        fun pcpuId hmem => Nat.lt_of_lt_of_le (hp.range pcpuId hmem) limit.le
      rw [hparsed, hvms, Option.getD_some]
      show (FitsFrom pools done _ ∧ ∃ st',
        (placeVm pools vmId ⟨mask, affinity.vcpu0 :: affinity.others⟩ st).bind _ = _ ∧ _) ∨ _ ∧
        (placeVm pools vmId ⟨mask, affinity.vcpu0 :: affinity.others⟩ st).bind _ = _
      rcases placeVm_spec hsummary hvm hrange hmask with ⟨hfits, st', hplaced, hsummary'⟩ |
        ⟨hbad, hplaced⟩
      · rw [hplaced, Option.bind_some]
        rcases ih hrest hsummary' with ⟨hall, st'', hdone, hend⟩ | ⟨hall, hdone⟩
        · rw [List.append_assoc] at hend
          exact .inl ⟨⟨hfits, hall⟩, st'', hdone, hend⟩
        · exact .inr ⟨fun h => hall h.2, hdone⟩
      · rw [hplaced]
        exact .inr ⟨fun h => hbad h.1, rfl⟩

/-- The vCPUs of one VM are where they may be. -/
def VcpusOk (pools : SchedPools) (cells : List Nat) : Prop :=
  ∀ idx pcpuId, cells[idx]? = some pcpuId →
    InPool pools.exclusive pcpuId ∧ idx = 0 ∨
      ¬InPool pools.exclusive pcpuId ∧ InPool pools.shared pcpuId

theorem vcpusOk_cons {vcpu0 : Nat} {others : List Nat} :
    VcpusOk pools (vcpu0 :: others) ↔
      (InPool pools.exclusive vcpu0 ∨ InPool pools.shared vcpu0) ∧
        ∀ pcpuId ∈ others, ¬InPool pools.exclusive pcpuId ∧ InPool pools.shared pcpuId := by
  constructor
  · intro h
    refine ⟨(h 0 vcpu0 rfl).imp And.left And.right, fun pcpuId hmem => ?_⟩
    obtain ⟨idx, hidx⟩ := List.mem_iff_getElem?.mp hmem
    exact (h (idx + 1) pcpuId hidx).resolve_left fun hzero => Nat.succ_ne_zero idx hzero.2
  · rintro ⟨h0, hothers⟩ idx pcpuId hidx
    cases idx with
    | zero =>
      cases hidx
      by_cases hin : InPool pools.exclusive vcpu0
      · exact .inl ⟨hin, rfl⟩
      · exact .inr ⟨hin, h0.resolve_left hin⟩
    | succ idx => exact .inr (hothers pcpuId (List.mem_of_getElem? hidx))

theorem nodup_snoc {pcpuIds : List Nat} {pcpuId : Nat} :
    (pcpuIds ++ [pcpuId]).Nodup ↔ pcpuId ∉ pcpuIds ∧ pcpuIds.Nodup := by
  rw [List.nodup_middle, List.append_nil, List.nodup_cons]

theorem fitsFrom_iff :
    ∀ {vms done : List (Nat × List Nat)}, (bspsOn pools.exclusive done).Nodup →
      (∀ vm ∈ vms, vm.2 ≠ []) →
      (FitsFrom pools done vms ↔
        (∀ vm ∈ vms, VcpusOk pools vm.2) ∧ (bspsOn pools.exclusive (done ++ vms)).Nodup) := by
  intro vms
  induction vms with
  | nil =>
    intro done hnodup _
    simpa [FitsFrom] using hnodup
  | cons vm rest ih =>
    intro done hnodup hne
    obtain ⟨vmId, cells⟩ := vm
    obtain ⟨hcells, hrest⟩ := List.forall_mem_cons.mp hne
    cases cells with
    | nil => exact absurd rfl hcells
    | cons vcpu0 others =>
      have happend : done ++ (vmId, vcpu0 :: others) :: rest =
          done ++ [(vmId, vcpu0 :: others)] ++ rest := by simp
      rw [FitsFrom, List.forall_mem_cons, happend, vcpusOk_cons]
      constructor
      · rintro ⟨hfits, hall⟩
        have hone : (bspsOn pools.exclusive (done ++ [(vmId, vcpu0 :: others)])).Nodup := by
          rw [bspsOn_append]
          split
          next hin => exact nodup_snoc.mpr ⟨hfits.bsp_alone hin, hnodup⟩
          next => rwa [List.append_nil]
        obtain ⟨hok, hnodup'⟩ := (ih hone hrest).mp hall
        exact ⟨⟨⟨hfits.bsp, hfits.others⟩, hok⟩, hnodup'⟩
      · rintro ⟨⟨⟨hbsp, hothers⟩, hok⟩, hnodup'⟩
        have hone : (bspsOn pools.exclusive (done ++ [(vmId, vcpu0 :: others)])).Nodup := by
          refine hnodup'.sublist ?_
          unfold bspsOn
          exact ((List.sublist_append_left _ rest).filterMap _).filter _
        refine ⟨⟨hbsp, fun hin hmem => ?_, hothers⟩, (ih hone hrest).mpr ⟨hok, hnodup'⟩⟩
        rw [bspsOn_append, if_pos hin] at hone
        exact (nodup_snoc.mp hone).1 hmem

theorem mem_vms {vmId : Nat} {cells : List Nat} :
    (vmId, cells) ∈ tree.vms ↔
      vmId < configMaxVmNum ∧ ∃ affinity, tree.vm vmId = some affinity ∧ affinity.cells = cells := by
  simp only [PlatformTree.vms, List.mem_filterMap, List.mem_range, Option.map_eq_some_iff,
    Prod.mk.injEq]
  constructor
  · rintro ⟨id, hlt, affinity, hvm, rfl, rfl⟩
    exact ⟨hlt, affinity, hvm, rfl⟩
  · rintro ⟨hlt, affinity, hvm, rfl⟩
    exact ⟨vmId, hlt, affinity, hvm, rfl, rfl⟩

theorem vms_unique {vmId : Nat} {cells cells' : List Nat} (h : (vmId, cells) ∈ tree.vms)
    (h' : (vmId, cells') ∈ tree.vms) : cells = cells' := by
  obtain ⟨-, affinity, hvm, rfl⟩ := mem_vms.mp h
  obtain ⟨-, affinity', hvm', rfl⟩ := mem_vms.mp h'
  rw [Option.some.inj (hvm.symm.trans hvm')]

theorem vms_nodup : (tree.vms.map (·.1)).Nodup := by
  have hsub : tree.vms.map (·.1) =
      (List.range configMaxVmNum).filter fun vmId => (tree.vm vmId).isSome := by
    unfold PlatformTree.vms
    rw [List.map_filterMap, ← List.filterMap_eq_filter]
    refine List.filterMap_congr fun vmId _ => ?_
    cases hvm : tree.vm vmId <;> simp [Option.guard, hvm]
  rw [hsub]
  exact List.nodup_range.filter _

variable {pool : BitVec 64}

/-- No pCPU of a pool is listed twice exactly if no two VMs have their vCPU 0 there. -/
theorem bspsOn_nodup_iff (hids : (vms.map (·.1)).Nodup) :
    (bspsOn pool vms).Nodup ↔ ∀ vm ∈ vms, ∀ vm' ∈ vms, ∀ pcpuId, InPool pool pcpuId →
      vm.2.head? = some pcpuId → vm'.2.head? = some pcpuId → vm.1 = vm'.1 := by
  unfold bspsOn List.Nodup
  rw [List.pairwise_filter, List.pairwise_filterMap]
  constructor
  · intro hpair vm hvm vm' hvm' pcpuId hin hhead hhead'
    by_contra hne
    have : Std.Symm fun vm vm' : Nat × List Nat => ∀ b, vm.2.head? = some b →
        ∀ b', vm'.2.head? = some b' → decide (InPool pool b) = true →
          decide (InPool pool b') = true → b ≠ b' :=
      ⟨fun _ _ h b hb b' hb' hi hi' heq => h b' hb' b hb hi' hi heq.symm⟩
    have hapart := hpair.forall hvm hvm' fun heq => hne (congrArg Prod.fst heq)
    exact hapart pcpuId hhead pcpuId hhead' (decide_eq_true hin) (decide_eq_true hin) rfl
  · intro hall
    refine (List.pairwise_map.mp hids).imp_of_mem fun {vm vm'} hvm hvm' hne => ?_
    rintro pcpuId hhead _ hhead' hin - rfl
    exact hne (hall vm hvm vm' hvm' pcpuId (of_decide_eq_true hin) hhead hhead')

/-- Without repetitions the vCPUs of a pCPU are as many as the VMs that name it. -/
theorem vcpusOn_eq {pcpuId : Nat} :
    ∀ {vms : List (Nat × List Nat)}, (∀ vm ∈ vms, vm.2.Nodup) →
      vcpusOn vms pcpuId = (vms.filter fun vm => pcpuId ∈ vm.2).length := by
  intro vms
  induction vms with
  | nil => exact fun _ => rfl
  | cons vm rest ih =>
    intro hnodup
    obtain ⟨hself, hrest⟩ := List.forall_mem_cons.mp hnodup
    have hsum : vcpusOn (vm :: rest) pcpuId = vm.2.count pcpuId + vcpusOn rest pcpuId := rfl
    rw [hsum, ih hrest]
    by_cases hmem : pcpuId ∈ vm.2
    · rw [List.count_eq_one_of_mem hself hmem, List.filter_cons_of_pos (by simpa using hmem),
        List.length_cons, Nat.add_comm]
    · rw [List.count_eq_zero_of_not_mem hmem, List.filter_cons_of_neg (by simpa using hmem),
        Nat.zero_add]

theorem vms_length : tree.vms.length ≤ configMaxVmNum := by
  have hlen := (List.range configMaxVmNum).length_filterMap_le
    fun vmId => (tree.vm vmId).map fun affinity => (vmId, affinity.cells)
  rwa [List.length_range] at hlen

theorem bspsOn_length_le : (bspsOn pool vms).length ≤ vms.length :=
  (List.length_filter_le _ _).trans (List.length_filterMap_le _ _)

theorem bspsOn_length_le_pool (h : (bspsOn pool vms).Nodup) :
    (bspsOn pool vms).length ≤ (poolPcpus pool).length := by
  refine (List.subperm_of_subset h fun pcpuId hmem => ?_).length_le
  have hin : InPool pool pcpuId := of_decide_eq_true (List.mem_filter.mp hmem).2
  exact List.mem_filter.mpr ⟨List.mem_range.mpr hin.1, decide_eq_true hin⟩

theorem weight_poolPcpus (pool : BitVec 64) : bitmapWeight pool = (poolPcpus pool).length := by
  refine bitmapWeight_of_nodup (List.nodup_range.filter _) fun pcpuId => ?_
  simp only [poolPcpus, List.mem_filter, List.mem_range, decide_eq_true_eq]
  exact ⟨fun h => h.2, fun h => ⟨h.1, h⟩⟩

/-- **The checks after the loop.**  Of parsed VMs only the vCPU 0s can be too few. -/
theorem placementComplete_iff {st : PlacementState} (h : Summary pools tree.vms st)
    (hnodup : ∀ vm ∈ tree.vms, vm.2.Nodup) :
    placementComplete limit pools st = true ↔
      min tree.vms.length (poolPcpus pools.exclusive).length ≤
        (bspsOn pools.exclusive tree.vms).length := by
  have hshared : ∀ pcpuId < limit.maxPcpuNum,
      st.sharedVcpuCount pcpuId ≤ st.configuredVmCount ∧
        st.sharedVcpuCount pcpuId = bitmapWeight (st.sharedVmMasks pcpuId) := by
    intro pcpuId hlt
    have h64 : pcpuId < 64 := Nat.lt_of_lt_of_le hlt limit.le
    have hcount := h.shared pcpuId h64
    have hmasks := h.masks pcpuId h64
    by_cases hin : InPool pools.exclusive pcpuId
    · rw [if_pos hin] at hcount
      rw [hcount]
      refine ⟨Nat.zero_le _, ?_⟩
      refine (bitmapWeight_of_nodup List.nodup_nil fun vmId => ?_).symm
      refine iff_of_false List.not_mem_nil fun ⟨hvm, hbit⟩ => ?_
      exact ((hmasks vmId hvm).mp hbit).1 hin
    · have hle : (tree.vms.filter fun vm => pcpuId ∈ vm.2).length ≤ tree.vms.length :=
        List.length_filter_le _ _
      have hvms : tree.vms.length ≤ configMaxVmNum := vms_length
      have hmax : configMaxVmNum < 256 := by decide
      rw [if_neg hin, vcpusOn_eq hnodup, Nat.mod_eq_of_lt (by omega)] at hcount
      rw [hcount, h.configured]
      refine ⟨hle, ?_⟩
      rw [← List.length_map (f := fun vm : Nat × List Nat => vm.1)]
      refine (bitmapWeight_of_nodup ?_ fun vmId => ?_).symm
      · exact vms_nodup.sublist (List.filter_sublist.map _)
      · simp only [List.mem_map, List.mem_filter, decide_eq_true_eq, Prod.exists,
          exists_and_right, exists_eq_right]
        constructor
        · rintro ⟨cells, hmem, hp⟩
          have hvm : vmId < 64 := Nat.lt_of_lt_of_le (mem_vms.mp hmem).1 (by decide)
          exact ⟨hvm, (hmasks vmId hvm).mpr ⟨hin, cells, hmem, hp⟩⟩
        · rintro ⟨hvm, hbit⟩
          obtain ⟨-, cells, hmem, hp⟩ := (hmasks vmId hvm).mp hbit
          exact ⟨cells, hmem, hp⟩
  have hall : ((List.range limit.maxPcpuNum).all fun pcpuId =>
      !(st.sharedVcpuCount pcpuId > st.configuredVmCount ||
        st.sharedVcpuCount pcpuId ≠ bitmapWeight (st.sharedVmMasks pcpuId))) = true := by
    rw [List.all_eq_true]
    intro pcpuId hmem
    obtain ⟨hle, heq⟩ := hshared pcpuId (List.mem_range.mp hmem)
    simp [Nat.not_lt.mpr hle, ← heq]
  unfold placementComplete
  dsimp only
  rw [hall, Bool.true_and, h.configured, h.bspCount, weight_poolPcpus, Bool.not_eq_true',
    decide_eq_false_iff_not, Nat.not_lt, Nat.min_def]
  split <;> split <;> omega

end AllVms

/-! ### Main result -/

section Main

variable {limit : PcpuLimit} {tree : PlatformTree}

/-- What the boot accepts, in terms of the parsed lists. -/
theorem accepts_iff (hstrict : tree.pools.strictPlacement = true) :
    dtsAcceptsPlacement limit tree = true ↔
      Partition limit tree.pools ∧ (∀ vm ∈ tree.vms, Parses limit vm.2) ∧
        (∀ vm ∈ tree.vms, VcpusOk tree.pools vm.2) ∧
        (bspsOn tree.pools.exclusive tree.vms).Nodup ∧
        min tree.vms.length (poolPcpus tree.pools.exclusive).length ≤
          (bspsOn tree.pools.exclusive tree.vms).length := by
  have hparse : (List.range configMaxVmNum).all (fun vmId => (dtsParseVm limit tree vmId).isSome) =
      true ↔ ∀ vm ∈ tree.vms, Parses limit vm.2 := by
    simp only [List.all_eq_true, List.mem_range, dtsParseVm_isSome]
    constructor
    · rintro h ⟨vmId, cells⟩ hmem
      obtain ⟨hlt, affinity, hvm, rfl⟩ := mem_vms.mp hmem
      exact h vmId hlt affinity hvm
    · intro h vmId hlt affinity hvm
      exact h (vmId, affinity.cells) (mem_vms.mpr ⟨hlt, affinity, hvm, rfl⟩)
  unfold dtsAcceptsPlacement
  rw [Bool.and_eq_true, Bool.and_eq_true, validateSchedConfig_iff, hparse, and_assoc]
  refine and_congr_right fun _ => and_congr_right fun hparses => ?_
  unfold dtsValidateSchedVmPlacement
  rw [hstrict]
  simp only [Bool.not_true, Bool.false_eq_true, if_false]
  have hslots : ∀ vmId ∈ List.range configMaxVmNum, vmId < 64 ∧
      ∀ affinity, tree.vm vmId = some affinity → Parses limit affinity.cells := by
    intro vmId hmem
    have hlt := List.mem_range.mp hmem
    exact ⟨Nat.lt_of_lt_of_le hlt (by decide), fun affinity hvm =>
      hparses (vmId, affinity.cells) (mem_vms.mpr ⟨hlt, affinity, hvm, rfl⟩)⟩
  have hinit : Summary tree.pools [] .init :=
    ⟨rfl, fun _ _ => rfl, fun pcpuId _ => by simp [PlacementState.init, bitmapTest_zero, bspsOn],
      rfl, fun pcpuId _ => by simp [PlacementState.init, vcpusOn],
      fun pcpuId _ vmId _ => by simp [PlacementState.init, bitmapTest_zero]⟩
  have hne : ∀ vm ∈ tree.vms, vm.2 ≠ [] := by
    rintro ⟨vmId, cells⟩ hmem
    obtain ⟨-, affinity, -, rfl⟩ := mem_vms.mp hmem
    exact List.cons_ne_nil _ _
  have hfits : FitsFrom tree.pools [] tree.vms ↔ (∀ vm ∈ tree.vms, VcpusOk tree.pools vm.2) ∧
      (bspsOn tree.pools.exclusive tree.vms).Nodup := fitsFrom_iff List.nodup_nil hne
  rcases placeVms_spec hslots hinit with ⟨hok, st, hplaced, hsummary⟩ | ⟨hbad, hplaced⟩
  · have hok : FitsFrom tree.pools [] tree.vms := hok
    obtain ⟨hvcpus, hnodup⟩ := hfits.mp hok
    rw [hplaced]
    dsimp only
    rw [placementComplete_iff hsummary fun vm hmem => (hparses vm hmem).nodup]
    exact ⟨fun h => ⟨hvcpus, hnodup, h⟩, fun h => h.2.2⟩
  · rw [hplaced]
    exact iff_of_false Bool.false_ne_true fun h => hbad (hfits.mpr ⟨h.1, h.2.1⟩)

/--
**The validator decides the contract.**  A tree with strict placement is accepted exactly if its
pools partition the pCPUs and its vCPUs are placed by the contract.
-/
theorem accepts_iff_strictPlacement (limit : PcpuLimit) (tree : PlatformTree)
    (hstrict : tree.pools.strictPlacement = true) :
    dtsAcceptsPlacement limit tree = true ↔ StrictPlacement limit tree := by
  rw [accepts_iff hstrict]
  constructor
  · rintro ⟨hpart, hparses, hvcpus, hnodup, hbsps⟩
    have hplaced : ∀ {vmId idx pcpuId}, tree.Placed vmId idx pcpuId →
        InPool tree.pools.exclusive pcpuId ∧ idx = 0 ∨
          ¬InPool tree.pools.exclusive pcpuId ∧ InPool tree.pools.shared pcpuId :=
      fun ⟨cells, hmem, hidx⟩ => hvcpus _ hmem _ _ hidx
    have hbsp : ∀ {vmId idx pcpuId}, tree.Placed vmId idx pcpuId →
        InPool tree.pools.exclusive pcpuId → idx = 0 :=
      fun h hin => (hplaced h).elim And.right fun hnot => absurd hin hnot.1
    refine ⟨hpart.disjoint, hpart.cover, fun vmId idx pcpuId => hbsp, ?_, ?_, ?_, ?_, ?_⟩
    · intro vmId vmId' idx idx' pcpuId h h' hin
      cases hbsp h hin
      cases hbsp h' hin
      obtain ⟨cells, hmem, hidx⟩ := h
      obtain ⟨cells', hmem', hidx'⟩ := h'
      rw [← List.head?_eq_getElem?] at hidx hidx'
      exact ⟨(bspsOn_nodup_iff vms_nodup).mp hnodup _ hmem _ hmem' pcpuId hin hidx hidx', rfl⟩
    · exact fun vmId idx pcpuId h hnot =>
        (hplaced h).elim (fun hin => absurd hin.1 hnot) And.right
    · rintro vmId idx idx' pcpuId ⟨cells, hmem, hidx⟩ ⟨cells', hmem', hidx'⟩ -
      cases vms_unique hmem hmem'
      exact (List.getElem?_inj (List.getElem?_eq_some_iff.mp hidx).1 (hparses _ hmem).nodup).mp
        (hidx.trans hidx'.symm)
    · intro pcpuId _
      rw [vcpusOn_eq fun vm hmem => (hparses vm hmem).nodup]
      exact List.length_filter_le _ _
    · exact Nat.le_antisymm (Nat.le_min.mpr ⟨bspsOn_length_le, bspsOn_length_le_pool hnodup⟩) hbsps
  · intro h
    have hvcpus : ∀ vm ∈ tree.vms, VcpusOk tree.pools vm.2 := by
      rintro ⟨vmId, cells⟩ hmem idx pcpuId hidx
      by_cases hin : InPool tree.pools.exclusive pcpuId
      · exact .inl ⟨hin, h.exclusive_bsp vmId idx pcpuId ⟨cells, hmem, hidx⟩ hin⟩
      · exact .inr ⟨hin, h.others_shared vmId idx pcpuId ⟨cells, hmem, hidx⟩ hin⟩
    have honce : ∀ (vmId : Nat) (cells : List Nat), (vmId, cells) ∈ tree.vms →
        ∀ idx idx' pcpuId : Nat, cells[idx]? = some pcpuId → cells[idx']? = some pcpuId → idx = idx' := by
      intro vmId cells hmem idx idx' pcpuId hidx hidx'
      rcases hvcpus _ hmem idx pcpuId hidx with ⟨hin, -⟩ | ⟨-, hin⟩
      · exact (h.exclusive_alone vmId vmId idx idx' pcpuId ⟨cells, hmem, hidx⟩
          ⟨cells, hmem, hidx'⟩ hin).2
      · exact h.shared_once vmId idx idx' pcpuId ⟨cells, hmem, hidx⟩ ⟨cells, hmem, hidx'⟩ hin
    refine ⟨⟨h.disjoint, h.cover⟩, ?_, hvcpus, ?_, h.bsps.ge⟩
    · rintro ⟨vmId, cells⟩ hmem
      refine ⟨fun pcpuId hp => ?_, ?_⟩
      · obtain ⟨idx, hidx⟩ := List.mem_iff_getElem?.mp hp
        refine (h.cover pcpuId).mp ?_
        exact (hvcpus _ hmem idx pcpuId hidx).imp And.left And.right
      · rw [List.nodup_iff_getElem?_ne_getElem?]
        intro idx idx' hlt hlen heq
        have hidx' := List.getElem?_eq_getElem hlen
        have := honce vmId cells hmem idx idx' _ (heq.trans hidx') hidx'
        omega
    · refine (bspsOn_nodup_iff vms_nodup).mpr ?_
      rintro ⟨vmId, cells⟩ hmem ⟨vmId', cells'⟩ hmem' pcpuId hin hhead hhead'
      rw [List.head?_eq_getElem?] at hhead hhead'
      exact (h.exclusive_alone vmId vmId' 0 0 pcpuId ⟨cells, hmem, hhead⟩ ⟨cells', hmem', hhead'⟩
        hin).1

/-- Four pCPUs, two of them exclusive, and two VMs. -/
def fourPcpuTree : PlatformTree where
  pools := ⟨0b0011#64, 0b1100#64, true⟩
  vm := fun vmId => if vmId = 0 then some ⟨0, [2]⟩ else if vmId = 1 then some ⟨1, [3, 2]⟩ else none

theorem accepts_fourPcpuTree :
    dtsAcceptsPlacement ⟨4, by decide, by decide⟩ fourPcpuTree = true ∧
      StrictPlacement ⟨4, by decide, by decide⟩ fourPcpuTree := by
  have haccepts : dtsAcceptsPlacement ⟨4, by decide, by decide⟩ fourPcpuTree = true := by
    decide +kernel
  exact ⟨haccepts, (accepts_iff_strictPlacement _ fourPcpuTree rfl).mp haccepts⟩

end Main

end BeauOs.Platform
