/-
The memory of a VM belongs to nobody else.

A tree that boots keeps the regions of the VMs apart from each other and from the retained log, and
inside the host RAM.  Nothing compares them with the window of the hypervisor itself: only the
retained log is checked against it.  So a tree is isolated exactly if its author kept the VMs out
of that window (`isolated_iff_outside_hypervisor`), and `vm_on_hypervisor` boots without.
-/
import BeauOs.Platform.StaticMem

namespace BeauOs.Platform

open BeauOs.Sched (configMaxVmNum)

/-! ### Ranges -/

def MemRange.Has (range : MemRange) (addr : Nat) : Prop :=
  range.start.toNat ≤ addr ∧ addr < range.start.toNat + range.size.toNat

def MemRange.Apart (a b : MemRange) : Prop := ∀ addr, a.Has addr → ¬b.Has addr

theorem MemRange.Apart.symm {a b : MemRange} (h : a.Apart b) : b.Apart a :=
  fun addr hb ha => h addr ha hb

/-- A range that has an end has at least one address and does not wrap. -/
theorem dtsRangeEnd_spec {range : MemRange} {rangeEnd : UInt64}
    (h : dtsRangeEnd range = some rangeEnd) :
    0 < range.size.toNat ∧ rangeEnd.toNat = range.start.toNat + range.size.toNat := by
  unfold dtsRangeEnd at h
  split at h
  next hok =>
    cases h
    obtain ⟨hsize, hle⟩ := hok
    have hlt := range.size.toNat_lt
    have hmax : range.size ≤ UInt64.ofNat uint64Max := by
      rw [UInt64.le_iff_toNat_le]
      exact Nat.le_of_lt_succ hlt
    rw [UInt64.le_iff_toNat_le, UInt64.toNat_sub_of_le _ _ hmax,
      show (UInt64.ofNat uint64Max).toNat = 2 ^ 64 - 1 from rfl] at hle
    refine ⟨Nat.pos_of_ne_zero fun hzero => hsize (UInt64.toNat_inj.mp hzero), ?_⟩
    rw [UInt64.toNat_add]
    exact Nat.mod_eq_of_lt (by omega)
  next => exact absurd h (by simp)

/-- Two ranges that do not wrap overlap exactly if they share an address. -/
theorem overlap_eq_false_iff {a b : MemRange} (ha : (dtsRangeEnd a).isSome = true)
    (hb : (dtsRangeEnd b).isSome = true) : dtsRangesOverlap a b = false ↔ a.Apart b := by
  obtain ⟨endA, ha⟩ := Option.isSome_iff_exists.mp ha
  obtain ⟨endB, hb⟩ := Option.isSome_iff_exists.mp hb
  obtain ⟨hposA, hendA⟩ := dtsRangeEnd_spec ha
  obtain ⟨hposB, hendB⟩ := dtsRangeEnd_spec hb
  unfold dtsRangesOverlap
  rw [ha, hb]
  simp only [Bool.and_eq_false_iff, decide_eq_false_iff_not, UInt64.lt_iff_toNat_lt, hendA, hendB]
  unfold MemRange.Apart MemRange.Has
  constructor
  · intro h addr
    omega
  · intro h
    -- the later start is an address of both, unless one range ends before it
    have hstart := h a.start.toNat
    have hstart' := h b.start.toNat
    omega

theorem insideHost_spec {host range : MemRange} (h : insideHost host range = true) :
    ∀ addr, range.Has addr → host.Has addr := by
  unfold insideHost at h
  split at h
  next rangeEnd hostEnd hr hh =>
    obtain ⟨-, hre⟩ := dtsRangeEnd_spec hr
    obtain ⟨-, hhe⟩ := dtsRangeEnd_spec hh
    simp only [Bool.and_eq_true, Bool.not_eq_true', decide_eq_false_iff_not, gt_iff_lt,
      UInt64.lt_iff_toNat_lt, hre, hhe] at h
    unfold MemRange.Has
    omega
  next => exact absurd h Bool.false_ne_true

/-! ### Parsing -/

/-- What a region of a VM was checked for. -/
structure RegionOk (host ramlog range : MemRange) : Prop where
  fits : (dtsRangeEnd range).isSome = true
  inside : ∀ addr, range.Has addr → host.Has addr
  log : dtsRangesOverlap range ramlog = false

theorem dtsParseStaticMem_spec {host ramlog range : MemRange}
    (h : dtsParseStaticMem host ramlog range = true) : RegionOk host ramlog range := by
  unfold dtsParseStaticMem at h
  split_ifs at h with hend _ _ hhost hlog
  refine ⟨?_, insideHost_spec (by simpa using hhost), by simpa using hlog⟩
  rwa [Option.isNone_iff_eq_none, ← ne_eq, ← Option.isSome_iff_ne_none] at hend

theorem dtsParseRamlog_fits {host hv ramlog : MemRange} {nodes : List RamlogNode}
    (h : dtsParseRamlog host hv nodes = some ramlog) : (dtsRangeEnd ramlog).isSome = true := by
  unfold dtsParseRamlog at h
  split at h
  next node =>
    split_ifs at h with _ hlayout
    cases h
    simp only [not_or] at hlayout
    obtain ⟨-, -, -, -, -, -, -, -, hinside⟩ := hlayout
    unfold insideHost at hinside
    split at hinside
    next rangeEnd _ hr _ => rw [hr]; rfl
    next => simp at hinside
  next => exact absurd h (by simp)

/-- The memory of a VM: that of the last node with its number. -/
def lastMem (nodes : List VmMemNode) (vmId : Nat) : Option MemRange :=
  (nodes.reverse.find? fun node => node.vmId = vmId).map (·.staticMem)

theorem lastMem_cons {node : VmMemNode} {rest : List VmMemNode} {vmId : Nat} :
    lastMem (node :: rest) vmId =
      (lastMem rest vmId).or (if node.vmId = vmId then some node.staticMem else none) := by
  unfold lastMem
  rw [List.reverse_cons, List.find?_append, Option.map_or]
  by_cases h : node.vmId = vmId <;> simp [h]

theorem dtsParseVmNodes_spec {host ramlog : MemRange} :
    ∀ {nodes : List VmMemNode} {regions regions' : Nat → MemRange},
      dtsParseVmNodes host ramlog nodes regions = some regions' →
      (∀ vmId range, lastMem nodes vmId = some range →
          vmId < configMaxVmNum ∧ RegionOk host ramlog range) ∧
        ∀ vmId, regions' vmId = (lastMem nodes vmId).getD (regions vmId) := by
  intro nodes
  induction nodes with
  | nil =>
    intro regions regions' h
    cases h
    exact ⟨fun _ _ h => absurd h (by simp [lastMem]), fun _ => rfl⟩
  | cons node rest ih =>
    intro regions regions' h
    unfold dtsParseVmNodes at h
    split_ifs at h with hid hmem
    obtain ⟨hok, hregions⟩ := ih h
    refine ⟨fun vmId range hlast => ?_, fun vmId => ?_⟩
    · rw [lastMem_cons] at hlast
      rcases Option.or_eq_some_iff.mp hlast with hrest | ⟨-, hself⟩
      · exact hok vmId range hrest
      · split_ifs at hself with heq
        cases hself
        exact ⟨by omega, dtsParseStaticMem_spec (by simpa using hmem)⟩
    · rw [hregions vmId, lastMem_cons]
      cases lastMem rest vmId with
      | some range => rfl
      | none =>
        by_cases heq : node.vmId = vmId
        · subst heq
          simp
        · rw [if_neg heq, Function.update_of_ne (Ne.symm heq)]
          rfl

/-! ### Main result -/

/-- A page of the guest is backed by this address. -/
def Stage2Map.Backs (m : Stage2Map) (ipa hpa : Nat) : Prop :=
  m.ipa.toNat ≤ ipa ∧ ipa < m.ipa.toNat + m.size.toNat ∧ hpa = m.hpa.toNat + (ipa - m.ipa.toNat)

/-- A VM has its memory for itself. -/
structure MemIsolated (hv host ramlog : MemRange) (regions : Nat → MemRange) (vmId : Nat) : Prop where
  in_host : ∀ addr, (regions vmId).Has addr → host.Has addr
  off_log : (regions vmId).Apart ramlog
  off_hv : (regions vmId).Apart hv
  others : ∀ other < configMaxVmNum, other ≠ vmId → (regions other).size ≠ 0 →
    (regions vmId).Apart (regions other)
  /-- What is mapped as RAM is nobody else's. -/
  stage2 : ∀ zeroPage maps, initStage2IdentityMap (regions vmId) zeroPage = some maps →
    ∀ m ∈ maps, m.writable = true → ∀ ipa hpa, m.Backs ipa hpa → ¬hv.Has hpa ∧ ¬ramlog.Has hpa ∧
      ∀ other < configMaxVmNum, other ≠ vmId → (regions other).size ≠ 0 → ¬(regions other).Has hpa

/-- The RAM of a VM is mapped one to one. -/
theorem backs_region {region : MemRange} {zeroPage : UInt64} {maps : List Stage2Map}
    (h : initStage2IdentityMap region zeroPage = some maps) {m : Stage2Map} (hm : m ∈ maps)
    (hw : m.writable = true) {ipa hpa : Nat} (hb : m.Backs ipa hpa) : region.Has hpa := by
  unfold initStage2IdentityMap at h
  split_ifs at h
  cases h
  rcases List.mem_cons.mp hm with rfl | hm
  · obtain ⟨hlo, hhi, rfl⟩ := hb
    unfold MemRange.Has
    dsimp only at hlo hhi ⊢
    omega
  · cases List.mem_singleton.mp hm
    exact absurd hw Bool.false_ne_true

/--
**Isolated but for the hypervisor.**  In a tree that boots every configured VM is isolated exactly
if none of them was given memory in the window of the hypervisor.
-/
theorem isolated_iff_outside_hypervisor (tree : MemTree) (ramlog : MemRange)
    (regions : Nat → MemRange) (haccepted : dtsParseMemory tree = some (ramlog, regions)) :
    (∀ vmId < configMaxVmNum, (regions vmId).size ≠ 0 →
        MemIsolated tree.hv tree.host ramlog regions vmId) ↔
      ∀ vmId range, lastMem tree.vms vmId = some range →
        dtsRangesOverlap range tree.hv = false := by
  simp only [dtsParseMemory, bind, Option.bind_eq_some_iff] at haccepted
  obtain ⟨log, hlog, regions', hvms, hresult⟩ := haccepted
  split_ifs at hresult with hvalid
  cases hresult
  have hlogfits := dtsParseRamlog_fits hlog
  obtain ⟨hok, hregions⟩ := dtsParseVmNodes_spec hvms
  -- a slot is in use exactly if a node filled it
  have hslot : ∀ {vmId}, (regions vmId).size ≠ 0 → lastMem tree.vms vmId = some (regions vmId) := by
    intro vmId hsize
    have hregion := hregions vmId
    cases hlast : lastMem tree.vms vmId with
    | none =>
      rw [hlast] at hregion
      rw [hregion] at hsize
      exact absurd rfl hsize
    | some range =>
      rw [hlast] at hregion
      exact congrArg some hregion.symm
  have hpair : ∀ {a b}, a < configMaxVmNum → b < configMaxVmNum → a < b →
      (regions a).size ≠ 0 → (regions b).size ≠ 0 → (regions a).Apart (regions b) := by
    intro a b ha hb hlt hsa hsb
    rw [← overlap_eq_false_iff (hok a _ (hslot hsa)).2.fits (hok b _ (hslot hsb)).2.fits]
    simp only [dtsValidateStaticMemRegions, List.all_eq_true, List.mem_range] at hvalid
    have := hvalid a ha b hb
    simpa [hlt, hsa, hsb] using this
  constructor
  · intro h vmId range hlast
    obtain ⟨hlt, hregion⟩ := hok vmId range hlast
    have heq : regions vmId = range := by rw [hregions vmId, hlast]; rfl
    obtain ⟨rangeEnd, hend⟩ := Option.isSome_iff_exists.mp hregion.fits
    have hsize : (regions vmId).size ≠ 0 := by
      rw [heq]
      intro hzero
      have := (dtsRangeEnd_spec hend).1
      rw [hzero] at this
      exact absurd this (by decide)
    exact (overlap_eq_false_iff hregion.fits tree.hv_fits).mpr (heq ▸ (h vmId hlt hsize).off_hv)
  · intro h vmId hlt hsize
    have hregion := (hok vmId _ (hslot hsize)).2
    have hhv := (overlap_eq_false_iff hregion.fits tree.hv_fits).mp (h vmId _ (hslot hsize))
    have hram := (overlap_eq_false_iff hregion.fits hlogfits).mp hregion.log
    have hothers : ∀ other < configMaxVmNum, other ≠ vmId → (regions other).size ≠ 0 →
        (regions vmId).Apart (regions other) := by
      intro other hother hne hs
      rcases Nat.lt_or_gt_of_ne hne with hbefore | hafter
      · exact (hpair hother hlt hbefore hs hsize).symm
      · exact hpair hlt hother hafter hsize hs
    refine ⟨hregion.inside, hram, hhv, hothers, fun zeroPage maps hmaps m hm hw ipa hpa hb => ?_⟩
    have hhas := backs_region hmaps hm hw hb
    exact ⟨hhv hpa hhas, hram hpa hhas, fun other ho hne hs => hothers other ho hne hs hpa hhas⟩

/-- 4 GiB of RAM at 1 GiB, the hypervisor at the start of it, the log behind, and two VMs. -/
def twoVmTree (start : UInt64) : MemTree where
  hv := ⟨0x40000000, 0x08000000⟩
  hv_fits := rfl
  host := ⟨0x40000000, 0x100000000⟩
  ramlogs := [⟨⟨0x50000000, 0x1141000⟩, 0x1000, 3, 2, 0x40000, 0x840000, true⟩]
  vms := [⟨0, start, 0x10000000⟩, ⟨1, 0x90000000, 0x10000000⟩]

theorem isolated_above_hypervisor :
    ∃ ramlog regions, dtsParseMemory (twoVmTree 0x80000000) = some (ramlog, regions) ∧
      (regions 0).Apart (regions 1) ∧ ∀ vmId < configMaxVmNum, (regions vmId).size ≠ 0 →
        MemIsolated (twoVmTree 0x80000000).hv (twoVmTree 0x80000000).host ramlog regions vmId := by
  have hboots : (dtsParseMemory (twoVmTree 0x80000000)).any (fun result =>
      (result.2 0).size ≠ 0 ∧ (result.2 1).size ≠ 0) = true := by decide +kernel
  obtain ⟨⟨ramlog, regions⟩, haccepted, hsizes⟩ := (Option.any_eq_true _ _).mp hboots
  obtain ⟨hsize, hsize'⟩ : (regions 0).size ≠ 0 ∧ (regions 1).size ≠ 0 := of_decide_eq_true hsizes
  have hall := (isolated_iff_outside_hypervisor _ ramlog regions haccepted).mpr
    fun vmId range hlast => ?_
  · exact ⟨ramlog, regions, haccepted, (hall 0 (by decide) hsize).others 1 (by decide) (by decide)
      hsize', hall⟩
  have hoff : ∀ node ∈ (twoVmTree 0x80000000).vms.reverse,
      dtsRangesOverlap node.staticMem (twoVmTree 0x80000000).hv = false := by decide +kernel
  obtain ⟨node, hnode, rfl⟩ := Option.map_eq_some_iff.mp hlast
  exact hoff node (List.mem_of_find?_eq_some hnode)

/-- **A VM on the hypervisor.**  The tree boots, and the guest's RAM is the hypervisor's. -/
theorem vm_on_hypervisor :
    ∃ ramlog regions, dtsParseMemory (twoVmTree 0x40000000) = some (ramlog, regions) ∧
      regions 0 = ⟨0x40000000, 0x10000000⟩ ∧ (initStage2IdentityMap (regions 0) 0).isSome = true ∧
      ¬MemIsolated (twoVmTree 0x40000000).hv (twoVmTree 0x40000000).host ramlog regions 0 := by
  have hboots : (dtsParseMemory (twoVmTree 0x40000000)).map (fun result => result.2 0) =
      some ⟨0x40000000, 0x10000000⟩ := by decide +kernel
  obtain ⟨⟨ramlog, regions⟩, haccepted, hregion⟩ := Option.map_eq_some_iff.mp hboots
  have hregion : regions 0 = ⟨0x40000000, 0x10000000⟩ := hregion
  refine ⟨ramlog, regions, haccepted, hregion, by rw [hregion]; decide +kernel, fun h => ?_⟩
  have hapart := h.off_hv 0x40000000
  rw [hregion] at hapart
  exact hapart (by unfold MemRange.Has; decide) (by unfold MemRange.Has; decide)

end BeauOs.Platform
