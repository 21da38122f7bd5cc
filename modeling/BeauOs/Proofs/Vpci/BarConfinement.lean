/-
Where a guest's BAR writes change its stage 2.

A write to a memory BAR unmaps the old range and maps the new one, and says nothing else
(`ptWriteVbar_spec`).  The new range is wherever the guest puts it: a base outside the window is
reported and used, so a BAR can be placed over a page that is unmapped in order to trap
(`bar_over_trapped_page`).  A guest that keeps to its windows changes nothing outside of them.
-/
import BeauOs.Lib.Run
import BeauOs.Vpci.Bar

namespace BeauOs.Vpci

open Function

/-! ### Stage 2 -/

variable {s2 s2' : Stage2} {ipa size idx val : Nat} {v : Vdev} {vm : PtVm}

theorem stage2Unmap_spec (h : stage2Unmap s2 ipa size = some s2') (page : Nat) :
    s2' page = if InRange ipa size page then none else s2 page := by
  unfold stage2Unmap at h
  split at h
  · cases h
    rfl
  · cases h

theorem stage2MapDevice_spec {hpa : Nat} (h : stage2MapDevice s2 hpa ipa size = some s2')
    (page : Nat) :
    s2' page =
      if InRange ipa size page then some (hpa / 4096 + (page - ipa / 4096)) else s2 page := by
  unfold stage2MapDevice at h
  split at h
  · cases h
    rfl
  · cases h

theorem stage2MapDevice_aligned {hpa : Nat} (h : stage2MapDevice s2 hpa ipa size = some s2') :
    ipa % 4096 = 0 ∧ size % 4096 = 0 ∧ ipa + size ≤ 2 ^ 48 := by
  unfold stage2MapDevice at h
  split at h
  next hok =>
    simp only [stage2ValidateRange, Bool.and_eq_true, decide_eq_true_eq] at hok
    omega
  next => cases h

/-! ### One write -/

/-- The page is trapped for the MSI-X table of the BAR. -/
def Vdev.Traps (v : Vdev) (idx page : Nat) : Prop :=
  v.hasMsixCap = true ∧ idx = v.tableBar ∧ v.tableCount ≠ 0 ∧ v.tableBar < v.nrBars ∧
    InRange (v.msixTrap (v.vbars idx).baseGpa).1 (v.msixTrap (v.vbars idx).baseGpa).2 page

/-- The page lies in the BAR, once it has a base. -/
def Vbar.Covers (b : Vbar) (page : Nat) : Prop := b.baseGpa ≠ 0 ∧ InRange b.baseGpa b.size page

/-- The BAR is made of whole pages of the address space. -/
def Vbar.PageAligned (b : Vbar) : Prop :=
  b.baseGpa % 4096 = 0 ∧ b.size % 4096 = 0 ∧ b.baseGpa + b.size ≤ 2 ^ 48

instance (v : Vdev) (idx page : Nat) : Decidable (v.Traps idx page) :=
  inferInstanceAs (Decidable (_ ∧ _ ∧ _ ∧ _ ∧ _))

instance (b : Vbar) (page : Nat) : Decidable (b.Covers page) :=
  inferInstanceAs (Decidable (_ ∧ _))

/-- Stage 2 after BAR `idx` has moved from where `v` has it to where `v'` has it. -/
def movedBar (v v' : Vdev) (idx : Nat) (s2 : Stage2) : Stage2 := fun page =>
  if (v'.vbars idx).baseGpa ≠ 0 ∧ v'.Traps idx page then none
  else if (v'.vbars idx).Covers page then
    some ((v'.vbars idx).baseHpa / 4096 + (page - (v'.vbars idx).baseGpa / 4096))
  else if (v.vbars idx).Covers page then none
  else s2 page

theorem unmapMemVbar_spec (h : v.unmapMemVbar idx s2 = some s2') (page : Nat) :
    s2' page = if (v.vbars idx).Covers page then none else s2 page := by
  unfold Vdev.unmapMemVbar at h
  split at h
  next hbase =>
    rw [stage2Unmap_spec h page]
    simp only [Vbar.Covers, hbase, ne_eq, not_false_eq_true, true_and]
  next hbase =>
    cases h
    rw [if_neg fun hcovers => hbase hcovers.1]

theorem mapMemVbar_spec (h : v.mapMemVbar idx s2 = some s2') (hbase : (v.vbars idx).baseGpa ≠ 0)
    (page : Nat) :
    s2' page = if v.Traps idx page then none
      else if (v.vbars idx).Covers page then
        some ((v.vbars idx).baseHpa / 4096 + (page - (v.vbars idx).baseGpa / 4096))
      else s2 page := by
  unfold Vdev.mapMemVbar at h
  obtain ⟨mid, hmap, hmsix⟩ := Option.bind_eq_some_iff.mp h
  have hmid := stage2MapDevice_spec hmap page
  have hcovers : (v.vbars idx).Covers page ↔
      InRange (v.vbars idx).baseGpa (v.vbars idx).size page := and_iff_right hbase
  simp only [hcovers]
  split at hmsix
  next hcap =>
    rw [Bool.and_eq_true, decide_eq_true_iff] at hcap
    unfold Vdev.mapMsix at hmsix
    split at hmsix
    next hnone =>
      cases hmsix
      rw [if_neg fun htraps => by have := htraps.2.2; omega, hmid]
    next hsome =>
      rw [stage2Unmap_spec hmsix page, hmid, ← hcap.2]
      have htraps : v.Traps idx page ↔ InRange (v.msixTrap (v.vbars idx).baseGpa).1
          (v.msixTrap (v.vbars idx).baseGpa).2 page := by
        unfold Vdev.Traps
        rw [← hcap.2] at hsome ⊢
        simp only [hcap.1, true_and]
        exact ⟨fun htraps => htraps.2.2, fun hin => ⟨by omega, by omega, hin⟩⟩
      simp only [htraps]
  next hcap =>
    cases hmsix
    rw [Bool.and_eq_true, decide_eq_true_iff] at hcap
    rw [if_neg fun htraps => hcap ⟨htraps.1, htraps.2.1⟩, hmid]

/-- **A write to a memory BAR moves the BAR, and changes nothing else of stage 2.** -/
theorem ptWriteVbar_spec {v' : Vdev} (hmem : (v.vbars idx).isIo = false)
    (h : v.ptWriteVbar idx val s2 = some (v', s2')) :
    v' = v.writeVbar idx val ∧ s2' = movedBar v v' (v.updateIdx idx) s2 ∧
      ((v'.vbars (v.updateIdx idx)).baseGpa ≠ 0 → (v'.vbars (v.updateIdx idx)).PageAligned) := by
  unfold Vdev.ptWriteVbar at h
  rw [if_neg (by rw [hmem]; decide)] at h
  obtain ⟨mid, hunmap, hrest⟩ := Option.bind_eq_some_iff.mp h
  have hmid := unmapMemVbar_spec hunmap
  simp only at hrest
  split at hrest
  next hbase =>
    obtain ⟨last, hmap, hlast⟩ := Option.bind_eq_some_iff.mp hrest
    cases hlast
    refine ⟨rfl, funext fun page => ?_, fun _ => ?_⟩
    · rw [mapMemVbar_spec hmap hbase page, hmid page]
      simp only [movedBar, and_iff_right hbase]
    · obtain ⟨_, hdevice, -⟩ := Option.bind_eq_some_iff.mp hmap
      exact stage2MapDevice_aligned hdevice
  next hbase =>
    cases hrest
    refine ⟨rfl, funext fun page => ?_, fun h => absurd h hbase⟩
    unfold movedBar
    rw [if_neg fun hand => hbase hand.1, if_neg fun hcovers => hbase hcovers.1, hmid page]

/-- The MSI-X table of BAR `idx` ends inside the BAR. -/
def Vdev.TableFits (v : Vdev) (idx : Nat) : Prop :=
  v.hasMsixCap = true → idx = v.tableBar → v.tableOffset + v.tableCount * 16 ≤ (v.vbars idx).size

instance (v : Vdev) (idx : Nat) : Decidable (v.TableFits idx) :=
  inferInstanceAs (Decidable (_ → _ → _))

theorem msixTrap_eq {base : Nat} (h : base + v.tableOffset + v.tableCount * 16 ≤ 2 ^ 48) :
    v.msixTrap base = ((base + v.tableOffset) / 4096 * 4096,
      (base + v.tableOffset + v.tableCount * 16 + 4095) / 4096 * 4096 -
        (base + v.tableOffset) / 4096 * 4096) := by
  generalize hlen : v.tableCount * 16 = len at h
  have hround : (base + v.tableOffset) / 4096 * 4096 ≤
      (base + v.tableOffset + len + 4095) / 4096 * 4096 := by omega
  have hend : base + v.tableOffset + len + 4095 ≤ 2 ^ 48 + 4095 := Nat.add_le_add_right h 4095
  have hmax : base + v.tableOffset + len + 4095 ≤ uint64Max := Nat.le_trans hend (by decide)
  have hstart : base + v.tableOffset ≤ uint64Max := by omega
  have hstop : base + v.tableOffset + len ≤ uint64Max := by omega
  unfold Vdev.msixTrap
  simp only
  rw [hlen, add64_eq hstart, add64_eq hstop, add64_eq hmax,
    sub64_eq hround (Nat.le_trans (Nat.div_mul_le_self _ _) hmax)]

/-- A table inside its BAR is trapped inside the BAR. -/
theorem covers_of_traps {page : Nat} (halign : (v.vbars idx).PageAligned) (hfits : v.TableFits idx)
    (hbase : (v.vbars idx).baseGpa ≠ 0) (h : v.Traps idx page) : (v.vbars idx).Covers page := by
  obtain ⟨hcap, hbar, -, -, hin⟩ := h
  have hend := hfits hcap hbar
  obtain ⟨hpage, hsize, hlimit⟩ := halign
  rw [msixTrap_eq (by omega)] at hin
  obtain ⟨hlo, hhi⟩ := hin
  exact ⟨hbase, by omega, by omega⟩

/-! ### What a write leaves of a BAR -/

/-- A write changes the base of one BAR, to nothing or to the address its words give. -/
theorem writeVbar_vbars (v : Vdev) (idx val j : Nat) :
    ∃ base sizing, (v.writeVbar idx val).vbars j =
        { v.vbars j with baseGpa := base, sizing := sizing } ∧
      (j ≠ v.updateIdx idx → base = (v.vbars j).baseGpa) ∧
      (j = v.updateIdx idx → base = 0 ∨ base = (v.writeCfg idx val).barBase (v.updateIdx idx)) := by
  have hcfg : ∃ sizing, (v.writeCfg idx val).vbars j = { v.vbars j with sizing := sizing } := by
    show ∃ sizing, Function.update v.vbars idx _ j = _
    by_cases hj : j = idx
    · rw [hj, update_self]
      exact ⟨_, rfl⟩
    · rw [update_of_ne hj]
      exact ⟨(v.vbars j).sizing, rfl⟩
  obtain ⟨sizing, hcfg⟩ := hcfg
  unfold Vdev.writeVbar Vdev.updateVbarBase
  simp only
  by_cases hj : j = v.updateIdx idx
  · rw [← hj, update_self, hcfg]
    refine ⟨_, sizing, rfl, fun hne => absurd rfl hne, fun _ => ?_⟩
    split
    · exact .inl rfl
    · exact .inr rfl
  · rw [update_of_ne hj, hcfg]
    exact ⟨_, sizing, rfl, fun _ => rfl, fun heq => absurd heq hj⟩

/-! ### The windows -/

/-- The range lies inside the window of its base. -/
def PtVm.InWindow (vm : PtVm) (base size : Nat) : Prop :=
  (vm.window base).1 ≤ base ∧ base + size ≤ (vm.window base).2 + 1

/-- The page lies in neither window. -/
def PtVm.Outside (vm : PtVm) (page : Nat) : Prop :=
  ¬ (vm.res32.1 ≤ page * 4096 ∧ page * 4096 ≤ vm.res32.2) ∧
    ¬ (vm.res64.1 ≤ page * 4096 ∧ page * 4096 ≤ vm.res64.2)

theorem PtVm.InWindow.not_covers {b : Vbar} {page : Nat} (h : vm.InWindow b.baseGpa b.size)
    (hout : vm.Outside page) : ¬ b.Covers page := by
  rintro ⟨-, hlo, hhi⟩
  unfold PtVm.InWindow PtVm.window at h
  split at h
  · exact hout.1 ⟨by omega, by omega⟩
  · exact hout.2 ⟨by omega, by omega⟩

/--
The guest keeps to its windows: the address that the written word and the other half of the BAR
give is zero, or the whole BAR fits there, and the device has its MSI-X table inside the BAR.
-/
def PtVm.Allowed (vm : PtVm) (w : BarWrite) : Prop :=
  let v := vm.vdevs w.dev
  let base := (v.writeCfg w.idx w.val).barBase (v.updateIdx w.idx)
  (v.vbars w.idx).isIo = false → base ≠ 0 →
    vm.InWindow base (v.vbars (v.updateIdx w.idx)).size ∧ v.TableFits (v.updateIdx w.idx)

instance (vm : PtVm) (w : BarWrite) : Decidable (vm.Allowed w) :=
  inferInstanceAs (Decidable (_ → _ → (_ ≤ _ ∧ _ ≤ _) ∧ _))

/-- A write moves a memory BAR inside the windows, and no page outside of them is remapped. -/
def PtVm.Confines (vm : PtVm) (w : BarWrite) (vm' : PtVm) : Prop :=
  (∀ page, vm.Outside page → vm'.s2 page = vm.s2 page) ∧
  let v := vm.vdevs w.dev
  let b := (vm'.vdevs w.dev).vbars (v.updateIdx w.idx)
  (w.idx < v.nrBars → (v.vbars w.idx).isIo = false →
    (b.baseGpa ≠ 0 → vm.InWindow b.baseGpa b.size) ∧
    vm'.s2 = movedBar v (vm'.vdevs w.dev) (v.updateIdx w.idx) vm.s2)

/-- The same of a write that is carried out. -/
def PtVm.Confined (vm : PtVm) (w : BarWrite) : Prop :=
  ∀ vm', vm.writeBar w = some vm' → vm.Confines w vm'

/-- Every memory BAR with a base lies in a window, and upper halves have a memory BAR below. -/
structure Vdev.Placed (vm : PtVm) (v : Vdev) : Prop where
  window : ∀ j, (v.vbars j).isIo = false → (v.vbars j).baseGpa ≠ 0 →
    vm.InWindow (v.vbars j).baseGpa (v.vbars j).size
  lower : ∀ j, (v.vbars j).isMem64hi = true → (v.vbars (j - 1)).isIo = false

/-- The BARs of all functions are placed. -/
def PtVm.Placed (vm : PtVm) : Prop := ∀ dev, (vm.vdevs dev).Placed vm

theorem Vdev.Placed.target (h : v.Placed vm) (hmem : (v.vbars idx).isIo = false) :
    (v.vbars (v.updateIdx idx)).isIo = false := by
  unfold Vdev.updateIdx
  split
  next hhi => exact h.lower idx hhi
  next => exact hmem

/-- The BARs stay placed if the one that was written is. -/
theorem Vdev.Placed.write (h : v.Placed vm)
    (htarget : (v.vbars (v.updateIdx idx)).isIo = false →
      ((v.writeVbar idx val).vbars (v.updateIdx idx)).baseGpa ≠ 0 →
      vm.InWindow ((v.writeVbar idx val).vbars (v.updateIdx idx)).baseGpa
      ((v.writeVbar idx val).vbars (v.updateIdx idx)).size) :
    (v.writeVbar idx val).Placed vm := by
  constructor
  · intro j hio hne
    obtain ⟨base, sizing, hb, hsame, -⟩ := writeVbar_vbars v idx val j
    by_cases hj : j = v.updateIdx idx
    · subst hj
      refine htarget ?_ hne
      rw [hb] at hio
      exact hio
    · rw [hb, hsame hj] at hio hne ⊢
      exact h.window j hio hne
  · intro j
    obtain ⟨base, sizing, hb, -⟩ := writeVbar_vbars v idx val j
    obtain ⟨base', sizing', hb', -⟩ := writeVbar_vbars v idx val (j - 1)
    rw [hb, hb']
    exact h.lower j

/-- The functions that are not written stay as they are. -/
theorem PtVm.Placed.update (h : vm.Placed) {dev : Nat} (hv : v.Placed vm) (s2 : Stage2) :
    PtVm.Placed { vm with vdevs := Function.update vm.vdevs dev v, s2 := s2 } := by
  intro dev'
  have hall : (Function.update vm.vdevs dev v dev').Placed vm := by
    by_cases hdev : dev' = dev
    · rw [hdev, update_self]
      exact hv
    · rw [update_of_ne hdev]
      exact h dev'
  exact ⟨hall.window, hall.lower⟩

/-- A memory BAR that keeps to the windows. -/
theorem ptWriteVbar_confined {v' : Vdev} (h : v.Placed vm) (hmem : (v.vbars idx).isIo = false)
    (hpt : v.ptWriteVbar idx val s2 = some (v', s2'))
    (hallowed : (v.writeCfg idx val).barBase (v.updateIdx idx) ≠ 0 →
      vm.InWindow ((v.writeCfg idx val).barBase (v.updateIdx idx))
      (v.vbars (v.updateIdx idx)).size ∧ v.TableFits (v.updateIdx idx)) :
    v'.Placed vm ∧ (∀ page, vm.Outside page → s2' page = s2 page) ∧
      ((v'.vbars (v.updateIdx idx)).baseGpa ≠ 0 →
        vm.InWindow (v'.vbars (v.updateIdx idx)).baseGpa (v'.vbars (v.updateIdx idx)).size) ∧
      s2' = movedBar v v' (v.updateIdx idx) s2 := by
  obtain ⟨rfl, rfl, halign⟩ := ptWriteVbar_spec hmem hpt
  obtain ⟨base, sizing, hb, -, hbase⟩ := writeVbar_vbars v idx val (v.updateIdx idx)
  have hsize : ((v.writeVbar idx val).vbars (v.updateIdx idx)).size =
      (v.vbars (v.updateIdx idx)).size := by rw [hb]
  have hin : ((v.writeVbar idx val).vbars (v.updateIdx idx)).baseGpa ≠ 0 →
      vm.InWindow ((v.writeVbar idx val).vbars (v.updateIdx idx)).baseGpa
        ((v.writeVbar idx val).vbars (v.updateIdx idx)).size ∧
      (v.writeVbar idx val).TableFits (v.updateIdx idx) := by
    unfold Vdev.TableFits
    rw [hsize, hb]
    intro hne
    rcases hbase rfl with hzero | heq
    · exact absurd hzero hne
    · subst heq
      exact hallowed hne
  refine ⟨h.write fun _ hne => (hin hne).1, fun page hout => ?_, fun hne => (hin hne).1, rfl⟩
  -- neither the old nor the new range has the page, and the table is trapped inside the new one
  have hnew : ¬ ((v.writeVbar idx val).vbars (v.updateIdx idx)).Covers page :=
    fun hcovers => (hin hcovers.1).1.not_covers hout hcovers
  have hold : ¬ (v.vbars (v.updateIdx idx)).Covers page :=
    fun hcovers => (h.window _ (h.target hmem) hcovers.1).not_covers hout hcovers
  unfold movedBar
  rw [if_neg fun htraps => hnew (covers_of_traps (halign htraps.1) (hin htraps.1).2 htraps.1
    htraps.2), if_neg hnew, if_neg hold]

/-- **A write that keeps to the windows is confined, and leaves the BARs placed.** -/
theorem writeBar_confined (h : vm.Placed) {w : BarWrite} (hallowed : vm.Allowed w) {vm' : PtVm}
    (hwrite : vm.writeBar w = some vm') : vm.Confines w vm' ∧ vm'.Placed := by
  unfold PtVm.writeBar at hwrite
  split at hwrite
  next hidx =>
    obtain ⟨⟨v', s2'⟩, hpt, rfl⟩ := Option.map_eq_some_iff.mp hwrite
    unfold PtVm.Confines
    simp only [update_self]
    cases hmem : ((vm.vdevs w.dev).vbars w.idx).isIo with
    | false =>
      obtain ⟨hv, hout, hrest⟩ := ptWriteVbar_confined (h w.dev) hmem hpt (hallowed hmem)
      exact ⟨⟨hout, fun _ _ => hrest⟩, h.update hv s2'⟩
    | true =>
      unfold Vdev.ptWriteVbar at hpt
      rw [if_pos hmem] at hpt
      cases hpt
      refine ⟨⟨fun _ _ => rfl, nofun⟩, h.update ((h w.dev).write ?_) _⟩
      -- an I/O BAR is the BAR that is updated
      have hhi : ((vm.vdevs w.dev).vbars w.idx).isMem64hi = false := by
        simp only [Vbar.isIo, Bool.and_eq_true, Bool.not_eq_true'] at hmem
        exact hmem.2
      intro hio
      unfold Vdev.updateIdx at hio
      rw [if_neg (by rw [hhi]; decide), hmem] at hio
      cases hio
  next hidx =>
    cases hwrite
    exact ⟨⟨fun _ _ => rfl, fun hlt => absurd hlt hidx⟩, h⟩

/-! ### Runs -/

/-- A run of writes ends where the hypervisor panics. -/
def barStep (vm : Option PtVm) (w : BarWrite) : Option PtVm := vm.bind (·.writeBar w)

/--
**In every run of writes that keep to the windows, each mapping is the range of its BAR inside a
window, and no page outside of the windows is remapped.**
-/
theorem bar_writes_confined (vm : PtVm) (hplaced : vm.Placed) (writes : List BarWrite)
    (hallowed : Run.Along barStep (fun vm w => ∀ s ∈ vm, s.Allowed w) (some vm) writes) :
    Run.Along barStep (fun vm w => ∀ s ∈ vm, s.Confined w) (some vm) writes := by
  have hrun : ∀ (writes : List BarWrite) (vm : Option PtVm), (∀ s ∈ vm, s.Placed) →
      Run.Along barStep (fun vm w => ∀ s ∈ vm, s.Allowed w) vm writes →
      Run.Along barStep (fun vm w => ∀ s ∈ vm, s.Confined w) vm writes := by
    intro writes
    induction writes with
    | nil => exact fun _ _ _ => trivial
    | cons w rest ih =>
      intro vm hplaced hallowed
      refine ⟨fun s hs vm' hw => (writeBar_confined (hplaced s hs) (hallowed.1 s hs) hw).1,
        ih _ (fun vm' hvm' => ?_) hallowed.2⟩
      obtain ⟨s, hs, hw⟩ := Option.bind_eq_some_iff.mp hvm'
      exact (writeBar_confined (hplaced s hs) (hallowed.1 s hs) hw).2
  exact hrun writes (some vm) (fun s hs => Option.some.inj hs ▸ hplaced) hallowed

/-- One function with a 32-bit BAR of a page at host page `0x10000`, not placed yet. -/
def onePageVm : PtVm where
  vdevs _ := ⟨1, fun _ => ⟨false, false, 0x1000, 0, 0x10000000, 0, 0xfffff000⟩, fun _ => 0, false,
    0, 0, 0⟩
  res32 := (0x80000000, 0x8fffffff)
  res64 := (0x4000000000, 0x4fffffffff)
  s2 _ := none

theorem onePageVm_placed : onePageVm.Placed :=
  fun _ => ⟨fun _ _ hne => absurd rfl hne, nofun⟩

theorem bar_writes_confined_onePage :
    Run.Along barStep (fun vm w => ∀ s ∈ vm, s.Confined w) (some onePageVm)
      [⟨0, 0, 0xffffffff⟩, ⟨0, 0, 0x80001000⟩, ⟨0, 0, 0x80002000⟩] :=
  bar_writes_confined onePageVm onePageVm_placed _ (by decide +kernel)

/-- The guest puts the BAR at an unmapped page outside of its windows, and the page is mapped. -/
theorem bar_over_trapped_page :
    onePageVm.Outside 0x8000 ∧ onePageVm.s2 0x8000 = none ∧
      (onePageVm.writeBar ⟨0, 0, 0x08000000⟩).map (fun vm => vm.s2 0x8000) = some (some 0x10000) := by
  refine ⟨?_, rfl, ?_⟩
  · unfold PtVm.Outside
    decide
  · decide +kernel

end BeauOs.Vpci
