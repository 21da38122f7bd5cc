/-
No stale DMA translation.

As long as every cached translation agrees with the table of the VM it belongs to, no transaction
can be translated wrongly (`DmaInv.fresh`).  Walks keep this, since an entry that translates holds
the root of its VM's table.  What can break it is a change of the table, and the invalidation that
follows repairs it, if it takes place: the broker skips it if no stream is bound, and nothing else
drops what was cached when one was, neither detaching the stream nor destroying the domain.

The theorem is therefore about runs in which a VM whose domain has no bound stream changes its table
only if no stream has been attached for it so far (`Invalidated`).
-/
import BeauOs.Iommu.DmaTlb
import BeauOs.Proofs.Iommu.Broker

namespace BeauOs.Iommu.DmaState

open Function Smmu Broker

variable {pr : Probe} {s : DmaState}

/-! ### The invariant -/

/-- The table of `stale` has been changed and not been synchronized yet. -/
structure DmaInv (pr : Probe) (stale : Option (Fin maxVmNum)) (s : DmaState) : Prop where
  isolation : IsolationInv pr s.broker.smmu
  records : RecordsOk s.broker
  roots : ∀ v, (s.broker.domains v).used = true → (s.broker.domains v).s2.rootTableHpa = s.roots v
  fresh : ∀ e ∈ s.tlb, ∀ v, stale ≠ some v → e.hwVmid = vmHwVmid v → s.tables v e.ipa = some e.pa
  cached : ∀ e ∈ s.tlb, ∀ v, e.hwVmid = vmHwVmid v → s.exposed v = true
  attached : ∀ i streamId v, (s.broker.domains v).used = true →
    Holds s.broker.smmu i streamId (s.broker.domains v).s2 → s.exposed v = true

variable {stale : Option (Fin maxVmNum)}

theorem vmHwVmid_inj {v w : Fin maxVmNum} (h : vmHwVmid v = vmHwVmid w) : v = w := by
  have hv : (v : Nat) < 16 := v.isLt
  have hw : (w : Nat) < 16 := w.isLt
  have hnat := congrArg BitVec.toNat h
  unfold vmHwVmid at hnat
  rw [BitVec.toNat_ofNat, BitVec.toNat_ofNat, Nat.mod_eq_of_lt (by omega),
    Nat.mod_eq_of_lt (by omega)] at hnat
  exact Fin.ext (Nat.succ.inj hnat)

variable {v : Fin maxVmNum}

theorem table_of_yields {hwVmid : BitVec 16} {root ipa pa : BitVec 64}
    (h : s.yields hwVmid root ipa pa = true) (hvmid : hwVmid = vmHwVmid v)
    (hroot : root = s.roots v) : s.tables v ipa = some pa := by
  have hv := List.all_eq_true.mp h v (List.mem_finRange v)
  simpa [hvmid, hroot] using hv

/-! ### Walks -/

section

variable (hinv : DmaInv pr stale s)

include hinv

/-- An entry that translates has the VMID and the root of a VM in use. -/
theorem DmaInv.vm_of_isLive {streamId : BitVec 32} (hlive : s.isLive pr streamId = true) :
    ∃ v, (s.broker.smmu.strtab streamId).s2vmid = vmHwVmid v ∧
      (s.broker.smmu.strtab streamId).s2ttb = s.roots v ∧ s.exposed v = true := by
  unfold isLive inStrtab at hlive
  simp only [Bool.and_eq_true, decide_eq_true_eq] at hlive
  obtain ⟨⟨hready, hin⟩, hvalid, hcfg⟩ := hlive
  rcases hinv.isolation.table hready streamId hin with habort | ⟨i, hrec, hid, hentry⟩
  · rcases habort with h | h
    · exact absurd h hvalid
    · exact absurd (hcfg.symm.trans h) (by decide)
  have hheld : Holds s.broker.smmu i streamId (s.broker.smmu.streams i).config :=
    ⟨hrec.1, hrec.2.1, hid, rfl⟩
  obtain ⟨v, hused, hconfig⟩ := hinv.records.records i streamId _ hheld
  refine ⟨v, ?_, ?_, hinv.attached i streamId v hused (hconfig ▸ hheld)⟩
  · rw [hentry, s2vmid_s2Ste, hconfig]
    exact (hinv.records.identity v hused).2
  · rw [hentry, s2ttb_s2Ste pr (hinv.isolation.roots i hrec.1 hrec.2.1), hconfig]
    exact hinv.roots v hused

/-- Entries that come from the table of a VM that is exposed may be cached. -/
theorem DmaInv.cache (new : List CachedEntry) (hexposed : s.exposed v = true)
    (hnew : ∀ e ∈ new, e.hwVmid = vmHwVmid v ∧ s.tables v e.ipa = some e.pa) :
    DmaInv pr stale { s with tlb := new ++ s.tlb } := by
  refine ⟨hinv.isolation, hinv.records, hinv.roots, ?_, ?_, hinv.attached⟩
  · intro e he u hstale hu
    rcases List.mem_append.mp he with he | he
    · obtain rfl := vmHwVmid_inj ((hnew e he).1.symm.trans hu)
      exact (hnew e he).2
    · exact hinv.fresh e he u hstale hu
  · intro e he u hu
    rcases List.mem_append.mp he with he | he
    · obtain rfl := vmHwVmid_inj ((hnew e he).1.symm.trans hu)
      exact hexposed
    · exact hinv.cached e he u hu

theorem DmaInv.walk (w : Walk) : DmaInv pr stale (walk pr s w) := by
  unfold DmaState.walk
  simp only
  split
  next h =>
    rw [Bool.and_eq_true] at h
    obtain ⟨v, hvmid, hroot, hexposed⟩ := hinv.vm_of_isLive h.1
    refine hinv.cache [_] hexposed fun e he => ?_
    obtain rfl := List.mem_singleton.mp he
    exact ⟨hvmid, table_of_yields h.2 hvmid hroot⟩
  next => exact hinv

omit hinv in
theorem DmaInv.walks (walks : List Walk) :
    ∀ {s : DmaState}, DmaInv pr stale s → DmaInv pr stale (walks.foldl (DmaState.walk pr) s) := by
  induction walks with
  | nil => exact fun h => h
  | cons w rest ih => exact fun h => ih (h.walk w)

/-! ### The broker's calls -/

variable {b : Broker}

variable {tlb : List CachedEntry}

theorem DmaInv.withBroker (htlb : tlb ⊆ s.tlb) (hisolation : IsolationInv pr b.smmu)
    (hrecords : RecordsOk b)
    (hroots : ∀ v, (b.domains v).used = true → (b.domains v).s2.rootTableHpa = s.roots v)
    (hattached : ∀ i streamId v, (b.domains v).used = true →
      Holds b.smmu i streamId (b.domains v).s2 → s.exposed v = true) :
    DmaInv pr stale { s with broker := b, tlb := tlb } :=
  ⟨hisolation, hrecords, hroots, fun e he => hinv.fresh e (htlb he),
    fun e he => hinv.cached e (htlb he), hattached⟩

theorem DmaInv.sameConfigs (htlb : tlb ⊆ s.tlb) (hisolation : IsolationInv pr b.smmu)
    (hrecords : RecordsOk b) (hsame : SameConfigs s.broker b)
    (hattached : ∀ i id v, (s.broker.domains v).used = true →
      Holds b.smmu i id (s.broker.domains v).s2 → s.exposed v = true) :
    DmaInv pr stale { s with broker := b, tlb := tlb } := by
  refine hinv.withBroker htlb hisolation hrecords (fun v hused => ?_) (fun i id v hused hheld => ?_)
  · rw [(hsame v).1] at hused
    rw [(hsame v).2]
    exact hinv.roots v hused
  · rw [(hsame v).1] at hused
    rw [(hsame v).2] at hheld
    exact hattached i id v hused hheld

/-- The records, the domains and the cached entries are as before, or fewer. -/
theorem DmaInv.fewer (htlb : tlb ⊆ s.tlb) (hisolation : IsolationInv pr b.smmu)
    (hrecords : RecordsOk b) (hsame : SameConfigs s.broker b)
    (hfewer : ∀ i id c, Holds b.smmu i id c → Holds s.broker.smmu i id c) :
    DmaInv pr stale { s with broker := b, tlb := tlb } :=
  hinv.sameConfigs htlb hisolation hrecords hsame fun i id v hused hheld =>
    hinv.attached i id v hused (hfewer i id _ hheld)

omit hinv in
theorem called_tlb_subset (s : DmaState) (hw : Hardware) (b : Broker) :
    (s.called hw b).tlb ⊆ s.tlb :=
  fun _ => List.mem_of_mem_filter

omit hinv in
/-- The broker passes one operation on to the driver, or none. -/
theorem isolationInv_calls (h : IsolationInv pr b.smmu) (hw : Hardware) (v : Fin maxVmNum)
    (streamId : BitVec 32) :
    IsolationInv pr (assignStream pr hw (some v) streamId b).2.smmu ∧
      IsolationInv pr (unassignStream pr hw (some v) streamId b).2.smmu ∧
      IsolationInv pr (destroyDomain pr hw (some v) b).smmu := by
  have hattach := h.attach (attachStep pr hw (b.domains v).s2 streamId b.smmu)
  have hdetach := h.detach (detachStep pr hw (b.domains v).s2 streamId b.smmu)
  have hdomain := h.hwDetachDomain hw (b.domains v).s2
  unfold assignStream unassignStream destroyDomain
  simp only
  by_cases hused : (b.domains v).used = false
  · simp only [if_pos hused]
    exact ⟨h, h, h⟩
  · simp only [if_neg hused]
    refine ⟨?_, ?_, ?_⟩
    all_goals split <;> assumption

theorem DmaInv.create (v : Fin maxVmNum) (addrWidth : Nat) :
    DmaInv pr stale (step pr s (.create v addrWidth)) := by
  have hrecords : RecordsOk (createDomain pr v (s.roots v) addrWidth s.broker).2 :=
    hinv.records.createDomain (s.roots v) addrWidth
  show DmaInv pr stale { s with broker := (createDomain pr v (s.roots v) addrWidth s.broker).2 }
  rcases createDomain_cases pr v (s.roots v) addrWidth s.broker with
    hsame | ⟨config, hunused, hid, hroot, hnew⟩
  · rw [hsame]
    exact hinv
  rw [hnew] at hrecords ⊢
  have hself : (s.broker.setDomain v ⟨config, true, false⟩).domains v = ⟨config, true, false⟩ :=
    update_self ..
  have hother (w : Fin maxVmNum) (hw : w ≠ v) :
      (s.broker.setDomain v ⟨config, true, false⟩).domains w = s.broker.domains w :=
    update_of_ne hw _ _
  refine hinv.withBroker (List.Subset.refl _) hinv.isolation hrecords (fun w hused => ?_)
    (fun i id w hused hheld => ?_)
  · by_cases hw : w = v
    · subst hw
      rw [hself]
      exact hroot
    · rw [hother w hw] at hused ⊢
      exact hinv.roots w hused
  · by_cases hw : w = v
    · -- nothing can hold the configuration of a domain that was not in use
      subst hw
      rw [hself] at hheld
      obtain ⟨u, hu, hc⟩ := hinv.records.records i id config hheld
      have howner := (hinv.records.identity u hu).1
      rw [← hc, hid.1] at howner
      obtain rfl : w = u := Fin.ext howner
      exact absurd (hunused.symm.trans hu) Bool.false_ne_true
    · rw [hother w hw] at hused hheld
      exact hinv.attached i id w hused hheld

theorem DmaInv.destroy (v : Fin maxVmNum) (hw : Hardware) :
    DmaInv pr stale (step pr s (.destroy v hw)) := by
  have hrecords : RecordsOk (destroyDomain pr hw (some v) s.broker) :=
    hinv.records.destroyDomain hw
  have hisolation := (isolationInv_calls hinv.isolation hw v 0#32).2.2
  obtain ⟨-, ⟨hdomains, hsame⟩ | ⟨-, hdomains, hgone⟩⟩ := destroyDomain_cases pr hw v hinv.records
  · refine hinv.fewer (s.called_tlb_subset hw _) hisolation hrecords (fun w => ?_)
      (fun i id c hh => (hsame i id c).mp hh)
    rw [hdomains]
    exact ⟨rfl, rfl⟩
  · have hkept (w : Fin maxVmNum)
        (hused : ((destroyDomain pr hw (some v) s.broker).domains w).used = true) :
        (destroyDomain pr hw (some v) s.broker).domains w = s.broker.domains w := by
      rw [hdomains] at hused ⊢
      by_cases hwv : w = v
      · rw [hwv, update_self] at hused
        cases hused
      · exact update_of_ne hwv _ _
    refine hinv.withBroker (s.called_tlb_subset hw _) hisolation hrecords (fun w hused => ?_)
      (fun i id w hused hheld => ?_)
    · have hsame := hkept w hused
      rw [hsame] at hused ⊢
      exact hinv.roots w hused
    · have hsame := hkept w hused
      rw [hsame] at hused hheld
      exact hinv.attached i id w hused ((hgone i id _).mp hheld).1

theorem DmaInv.unassign (v : Fin maxVmNum) (streamId : BitVec 32)
    (hw : Hardware) : DmaInv pr stale (step pr s (.unassign v streamId hw)) := by
  have hrecords : RecordsOk (unassignStream pr hw (some v) streamId s.broker).2 :=
    hinv.records.unassignStream hw (some v) streamId
  have hisolation := (isolationInv_calls hinv.isolation hw v streamId).2.1
  rcases unassignStream_cases hw (some v) streamId hinv.records with
    ⟨-, hdomains, -, hsame⟩ | ⟨-, -, w, -, -, ⟨i, -, hholds⟩, hout⟩
  · refine hinv.fewer (s.called_tlb_subset hw _) hisolation hrecords (fun w => ?_)
      (fun i id c hh => (hsame i id c).mp hh)
    rw [hdomains]
    exact ⟨rfl, rfl⟩
  · refine hinv.fewer (s.called_tlb_subset hw _) hisolation hrecords ?_
      (fun j id c hh => ((hholds j id c).mp hh).2)
    rw [hout]
    exact sameConfigs_setDomain _

theorem DmaInv.expose (v : Fin maxVmNum) :
    DmaInv pr stale { s with exposed := Function.update s.exposed v true } := by
  have hmono (w : Fin maxVmNum) (h : s.exposed w = true) :
      Function.update s.exposed v true w = true := by
    by_cases hw : w = v
    · rw [hw, update_self]
    · rw [update_of_ne hw]
      exact h
  exact ⟨hinv.isolation, hinv.records, hinv.roots, hinv.fresh,
    fun e he w hw => hmono w (hinv.cached e he w hw),
    fun i id w hused hheld => hmono w (hinv.attached i id w hused hheld)⟩

/-- What is cached while an entry of the VM is published comes from its table. -/
theorem DmaInv.cacheDuring
    (hused : (s.broker.domains v).used = true) (hexposed : s.exposed v = true)
    (walks : List (BitVec 64 × BitVec 64)) :
    DmaInv pr stale
      { s with tlb := s.cachedDuring (s.broker.domains v).s2 walks ++ s.tlb } := by
  have hvmid := (hinv.records.identity v hused).2
  refine hinv.cache _ hexposed fun e he => ?_
  unfold cachedDuring at he
  obtain ⟨w, hw, rfl⟩ := List.mem_map.mp he
  exact ⟨hvmid, table_of_yields (List.mem_filter.mp hw).2 hvmid (hinv.roots v hused)⟩

theorem DmaInv.assign (v : Fin maxVmNum) (streamId : BitVec 32)
    (walks : List (BitVec 64 × BitVec 64)) (hw : Hardware) :
    DmaInv pr stale (step pr s (.assign v streamId walks hw)) := by
  unfold DmaState.step
  simp only
  split
  next hused =>
    have hexposed : Function.update s.exposed v true v = true := update_self ..
    have hcached := (hinv.expose v).cacheDuring hused hexposed walks
    have hrecords : RecordsOk (assignStream pr hw (some v) streamId s.broker).2 :=
      hinv.records.assignStream hw (some v) streamId
    have hisolation := (isolationInv_calls hinv.isolation hw v streamId).1
    have htlb : s.cachedDuring (s.broker.domains v).s2 walks ++
        (s.called hw (assignStream pr hw (some v) streamId s.broker).2).tlb ⊆ _ ++ s.tlb :=
      List.append_subset_of_subset_of_subset (List.subset_append_left _ _)
        (List.subset_append_of_subset_right _ (s.called_tlb_subset hw _))
    rcases assignStream_cases hw (some v) streamId hinv.records with
      ⟨-, hdomains, -, hholds⟩ | ⟨-, -, u, hu, -, ⟨i, -, -, hholds⟩, hout⟩
    · refine hcached.fewer htlb hisolation hrecords (fun w => ?_) (fun i id c hh => ?_)
      · rw [hdomains]
        exact ⟨rfl, rfl⟩
      · rcases hholds with hsame | ⟨config, j, -, -, hdrop⟩
        · exact (hsame i id c).mp hh
        · exact ((hdrop i id c).mp hh).2
    · obtain rfl := Option.some.inj hu
      have hsame : SameConfigs s.broker (assignStream pr hw (some v) streamId s.broker).2 := by
        rw [hout]
        exact sameConfigs_setDomain _
      refine hcached.sameConfigs htlb hisolation hrecords hsame fun j id w hw hheld => ?_
      rcases (hholds j id _).mp hheld with ⟨-, -, hc⟩ | ⟨-, hold⟩
      · obtain rfl := hinv.records.eq_of_s2_eq hused hc
        exact hexposed
      · exact hcached.attached j id w hw hold
  next => exact hinv

end

/-! ### Changing a table -/

/-- A change of a table is synchronized with success. -/
def Synced (pr : Probe) (s : DmaState) : DmaAction → Prop
  | .change v root table walks hw => changeRet pr s v root table walks hw = 0
  | _ => True

/-- The VM has a bound stream, or none was ever attached for it. -/
def Invalidated (s : DmaState) : DmaAction → Prop
  | .change v _ _ _ _ => (s.broker.domains v).hwBound = true ∨ s.exposed v = false
  | _ => True

theorem hwStep_syncVmStage2 (pr : Probe) (hw : Hardware) (v : Fin maxVmNum) (root : BitVec 64)
    (b : Broker) :
    HwStep b.smmu (syncVmStage2 pr hw v root b).2.smmu ∧
      (syncVmStage2 pr hw v root b).2.domains = b.domains := by
  unfold syncVmStage2
  split
  · exact ⟨HwStep.rfl, rfl⟩
  split
  · exact ⟨HwStep.rfl, rfl⟩
  split
  · exact ⟨HwStep.rfl, rfl⟩
  · split
    · exact ⟨hwStep_hwSyncS2 pr hw _ _, rfl⟩
    · exact ⟨HwStep.rfl, rfl⟩

theorem broker_walks (pr : Probe) (walks : List Walk) :
    ∀ s : DmaState, (walks.foldl (DmaState.walk pr) s).broker = s.broker ∧
      (walks.foldl (DmaState.walk pr) s).exposed = s.exposed := by
  induction walks with
  | nil => exact fun s => ⟨rfl, rfl⟩
  | cons w rest ih =>
    intro s
    have hwalk : (DmaState.walk pr s w).broker = s.broker ∧
        (DmaState.walk pr s w).exposed = s.exposed := by
      unfold DmaState.walk
      simp only
      split
      · exact ⟨rfl, rfl⟩
      · exact ⟨rfl, rfl⟩
    exact ⟨(ih _).1.trans hwalk.1, (ih _).2.trans hwalk.2⟩

theorem DmaInv.setTable (hinv : DmaInv pr none s) (v : Fin maxVmNum) (root : BitVec 64)
    (table : BitVec 64 → Option (BitVec 64))
    (hroot : (s.broker.domains v).used = true → (s.broker.domains v).s2.rootTableHpa = root) :
    DmaInv pr (some v) (s.setTable v root table) := by
  refine ⟨hinv.isolation, hinv.records, fun w hused => ?_, fun e he w hstale hw => ?_, hinv.cached,
    hinv.attached⟩
  · show (s.broker.domains w).s2.rootTableHpa = Function.update s.roots v root w
    by_cases hwv : w = v
    · subst hwv
      rw [update_self]
      exact hroot hused
    · rw [update_of_ne hwv]
      exact hinv.roots w hused
  · have hwv : w ≠ v := fun h => hstale (congrArg some h.symm)
    show Function.update s.tables v table w e.ipa = some e.pa
    rw [update_of_ne hwv]
    exact hinv.fresh e he w (by simp) hw

/-! ### The synchronization -/

section

variable {hw : Hardware} {t : Smmu}

theorem toNat_queueNext (ptr : BitVec 32) : (queueNext ptr).toNat = (ptr.toNat + 1) % 128 := by
  unfold queueNext qPtrMask
  rw [BitVec.toNat_and, BitVec.toNat_add]
  show (ptr.toNat + 1) % 2 ^ 32 &&& (2 ^ 7 - 1) = _
  rw [Nat.and_two_pow_sub_one_eq_mod]
  omega

theorem toNat_slot (ptr : BitVec 32) : (ptr &&& 63#32).toNat = ptr.toNat % 64 := by
  rw [BitVec.toNat_and]
  exact Nat.and_two_pow_sub_one_eq_mod ptr.toNat 6

/-- What a step that was followed by others returned, if the whole succeeded. -/
theorem fst_eq_zero {out rest : Int × Smmu} (h : (if out.1 = 0 then rest else out).1 = 0) :
    out.1 = 0 := by
  by_contra hne
  rw [if_neg hne] at h
  exact hne h

theorem cmdqIssue_ok {command : Command} (h : (cmdqIssue pr hw command t).1 = 0) :
    (cmdqIssue pr hw command t).2.cmdq =
        update t.cmdq (t.cmdqProd &&& 63#32) (some command) ∧
      (cmdqIssue pr hw command t).2.cmdqProd = queueNext t.cmdqProd := by
  unfold cmdqIssue at h ⊢
  simp only at h ⊢
  split at h
  · exact absurd h (show -Pm.eIo ≠ 0 by decide)
  next herr =>
  split at h
  · exact absurd h (show -Pm.eBusy ≠ 0 by decide)
  next hroom =>
  rw [if_neg herr, if_neg hroom]
  exact ⟨rfl, rfl⟩

/-- The wait succeeds only on a read that finds the queue consumed. -/
theorem cmdqWait_ok (n : Nat) : ∀ {t : Smmu}, (cmdqWait pr hw t.cmdqProd n t).1 = 0 →
    (cmdqWait pr hw t.cmdqProd n t).2.cmdq = t.cmdq ∧
      (cmdqWait pr hw t.cmdqProd n t).2.cmdqProd = t.cmdqProd ∧
      consumed hw (cmdqWait pr hw t.cmdqProd n t).2 = true := by
  induction n with
  | zero => exact fun h => absurd h (show -Pm.eTimedOut ≠ 0 by decide)
  | succ n ih =>
    intro t h
    unfold cmdqWait at h ⊢
    simp only at h ⊢
    split at h
    · exact absurd h (show -Pm.eIo ≠ 0 by decide)
    next herr =>
    rw [if_neg herr]
    split at h
    next hcons =>
      rw [if_pos hcons]
      exact ⟨rfl, rfl, Bool.and_eq_true_iff.mpr
        ⟨decide_eq_true (not_not.mp herr), decide_eq_true hcons⟩⟩
    next hcons =>
      rw [if_neg hcons]
      exact ih (t := t.tick) h

theorem issued_pair (cmdq : BitVec 32 → Option Command) (ptr : BitVec 32) (first second : Command) :
    issued (update (update cmdq (ptr &&& 63#32) (some first)) (queueNext ptr &&& 63#32)
      (some second)) (queueNext (queueNext ptr)) queueEntries ptr = [first, second] := by
  have hnext := toNat_queueNext ptr
  have hstop := toNat_queueNext (queueNext ptr)
  have h₁ : ptr ≠ queueNext (queueNext ptr) := BitVec.toNat_ne.mpr (by omega)
  have h₂ : queueNext ptr ≠ queueNext (queueNext ptr) := BitVec.toNat_ne.mpr (by omega)
  have h₃ : ptr &&& 63#32 ≠ queueNext ptr &&& 63#32 :=
    BitVec.toNat_ne.mpr (by rw [toNat_slot, toNat_slot]; omega)
  show issued _ _ (61 + 1 + 1 + 1) ptr = _
  simp [issued, h₁, h₂, update_of_ne h₃]

theorem invalidates_hwSyncS2 {config : S2Config} (h : (hwSyncS2 pr hw config t).1 = 0) :
    invalidates hw t (hwSyncS2 pr hw config t).2 config.hwVmid = true := by
  unfold hwSyncS2 at h ⊢
  simp only at h ⊢
  split at h
  next hvalid =>
    rw [if_pos hvalid]
    unfold tlbiS12Vmall at h ⊢
    split at h
    · exact absurd h (show -Pm.eNoDev ≠ 0 by decide)
    next hready =>
    rw [if_neg hready]
    unfold commandAndSync cmdqSyncLocked at h ⊢
    have hfirst := fst_eq_zero h
    simp only [if_pos hfirst] at h ⊢
    obtain ⟨hcmd₁, hprod₁⟩ := cmdqIssue_ok hfirst
    have hsecond := fst_eq_zero h
    simp only [if_pos hsecond] at h ⊢
    obtain ⟨hcmd₂, hprod₂⟩ := cmdqIssue_ok hsecond
    obtain ⟨hcmd, hprod, hdone⟩ := cmdqWait_ok _ h
    unfold invalidates
    rw [hdone, hcmd, hprod, hprod₂, hcmd₂, hcmd₁, hprod₁, issued_pair]
    simp [List.isSublist]
  next hvalid => exact absurd h hvalid

end

theorem syncVmStage2_ok {hw : Hardware} {root : BitVec 64} {b : Broker}
    (h : (syncVmStage2 pr hw v root b).1 = 0) (hused : (b.domains v).used = true) :
    (b.domains v).s2.rootTableHpa = root ∧
      ((b.domains v).hwBound = true → invalidates hw b.smmu (syncVmStage2 pr hw v root b).2.smmu
        (b.domains v).s2.hwVmid = true) := by
  unfold syncVmStage2 at h ⊢
  split at h
  · exact absurd h (show -Pm.eInval ≠ 0 by decide)
  next hvalid =>
  have hnot : ¬ (b.domains v).used = false := by rw [hused]; decide
  rw [if_neg hnot] at h
  split at h
  · exact absurd h (show -Pm.ePerm ≠ 0 by decide)
  next hmatch =>
  refine ⟨not_not.mp (not_or.mp hmatch).2, fun hbound => ?_⟩
  rw [if_pos hbound] at h
  rw [if_neg hvalid, if_neg hnot, if_neg hmatch, if_pos hbound]
  exact invalidates_hwSyncS2 h

/-- A change ends with its synchronization, if this invalidates or nothing is to be invalidated. -/
theorem DmaInv.sync (hinv : DmaInv pr (some v) s) (hw : Hardware)
    (root : BitVec 64) (hret : (sync pr hw v root s).1 = 0)
    (hok : (s.broker.domains v).hwBound = true ∨ s.exposed v = false) :
    DmaInv pr none (sync pr hw v root s).2 := by
  obtain ⟨hstep, hdomains⟩ := hwStep_syncVmStage2 pr hw v root s.broker
  have hbroker : DmaInv pr (some v) (DmaState.sync pr hw v root s).2 := by
    have hsame := sameHolds_of_streams hstep.streams
    refine hinv.fewer (s.called_tlb_subset hw _) (hinv.isolation.hwStep hstep) ?_
      (fun w => by rw [hdomains]; exact ⟨rfl, rfl⟩) (fun i id c hh => (hsame i id c).mp hh)
    exact hinv.records.of_fewer hdomains (fun i id c hh => (hsame i id c).mp hh)
      (hstep.streams ▸ hinv.records.unique)
  have hgone (e : CachedEntry) (he : e ∈ (DmaState.sync pr hw v root s).2.tlb) :
      e.hwVmid ≠ vmHwVmid v := by
    intro hvmid
    obtain ⟨hmem, hkept⟩ := List.mem_filter.mp he
    rcases hok with hbound | hclean
    · have hused : (s.broker.domains v).used = true := by
        by_contra hunused
        rw [hinv.records.unused v ((Bool.not_eq_true _).mp hunused)] at hbound
        cases hbound
      rw [hvmid.trans (hinv.records.identity v hused).2.symm,
        (syncVmStage2_ok hret hused).2 hbound] at hkept
      cases hkept
    · exact absurd (hclean.symm.trans (hinv.cached e hmem v hvmid)) Bool.false_ne_true
  refine ⟨hbroker.isolation, hbroker.records, hbroker.roots, fun e he w _ hw' => ?_,
    hbroker.cached, hbroker.attached⟩
  refine hbroker.fresh e he w (fun h => hgone e he ?_) hw'
  rw [hw', Option.some.inj h]

theorem DmaInv.change (hinv : DmaInv pr none s) (v : Fin maxVmNum) (root : BitVec 64)
    (table : BitVec 64 → Option (BitVec 64)) (walks : List Walk) (hw : Hardware)
    (hret : changeRet pr s v root table walks hw = 0)
    (hok : (s.broker.domains v).hwBound = true ∨ s.exposed v = false) :
    DmaInv pr none (step pr s (.change v root table walks hw)) := by
  obtain ⟨hbroker, hexposed⟩ := broker_walks pr walks (s.setTable v root table)
  have hsynced : (syncVmStage2 pr hw v root s.broker).1 = 0 := by
    have h : (DmaState.sync pr hw v root
      (walks.foldl (DmaState.walk pr) (s.setTable v root table))).1 = 0 := hret
    unfold DmaState.sync at h
    rw [hbroker] at h
    exact h
  have hset := hinv.setTable v root table fun hused => (syncVmStage2_ok hsynced hused).1
  refine (hset.walks walks).sync hw root hret ?_
  rw [hbroker, hexposed]
  exact hok

/-! ### Whole runs -/

theorem Booted.dmaInv (h : Booted pr s) : DmaInv pr none s := by
  have hunused {v : Fin maxVmNum} : ¬ (s.broker.domains v).used = true := by
    rw [h.domains v]
    exact Bool.false_ne_true
  have hempty {e : CachedEntry} : e ∉ s.tlb := by
    rw [h.tlb]
    exact List.not_mem_nil
  have hnone {i : Fin maxSwStreams} {id : BitVec 32} {c : S2Config} :
      ¬ Holds s.broker.smmu i id c :=
    fun hh => absurd ((h.smmu.unused i).symm.trans hh.1) Bool.false_ne_true
  refine ⟨h.smmu.isolationInv, ⟨?_, fun v _ => h.domains v, ?_, ?_⟩, ?_, ?_, ?_, ?_⟩
  · exact fun v hused => absurd hused hunused
  · exact fun _ _ _ hh => absurd hh hnone
  · exact fun i _ hi => absurd ((h.smmu.unused i).symm.trans hi) Bool.false_ne_true
  · exact fun v hused => absurd hused hunused
  · exact fun e he => absurd he hempty
  · exact fun e he => absurd he hempty
  · exact fun _ _ _ _ hh => absurd hh hnone

theorem DmaInv.step (hinv : DmaInv pr none s) (a : DmaAction) (hsynced : Synced pr s a)
    (hok : Invalidated s a) : DmaInv pr none (step pr s a) := by
  cases a with
  | create v addrWidth => exact hinv.create v addrWidth
  | destroy v hw => exact hinv.destroy v hw
  | assign v streamId walks hw => exact hinv.assign v streamId walks hw
  | unassign v streamId hw => exact hinv.unassign v streamId hw
  | change v root table walks hw => exact hinv.change v root table walks hw hsynced hok
  | walk w => exact hinv.walk w

/-- No cached translation for a stream attached to a VM differs from the VM's table. -/
def NoStale (s : DmaState) : Prop :=
  ∀ i streamId v, (s.broker.domains v).used = true →
    Holds s.broker.smmu i streamId (s.broker.domains v).s2 →
    ∀ e ∈ s.tlb, e.hwVmid = (s.broker.domains v).s2.hwVmid → s.tables v e.ipa = some e.pa

/--
**No stale DMA translation**, in every run in which each change of a table is synchronized with
success and a VM without a bound stream changes its table only if none was ever attached for it.
-/
theorem no_stale_dma {pr : Probe} {s : DmaState} (hboot : Booted pr s) (as : List DmaAction)
    (hsynced : Run.Along (step pr) (Synced pr) s as)
    (hok : Run.Along (step pr) Invalidated s as) : NoStale (Run.exec (step pr) s as) := by
  have hinv : DmaInv pr none (Run.exec (step pr) s as) :=
    Run.inv_exec (fun _ a h hok => h.step a hok.1 hok.2) hboot.dmaInv (hsynced.and hok)
  intro i streamId v hused _ e he hvmid
  exact hinv.fresh e he v (by simp) (hvmid.trans (hinv.records.identity v hused).2)

/-! ### Runs of one VM -/

instance Synced.decidable (pr : Probe) (s : DmaState) : ∀ a, Decidable (Synced pr s a)
  | .change v root table walks hw =>
    inferInstanceAs (Decidable (changeRet pr s v root table walks hw = 0))
  | .create _ _ | .destroy _ _ | .assign _ _ _ _ | .unassign _ _ _ | .walk _ => isTrue trivial

instance Invalidated.decidable (s : DmaState) : ∀ a, Decidable (Invalidated s a)
  | .change v _ _ _ _ =>
    inferInstanceAs (Decidable ((s.broker.domains v).hwBound = true ∨ s.exposed v = false))
  | .create _ _ | .destroy _ _ | .assign _ _ _ _ | .unassign _ _ _ | .walk _ => isTrue trivial

/-- No domains, an empty cache and empty tables. -/
def smallDma : DmaState where
  broker := ⟨smallBoot, fun _ => Domain.zero⟩
  tlb := []
  roots _ := 0#64
  tables _ _ := none
  exposed _ := false

theorem booted_smallDma : Booted smallProbe smallDma := ⟨booted_smallBoot, fun _ => rfl, rfl⟩

def mapTo (pa : BitVec 64) : DmaAction :=
  .change firstVm 0x80000000#64 (fun ipa => if ipa = 0x1000#64 then some pa else none) []
    (obliging 0#32)

/-- The stream is attached and its device reads the page. -/
def attachAndRead (pa : BitVec 64) : List DmaAction :=
  [.assign firstVm 3#32 [] (obliging 0#32), .walk ⟨3#32, 0x1000#64, pa⟩]

/-- The page moves while the stream is attached. -/
theorem no_stale_dma_moved :
    NoStale (Run.exec (step smallProbe) smallDma
      ([mapTo 0x5000#64, .create firstVm 40] ++ attachAndRead 0x5000#64 ++
        [mapTo 0x6000#64, .walk ⟨3#32, 0x1000#64, 0x6000#64⟩])) :=
  no_stale_dma booted_smallDma _ (by decide +kernel) (by decide +kernel)

/-- The stream goes away after its device read the page, the page moves, and the stream is back. -/
def reattachRun (goAway : DmaAction) : List DmaAction :=
  [mapTo 0x5000#64, .create firstVm 40] ++ attachAndRead 0x5000#64 ++
    [goAway, mapTo 0x6000#64, .create firstVm 40, .assign firstVm 3#32 [] (obliging 0#32)]

/-- The entry of the stream is live, and the cache has the old page for its VMID. -/
def oldPageCached (s : DmaState) : Bool :=
  s.isLive smallProbe 3#32 &&
    decide ((s.broker.smmu.strtab 3#32).s2vmid = (s.broker.domains firstVm).s2.hwVmid) &&
    decide ((⟨(s.broker.domains firstVm).s2.hwVmid, 0x1000#64, 0x5000#64⟩ : CachedEntry) ∈ s.tlb) &&
    decide (s.tables firstVm 0x1000#64 = some 0x6000#64)

/--
**A translation cached before a detach is used after the next attach**: the change of the table in
between was synchronized with success, but without an invalidation.  It makes no difference whether
the stream is detached or the domain is destroyed and created again.
-/
theorem stale_after_reattach :
    (Run.Along (step smallProbe) (Synced smallProbe) smallDma
        (reattachRun (.unassign firstVm 3#32 (obliging 0#32))) ∧
      oldPageCached (Run.exec (step smallProbe) smallDma
        (reattachRun (.unassign firstVm 3#32 (obliging 0#32)))) = true) ∧
    (Run.Along (step smallProbe) (Synced smallProbe) smallDma
        (reattachRun (.destroy firstVm (obliging 0#32))) ∧
      oldPageCached (Run.exec (step smallProbe) smallDma
        (reattachRun (.destroy firstVm (obliging 0#32)))) = true) := by
  decide +kernel

end BeauOs.Iommu.DmaState
