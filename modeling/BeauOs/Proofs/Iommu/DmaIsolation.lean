/-
DMA isolation: which entries of the stream table translate.

While the SMMU is ready, an entry translates only for a stream whose record is used, assigned and
not quarantined, with the VMID and the root of that record's configuration; every other entry
aborts.  Attach, detach and the handling of faults keep this, whatever commands fail: each of them
either leaves the entry it works on aborting or publishes it completely, and a command that fails
badly forces containment, after which nothing is ready.

A resume is the one exception.  It rebuilds the table from the records and looks at `used` and
`assigned` only, so a stream that was quarantined by a fault before the suspend translates again.
The theorem is therefore about runs in which no assigned stream is quarantined when a resume
rebuilds the table (`Unfaulted`).
-/
import BeauOs.Proofs.Iommu.SmmuSteps
import BeauOs.Lib.Run

namespace BeauOs.Iommu

open Function

open BeauOs.Pm (eIo eNoDev)

/-! ### Entries and configurations -/

theorem Ste.aborts_abort : Ste.abort.Aborts := .inr (by decide)

theorem Ste.aborts_zero : Ste.zero.Aborts := .inl (by decide)

/-- The root fits the field of an entry. -/
def S2Config.RootOk (config : S2Config) : Prop :=
  config.rootTableHpa &&& ste3S2ttbMask = config.rootTableHpa

namespace Smmu

variable (pr : Probe) (hw : Hardware)

theorem translates_s2Ste (config : S2Config) : (s2Ste pr config).Translates :=
  ⟨show (steValid ||| (steCfgS2Trans <<< 1)) &&& steValid ≠ 0#64 by decide,
    show ((steValid ||| (steCfgS2Trans <<< 1)) >>> 1) &&& 0x7#64 = steCfgS2Trans by decide⟩

theorem s2vmid_s2Ste (config : S2Config) : (s2Ste pr config).s2vmid = config.hwVmid := by
  unfold Ste.s2vmid s2Ste s2Body
  ext i hi
  have h51 : i ≠ 51 := by omega
  have h54 : i ≠ 54 := by omega
  have h58 : i ≠ 58 := by omega
  simp [ste2S2Aa64, ste2S2Ptw, ste2S2R]

variable {config : S2Config} {i : Fin maxSwStreams}

theorem s2ttb_s2Ste (h : config.RootOk) : (s2Ste pr config).s2ttb = config.rootTableHpa := by
  show config.rootTableHpa &&& ste3S2ttbMask &&& ste3S2ttbMask = config.rootTableHpa
  rw [BitVec.and_assoc, BitVec.and_self]
  exact h

/-- `arm_smmu_address_bits` counts the significant bits. -/
theorem lt_of_addressBits_le {k : Nat} :
    ∀ (n : Nat) (address : BitVec 64), address.toNat < 2 ^ n → addressBits n address ≤ k →
      address.toNat < 2 ^ k := by
  intro n
  induction n generalizing k with
  | zero =>
    intro address hlt _
    have : address.toNat = 0 := by omega
    rw [this]
    exact Nat.two_pow_pos k
  | succ n ih =>
    intro address hlt hle
    unfold addressBits at hle
    have hshift : (address >>> 1).toNat = address.toNat / 2 := by
      rw [BitVec.toNat_ushiftRight, Nat.shiftRight_eq_div_pow, Nat.pow_one]
    split at hle
    next hzero =>
      rw [hzero] at hshift
      have h2 : 2 ^ 1 ≤ 2 ^ k := Nat.pow_le_pow_right (by decide) hle
      have : (0#64).toNat = 0 := rfl
      omega
    next =>
    obtain ⟨m, rfl⟩ : ∃ m, k = m + 1 := ⟨k - 1, by omega⟩
    have hrec := ih (address >>> 1) (by rw [hshift]; omega) (Nat.le_of_succ_le_succ hle)
    rw [hshift] at hrec
    omega

/-- A page-aligned address below 2 ^ 48 fits the field. -/
theorem rootOk_of_lt (halign : config.rootTableHpa &&& 0xfff#64 = 0#64)
    (hlt : config.rootTableHpa.toNat < 2 ^ 48) : config.RootOk := by
  have hlowMask : ∀ i < 12, (0xfff#64).getLsbD i = true := by decide
  have hmask : ∀ i < 48, 12 ≤ i → ste3S2ttbMask.getLsbD i = true := by decide
  apply BitVec.eq_of_getLsbD_eq
  intro i _
  rw [BitVec.getLsbD_and]
  by_cases hlow : i < 12
  · have hbit := congrArg (BitVec.getLsbD · i) halign
    simp only [BitVec.getLsbD_and, hlowMask i hlow, Bool.and_true, BitVec.getLsbD_zero] at hbit
    rw [hbit, Bool.false_and]
  by_cases hhigh : i < 48
  · rw [hmask i hhigh (Nat.not_lt.mp hlow), Bool.and_true]
  · have hbit : config.rootTableHpa.getLsbD i = false :=
      Nat.testBit_lt_two_pow (Nat.lt_of_lt_of_le hlt
        (Nat.pow_le_pow_right (by decide) (Nat.not_lt.mp hhigh)))
    rw [hbit, Bool.false_and]

theorem rootOk_of_validate {s : Smmu} (hcaps : s.capsValid = true)
    (h : validateS2Config pr config s = 0) : config.RootOk := by
  unfold validateS2Config at h
  split at h
  · exact absurd h (by decide)
  next hshape =>
  split at h
  · exact absurd h (by decide)
  next hgeom =>
  simp only [not_or, not_and, not_not] at hshape hgeom
  obtain ⟨-, -, -, -, -, halign⟩ := hshape
  obtain ⟨-, hnowrap, hbits⟩ := hgeom hcaps
  refine rootOk_of_lt halign ?_
  -- the last byte of the root page lies below 2 ^ 48
  have hlast := lt_of_addressBits_le 64 _ (BitVec.isLt _)
    (Nat.le_trans (Nat.not_lt.mp hbits) pr.oas_le)
  bv_omega

/-! ### The invariant -/

def InTable (pr : Probe) (streamId : BitVec 32) : Prop :=
  streamId.toNat < 2 ^ pr.strtabLog2Entries

def Live (stream : StreamState) : Prop :=
  stream.used = true ∧ stream.assigned = true ∧ stream.quarantined = false

/-- The entry aborts, or is the complete entry of a live record. -/
def EntryOk (pr : Probe) (s : Smmu) (streamId : BitVec 32) : Prop :=
  (s.strtab streamId).Aborts ∨
    ∃ i, Live (s.streams i) ∧ (s.streams i).streamId = streamId ∧
      s.strtab streamId = s2Ste pr (s.streams i).config

structure IsolationInv (pr : Probe) (s : Smmu) : Prop where
  table : s.ready = true → ∀ streamId, InTable pr streamId → EntryOk pr s streamId
  gate : s.assignmentHwReady = s.ready
  caps : s.ready = true → s.capsValid = true
  roots : ∀ i, (s.streams i).used = true → (s.streams i).assigned = true →
    (s.streams i).config.RootOk
  unique : UniqueUsed s.streams
  saved : s.pm.hardwareActive = true →
    s.pm.cr0 &&& (cr0Smmuen ||| cr0Cmdqen) = cr0Smmuen ||| cr0Cmdqen

variable {pr : Probe} {s s' : Smmu} {streamId : BitVec 32}

theorem Frame.ready_of (h : Frame s s') (hready : s'.ready = true) : s.ready = true := by
  rcases h.gate with ⟨hr, -⟩ | ⟨hr, -⟩
  · exact hr ▸ hready
  · rw [hready] at hr
    cases hr

theorem Frame.gate_eq (h : Frame s s') (hgate : s.assignmentHwReady = s.ready) :
    s'.assignmentHwReady = s'.ready := by
  rcases h.gate with ⟨hr, ha⟩ | ⟨hr, ha⟩
  · rw [hr, ha, hgate]
  · rw [hr, ha]

section

variable (hinv : IsolationInv pr s)

include hinv

/-- A step that keeps the records keeps all but the table. -/
theorem IsolationInv.of_frame (h : Frame s s')
    (htable : s'.ready = true → ∀ streamId, InTable pr streamId → EntryOk pr s' streamId) :
    IsolationInv pr s' where
  table := htable
  gate := h.gate_eq hinv.gate
  caps hready := h.caps ▸ hinv.caps (h.ready_of hready)
  roots := h.streams ▸ hinv.roots
  unique := h.streams ▸ hinv.unique
  saved := h.pm ▸ hinv.saved

theorem IsolationInv.hwStep (h : HwStep s s') : IsolationInv pr s' := by
  refine hinv.of_frame h.toFrame fun hready streamId hin => ?_
  have hentry := hinv.table (h.ready_of hready) streamId hin
  unfold EntryOk at hentry ⊢
  rw [h.strtab, h.streams]
  exact hentry

omit hinv in
theorem EntryOk.update_abort (h : EntryOk pr s streamId) {other : BitVec 32}
    (hstreams : s'.streams = s.streams)
    (hstrtab : s'.strtab = Function.update s.strtab other Ste.abort) : EntryOk pr s' streamId := by
  unfold EntryOk at h ⊢
  rw [hstreams, hstrtab]
  by_cases heq : streamId = other
  · subst heq
    rw [update_self]
    exact .inl Ste.aborts_abort
  · rw [update_of_ne heq]
    exact h

/-- An entry may always be made to abort. -/
theorem IsolationInv.steAbort (h : SteStep streamId Ste.abort s s') :
    IsolationInv pr s' :=
  hinv.of_frame h.toFrame fun hready other hin =>
    (hinv.table (h.ready_of hready) other hin).update_abort h.streams h.strtab

/-- Records may change as long as no entry that translates loses its record. -/
theorem IsolationInv.withStreams
    (streams : Fin maxSwStreams → StreamState) (huse : ∀ i, SameUse (s.streams i) (streams i))
    (hroots : ∀ i, (streams i).used = true → (streams i).assigned = true →
      (streams i).config.RootOk)
    (hkeep : ∀ i, streams i = s.streams i ∨
      (s.ready = true → Live (s.streams i) → InTable pr (s.streams i).streamId →
        (s.strtab (s.streams i).streamId).Aborts)) :
    IsolationInv pr { s with streams := streams } where
  table := by
    intro hready streamId hin
    rcases hinv.table hready streamId hin with habort | ⟨i, hlive, hid, hentry⟩
    · exact .inl habort
    rcases hkeep i with hsame | habort
    · rw [← hsame] at hlive hid hentry
      exact .inr ⟨i, hlive, hid, hentry⟩
    · subst hid
      exact .inl (habort hready hlive hin)
  gate := hinv.gate
  caps := hinv.caps
  roots := hroots
  unique := hinv.unique.sameUse huse
  saved := hinv.saved

variable {stream : StreamState}

theorem IsolationInv.withStream
    (huse : SameUse (s.streams i) stream)
    (hroot : stream.used = true → stream.assigned = true → stream.config.RootOk)
    (hkeep : s.ready = true → Live (s.streams i) → InTable pr (s.streams i).streamId →
      (s.strtab (s.streams i).streamId).Aborts) :
    IsolationInv pr (s.setStream i stream) := by
  refine hinv.withStreams _ ?_ ?_ ?_
  all_goals
    intro j
    by_cases hj : j = i
    · subst hj
      rw [update_self]
      first | exact huse | exact hroot | exact .inr hkeep
    · rw [update_of_ne hj]
      first | exact fun h => ⟨h, rfl⟩ | exact hinv.roots j | exact .inl rfl

/-! ### Attach, detach and faults -/

theorem IsolationInv.replace
    (hdead : ¬ Live (s.streams i))
    (hroot : stream.used = true → stream.assigned = true → stream.config.RootOk)
    (hunique : UniqueUsed (s.setStream i stream).streams) :
    IsolationInv pr (s.setStream i stream) := by
  have hself : (s.setStream i stream).streams i = stream := update_self ..
  have hset (j : Fin maxSwStreams) (hj : j ≠ i) : (s.setStream i stream).streams j = s.streams j :=
    update_of_ne hj _ _
  refine ⟨fun hready other hin => ?_, hinv.gate, hinv.caps, fun j => ?_, hunique, hinv.saved⟩
  · rcases hinv.table hready other hin with habort | ⟨j, hlive, hentry⟩
    · exact .inl habort
    · have hj : j ≠ i := fun h => hdead (h ▸ hlive)
      exact .inr ⟨j, by rw [hset j hj]; exact ⟨hlive, hentry⟩⟩
  · by_cases hj : j = i
    · rw [hj, hself]
      exact hroot
    · rw [hset j hj]
      exact hinv.roots j

theorem IsolationInv.foundOrFresh (h : FoundOrFresh s streamId i s') :
    IsolationInv pr s' := by
  have hunique := hinv.unique.foundOrFresh h
  cases h with
  | found => exact hinv
  | fresh hfree =>
    exact hinv.replace (fun hlive => absurd (hfree.symm.trans hlive.1) Bool.false_ne_true)
      (fun _ h => absurd h Bool.false_ne_true) hunique

omit hinv in
theorem not_inTable_of_not_inStrtab (hready : s.ready = true)
    (h : s.inStrtab pr streamId = false) : ¬ InTable pr streamId := by
  unfold inStrtab at h
  rw [hready, Bool.true_and, decide_eq_false_iff_not] at h
  exact h

omit hinv in
theorem FoundOrFresh.ready_eq (h : FoundOrFresh s streamId i s') : s'.ready = s.ready := by
  cases h <;> rfl

theorem not_inTable_of_gateClosed (hready : s.ready = true)
    (h : GateClosed pr s streamId) : ¬ InTable pr streamId := by
  rcases h with h | h
  · rw [hinv.gate, hready] at h
    cases h
  · exact not_inTable_of_not_inStrtab hready h

/-- The entry of a record that was not assigned is published with it. -/
theorem IsolationInv.publish (hi : s.IsStream streamId i)
    (hfree : (s.streams i).assigned = false) (hquar : (s.streams i).quarantined = false)
    (hroot : config.RootOk) (h : SteStep streamId (s2Ste pr config) s s') :
    IsolationInv pr
      (s'.setStream i { s'.streams i with config := config, assigned := true }) := by
  have hrecord : IsolationInv pr
      (s.setStream i { s.streams i with config := config, assigned := true }) := hinv.replace
    (fun hlive => absurd (hfree.symm.trans hlive.2.1) Bool.false_ne_true) (fun _ _ => hroot)
    (hinv.unique.setStream fun hused => ⟨hused, rfl⟩)
  rw [h.streams]
  generalize hnew : ({ s.streams i with config := config, assigned := true } : StreamState) = new
    at hrecord
  have hstreams : (s'.setStream i new).streams = (s.setStream i new).streams := by
    simp only [setStream, h.streams]
  have hself : (s.setStream i new).streams i = new := update_self ..
  refine hrecord.of_frame ⟨hstreams, h.caps, h.pm, h.gate⟩ fun hready other hin => ?_
  have hentry := hrecord.table (h.ready_of hready) other hin
  unfold EntryOk at hentry ⊢
  rw [hstreams, show (s'.setStream i new).strtab = _ from h.strtab]
  by_cases heq : other = streamId
  · rw [heq, update_self]
    refine .inr ⟨i, ?_⟩
    rw [hself, ← hnew]
    exact ⟨⟨hi.1, rfl, hquar⟩, hi.2, rfl⟩
  · rw [update_of_ne heq]
    exact hentry

/-- Giving up a record whose entry aborts, or that was not live. -/
theorem IsolationInv.drop
    (hunused : stream.used = false)
    (hkeep : s.ready = true → Live (s.streams i) → InTable pr (s.streams i).streamId →
      (s.strtab (s.streams i).streamId).Aborts) :
    IsolationInv pr (s.setStream i stream) := by
  refine hinv.withStream (fun h => ?_) (fun h _ => ?_) hkeep
  all_goals
    rw [hunused] at h
    cases h

theorem IsolationInv.attach {ret : Int}
    (h : AttachStep pr config streamId s ret s') : IsolationInv pr s' := by
  cases h with
  | refused | already => exact hinv
  | dropped _ hrecord hclosed =>
    refine (hinv.foundOrFresh hrecord).drop rfl fun hready _ hin => ?_
    rw [hrecord.isStream.2] at hin
    exact absurd hin (not_inTable_of_gateClosed hinv (hrecord.ready_eq ▸ hready) hclosed)
  | failed _ hrecord hfree _ hste =>
    refine ((hinv.foundOrFresh hrecord).steAbort hste).drop rfl fun _ hlive _ => ?_
    rw [hste.streams] at hlive
    have := hlive.2.1
    rw [hfree] at this
    cases this
  | attached hvalid hopen hrecord hfree hquar hste =>
    have hready : s.ready = true := by
      unfold GateClosed at hopen
      rw [not_or, hinv.gate] at hopen
      exact (Bool.not_eq_false _).mp hopen.1
    exact (hinv.foundOrFresh hrecord).publish hrecord.isStream hfree hquar
      (rootOk_of_validate pr (hinv.caps hready) hvalid) hste

theorem IsolationInv.detach {ret : Int}
    (h : DetachStep pr config streamId s ret s') : IsolationInv pr s' := by
  cases h with
  | refused => exact hinv
  | failed _ hste => exact hinv.steAbort hste
  | detached hi _ _ hste =>
    refine (hinv.steAbort hste).drop rfl fun _ _ _ => ?_
    rw [hste.streams, hi.2, hste.strtab, update_self]
    exact Ste.aborts_abort

theorem IsolationInv.quarantine
    (h : QuarantineStep pr streamId s s') : IsolationInv pr s' := by
  cases h with
  | ignored => exact hinv
  | @closed i t _ count code iova hrecord hste =>
    have ht := hinv.foundOrFresh hrecord
    -- closing the entry first and then changing the record ends in the same state
    have hentry : ((t.setSte streamId Ste.abort).strtab
        ((t.setSte streamId Ste.abort).streams i).streamId).Aborts := by
      show (Function.update t.strtab streamId Ste.abort (t.streams i).streamId).Aborts
      rw [hrecord.isStream.2, update_self]
      exact Ste.aborts_abort
    have hclosed : IsolationInv pr ((t.setSte streamId Ste.abort).setStream i
        (faulted (t.streams i) count code iova)) :=
      (ht.steAbort (steStep_setSte t streamId Ste.abort)).withStream
        (fun h => ⟨h, rfl⟩) (ht.roots i) (fun _ _ _ => hentry)
    exact hclosed.hwStep ⟨⟨hste.streams, hste.caps, hste.pm, hste.gate⟩, hste.strtab⟩
  | @outside i _ _ _ _ hrecord hout =>
    refine (hinv.foundOrFresh hrecord).withStream (fun h => ⟨h, rfl⟩)
      ((hinv.foundOrFresh hrecord).roots i) fun hready _ hin => ?_
    rw [hrecord.isStream.2] at hin
    exact absurd hin (not_inTable_of_not_inStrtab (hrecord.ready_eq ▸ hready) hout)

theorem IsolationInv.pollEvents (hw : Hardware)
    (evtq : BitVec 32 → EventRecord) : IsolationInv pr (pollEvents pr hw evtq s) :=
  pollEvents_inv pr hw evtq (fun _ _ hstep h => h.hwStep hstep)
    (fun _ _ _ hstep h => h.quarantine hstep) hinv

end

/-! ### Detaching a domain -/

def OnlyAborts (s s' : Smmu) : Prop :=
  ∀ streamId, s'.strtab streamId = s.strtab streamId ∨ (s'.strtab streamId).Aborts

theorem abortDomain_spec (pr : Probe) (hw : Hardware) (config : S2Config) :
    ∀ (slots : List (Fin maxSwStreams)) (s : Smmu),
      Frame s (abortDomain pr hw config slots s).2 ∧
      OnlyAborts s (abortDomain pr hw config slots s).2 ∧
      ((abortDomain pr hw config slots s).1 = 0 → ∀ i ∈ slots,
        (s.streams i).carries config = true →
        ((abortDomain pr hw config slots s).2.strtab (s.streams i).streamId).Aborts) := by
  intro slots
  induction slots with
  | nil => exact fun s => ⟨Frame.rfl, fun _ => .inl rfl, fun _ i hi => absurd hi List.not_mem_nil⟩
  | cons i rest ih =>
    intro s
    unfold abortDomain
    simp only
    split
    next hnot =>
      obtain ⟨hframe, honly, hall⟩ := ih s
      refine ⟨hframe, honly, fun hret j hj hc => ?_⟩
      rcases List.mem_cons.mp hj with rfl | hj
      · rw [hnot] at hc
        cases hc
      · exact hall hret j hj hc
    next =>
    split
    next =>
      exact ⟨Frame.rfl, fun _ => .inl rfl, fun h => absurd h (show -eNoDev ≠ 0 by decide)⟩
    next =>
    have hste := steStep_syncSte pr hw s (s.streams i).streamId Ste.abort
    have hclosed : OnlyAborts s (syncSte pr hw (s.streams i).streamId
        (s.setSte (s.streams i).streamId Ste.abort)).2 := by
      intro other
      rw [hste.strtab]
      by_cases heq : other = (s.streams i).streamId
      · rw [heq, update_self]
        exact .inr Ste.aborts_abort
      · rw [update_of_ne heq]
        exact .inl rfl
    split
    next hne => exact ⟨hste.toFrame, hclosed, fun h => absurd h hne⟩
    next =>
    obtain ⟨hframe, honly, hall⟩ := ih (syncSte pr hw (s.streams i).streamId
      (s.setSte (s.streams i).streamId Ste.abort)).2
    rw [hste.streams] at hall
    refine ⟨hste.toFrame.trans hframe, fun other => ?_, fun hret j hj hc => ?_⟩
    · rcases honly other with hsame | habort
      · rw [hsame]
        exact hclosed other
      · exact .inr habort
    · rcases List.mem_cons.mp hj with rfl | hj
      · rcases honly (s.streams j).streamId with hsame | habort
        · rw [hsame, hste.strtab, update_self]
          exact Ste.aborts_abort
        · exact habort
      · exact hall hret j hj hc

theorem IsolationInv.onlyAborts (hinv : IsolationInv pr s) (h : Frame s s')
    (honly : OnlyAborts s s') : IsolationInv pr s' := by
  refine hinv.of_frame h fun hready streamId hin => ?_
  rcases honly streamId with hsame | habort
  · have hentry := hinv.table (h.ready_of hready) streamId hin
    unfold EntryOk at hentry ⊢
    rw [hsame, h.streams]
    exact hentry
  · exact .inl habort

theorem IsolationInv.hwDetachDomain (hinv : IsolationInv pr s) (hw : Hardware) (config : S2Config) :
    IsolationInv pr (hwDetachDomain pr hw config s).2 := by
  obtain ⟨hframe, honly, hall⟩ :=
    abortDomain_spec pr hw config (List.finRange maxSwStreams) s
  have hinv' := hinv.onlyAborts hframe honly
  unfold Smmu.hwDetachDomain
  simp only
  split
  next hret =>
    refine hinv'.withStreams _ (fun i => ?_) (fun i => ?_) (fun i => ?_)
    · split
      · exact fun h => absurd h Bool.false_ne_true
      · exact fun h => ⟨h, rfl⟩
    · split
      · exact fun h => absurd h Bool.false_ne_true
      · exact hinv'.roots i
    · split
      next hc =>
        refine .inr fun _ _ _ => ?_
        rw [hframe.streams] at hc ⊢
        exact hall hret i (List.mem_finRange i) hc
      next => exact .inl rfl
  next => exact hinv'

/-! ### Power management -/

/-- Every entry aborts, or is the complete entry of a used and assigned record. -/
def Rebuilt (pr : Probe) (s : Smmu) : Prop :=
  ∀ streamId, InTable pr streamId → (s.strtab streamId).Aborts ∨
    ∃ i, (s.streams i).used = true ∧ (s.streams i).assigned = true ∧
      (s.streams i).streamId = streamId ∧ s.strtab streamId = s2Ste pr (s.streams i).config

/-- **What power management does.**  The records stay as they are. -/
inductive PmStep (pr : Probe) (wakes : Bool) (s : Smmu) : Smmu → Prop
  /-- only the saved state changes, and there is nothing in it to resume -/
  | idle {pm : PmState} (hpm : pm.hardwareActive = true → pm = s.pm) : PmStep pr wakes s { s with pm := pm }
  /-- the gate is closed -/
  | contained {s' : Smmu} (hstreams : s'.streams = s.streams) (hready : s'.ready = false)
      (hgate : s'.assignmentHwReady = false) (hsaved : s'.pm.hardwareActive = true →
        s'.pm.cr0 &&& (cr0Smmuen ||| cr0Cmdqen) = cr0Smmuen ||| cr0Cmdqen) : PmStep pr wakes s s'
  | resumed {s' : Smmu} (hwakes : wakes = true) (hactive : s.pm.hardwareActive = true)
      (hstreams : s'.streams = s.streams) (hbuilt : Rebuilt pr s') (hready : s'.ready = s'.capsValid)
      (hgate : s'.assignmentHwReady = (s'.ready &&
        decide (s.pm.cr0 &&& cr0EnableMask &&& (cr0Smmuen ||| cr0Cmdqen) = cr0Smmuen ||| cr0Cmdqen)))
      (hidle : s'.pm.hardwareActive = false) : PmStep pr wakes s s'

variable {wakes : Bool}

theorem PmStep.refl : PmStep pr wakes s s := .idle fun _ => rfl

theorem PmStep.streams (h : PmStep pr wakes s s') : s'.streams = s.streams := by
  cases h with
  | idle => rfl
  | contained hstreams | resumed _ _ hstreams => exact hstreams

theorem failPm_step (hw : Hardware) (hstreams : s'.streams = s.streams) :
    PmStep pr wakes s (failPm pr hw s') := by
  obtain ⟨hstep, hready, hgate⟩ := forceContainment_spec pr hw true s'
  exact .contained (hstep.streams.trans hstreams) hready hgate
    (fun h => absurd h Bool.false_ne_true)

/-- A snapshot that passes the check has the SMMU and its command queue enabled. -/
theorem cr0_of_pmSnapshotValid (hw : Hardware) (h : (pmSnapshotValid pr hw s).1 = true) :
    s.pm.cr0 &&& (cr0Smmuen ||| cr0Cmdqen) = cr0Smmuen ||| cr0Cmdqen := by
  unfold pmSnapshotValid at h
  simp only [Bool.and_eq_true, decide_eq_true_eq] at h
  have hcr0 : s.pm.cr0 &&& cr0AckMask = cr0Smmuen ||| cr0Cmdqen ||| cr0DisabledValue pr |||
    (if s.evtqEnabled then cr0Evtqen else 0#32) := h.1.1.1.1.1
  have hsplit : s.pm.cr0 &&& (cr0Smmuen ||| cr0Cmdqen) =
      s.pm.cr0 &&& cr0AckMask &&& (cr0Smmuen ||| cr0Cmdqen) := by
    rw [BitVec.and_assoc]
    rfl
  rw [hsplit, hcr0]
  unfold cr0DisabledValue
  cases pr.ats <;> cases s.evtqEnabled <;> decide

theorem streams_saveRegs (hw : Hardware) (epoch : Nat) (s : Smmu) :
    (saveRegs hw epoch s).streams = s.streams := by
  simp only [saveRegs, tick]

theorem suspendActive_step (hw : Hardware) (epoch : Nat) (hstreams : s'.streams = s.streams) :
    PmStep pr wakes s (suspendActive pr hw epoch s').2 := by
  unfold Smmu.suspendActive
  have hsave := (streams_saveRegs hw epoch s').trans hstreams
  generalize saveRegs hw epoch s' = u at hsave
  have hafter : (pmSnapshotValid pr hw u).2 = u.tick.tick := rfl
  simp only [hafter]
  split
  next => exact failPm_step hw hsave
  next hcheck =>
  generalize hsuspended : ({ u.tick.tick with pm := _ } : Smmu) = t
  have ht : t.streams = s.streams := by
    subst hsuspended
    exact hsave
  have hcr0 : t.pm.cr0 &&& (cr0Smmuen ||| cr0Cmdqen) = cr0Smmuen ||| cr0Cmdqen := by
    subst hsuspended
    simp only [tick]
    exact cr0_of_pmSnapshotValid hw ((Bool.not_eq_false _).mp hcheck)
  obtain ⟨hstep, hready, hgate⟩ := forceContainment_spec pr hw false t
  split
  · exact failPm_step hw (hstep.streams.trans ht)
  · exact .contained (hstep.streams.trans ht) hready hgate (fun _ => hstep.pm ▸ hcr0)

theorem pmSuspend_step (pr : Probe) (hw : Hardware) (epoch : Nat) (s : Smmu) :
    PmStep pr false s (pmSuspend pr hw epoch s).2 := by
  unfold Smmu.pmSuspend
  split
  · exact .refl
  split
  · exact .refl
  split
  · exact .idle fun h => absurd h Bool.false_ne_true
  have hsync := hwStep_cmdqSync pr hw s
  simp only
  split
  · exact failPm_step hw hsync.streams
  · exact suspendActive_step hw epoch hsync.streams

theorem Rebuilt.hwStep (hbuilt : Rebuilt pr s) (h : HwStep s s') : Rebuilt pr s' := by
  unfold Rebuilt at hbuilt ⊢
  rw [h.strtab, h.streams]
  exact hbuilt

theorem rebuild_spec (pr : Probe) (hw : Hardware) :
    ∀ (slots : List (Fin maxSwStreams)) (s : Smmu),
      Frame s (rebuild pr hw slots s).2 ∧
      ((rebuild pr hw slots s).1 = 0 → Rebuilt pr s → Rebuilt pr (rebuild pr hw slots s).2) := by
  intro slots
  induction slots with
  | nil => exact fun s => ⟨Frame.rfl, fun _ h => h⟩
  | cons i rest ih =>
    intro s
    unfold rebuild
    simp only
    split
    next hrec =>
      rcases writeS2Ste_spec pr hw (s.streams i).config (s.streams i).streamId s with
        ⟨hret, hste⟩ | ⟨hret, hste⟩
      · rw [if_neg (not_not.mpr hret)]
        obtain ⟨hframe, hbuilt⟩ := ih (writeS2Ste pr hw (s.streams i).config
          (s.streams i).streamId s).2
        refine ⟨hste.toFrame.trans hframe, fun hdone hstart => hbuilt hdone fun other hin => ?_⟩
        rw [hste.strtab, hste.streams]
        by_cases heq : other = (s.streams i).streamId
        · rw [heq, update_self]
          exact .inr ⟨i, hrec.1, hrec.2.1, rfl, rfl⟩
        · rw [update_of_ne heq]
          exact hstart other hin
      · rw [if_pos hret]
        exact ⟨hste.toFrame, fun h => absurd h hret⟩
    next => exact ih s

theorem resetTables_spec (pr : Probe) (hw : Hardware) (s : Smmu) :
    Frame s (resetTables pr hw s).2 ∧ Rebuilt pr (resetTables pr hw s).2 := by
  have hzero (t : Smmu) (hstreams : t.streams = s.streams) (hcaps : t.capsValid = s.capsValid)
      (hpm : t.pm = s.pm) (hgate : GateStep s t)
      (hstrtab : t.strtab = (zeroAbortTables pr s).strtab) :
      Frame s (updateGbpa hw gbpaAbort 0#32 t).2 ∧
        Rebuilt pr (updateGbpa hw gbpaAbort 0#32 t).2 := by
    have hstep := hwStep_updateGbpa hw gbpaAbort 0#32 t
    refine ⟨Frame.trans ⟨hstreams, hcaps, hpm, hgate⟩ hstep.toFrame, Rebuilt.hwStep ?_ hstep⟩
    intro streamId hin
    have hentry : t.strtab streamId = Ste.zero := (congrFun hstrtab streamId).trans (if_pos hin)
    rw [hentry]
    exact .inl Ste.aborts_zero
  unfold resetTables
  simp only
  split
  · exact hzero _ rfl rfl rfl (.inl ⟨rfl, rfl⟩) rfl
  · exact hzero _ rfl rfl rfl (.inl ⟨rfl, rfl⟩) rfl

theorem programMemoryAttrs_spec (hw : Hardware) (cr1 cr2 : BitVec 32) (s : Smmu) :
    (programMemoryAttrs hw cr1 cr2 s).2.streams = s.streams ∧
      ((programMemoryAttrs hw cr1 cr2 s).1 = 0 →
        Frame s (programMemoryAttrs hw cr1 cr2 s).2) := by
  have hstep := ((hwStep_write .cr1 cr1 s).trans (hwStep_write .cr2 cr2 _)).trans (hwStep_tick _)
  unfold programMemoryAttrs
  simp only
  generalize ((s.write .cr1 cr1).write .cr2 cr2).tick = t at hstep ⊢
  split
  · exact ⟨hstep.streams, fun h => absurd h (show -eIo ≠ 0 by decide)⟩
  · exact ⟨hstep.streams, fun _ => ⟨hstep.streams, hstep.caps, hstep.pm, hstep.gate⟩⟩

/-- A resume whose steps all succeed has rebuilt the table. -/
theorem resumeHardware_spec (pr : Probe) (hw : Hardware) (s : Smmu) :
    (resumeHardware pr hw s).2.streams = s.streams ∧
      ((resumeHardware pr hw s).1 = 0 →
        Frame s (resumeHardware pr hw s).2 ∧ Rebuilt pr (resumeHardware pr hw s).2) := by
  unfold resumeHardware
  simp only
  have hgbpa := hwStep_updateGbpa hw gbpaAbort 0#32 s
  generalize updateGbpa hw gbpaAbort 0#32 s = out₁ at hgbpa
  split
  next hne => exact ⟨hgbpa.streams, fun h => absurd h hne⟩
  next =>
  have hoff := hgbpa.trans (hwStep_writeCr0 pr hw 0#32 out₁.2)
  generalize writeCr0 pr hw 0#32 out₁.2 = out₂ at hoff
  split
  next hne => exact ⟨hoff.streams, fun h => absurd h hne⟩
  next =>
  have hattrs := programMemoryAttrs_spec hw s.pm.cr1 s.pm.cr2 out₂.2
  generalize programMemoryAttrs hw s.pm.cr1 s.pm.cr2 out₂.2 = out₃ at hattrs
  split
  next hne => exact ⟨hattrs.1.trans hoff.streams, fun h => absurd h hne⟩
  next hok =>
  have hframe := hoff.toFrame.trans (hattrs.2 (not_not.mp hok))
  obtain ⟨hreset, hbuilt⟩ := resetTables_spec pr hw out₃.2
  have hframe := hframe.trans hreset
  generalize resetTables pr hw out₃.2 = out₄ at hframe hbuilt
  split
  next hne => exact ⟨hframe.streams, fun h => absurd h hne⟩
  next =>
  have hirq := (hwStep_write .irqCtrl s.pm.irqCtrl out₄.2).trans
    (hwStep_waitReg32 hw .irqCtrlAck (-1#32) s.pm.irqCtrl pollRetries _)
  generalize waitReg32 hw .irqCtrlAck (-1#32) s.pm.irqCtrl pollRetries _ = out₅ at hirq
  split
  next hne => exact ⟨(hframe.trans hirq.toFrame).streams, fun h => absurd h hne⟩
  next =>
  have hon := hirq.trans (hwStep_writeCr0 pr hw (s.pm.cr0 &&& cr0EnableMask) out₅.2)
  generalize writeCr0 pr hw (s.pm.cr0 &&& cr0EnableMask) out₅.2 = out₆ at hon
  split
  next hne => exact ⟨(hframe.trans hon.toFrame).streams, fun h => absurd h hne⟩
  next =>
  have hflags : HwStep out₆.2 { out₆.2 with
      cmdqEnabled := decide (s.pm.cr0 &&& cr0EnableMask &&& cr0Cmdqen ≠ 0#32)
      evtqEnabled := decide (s.pm.cr0 &&& cr0EnableMask &&& cr0Evtqen ≠ 0#32) } :=
    hwStep_of rfl rfl rfl rfl rfl rfl
  have hqueues := hon.trans hflags
  generalize ({ out₆.2 with cmdqEnabled := _, evtqEnabled := _ } : Smmu) = t
    at hqueues
  obtain ⟨hkeep, hrebuilt⟩ := rebuild_spec pr hw (List.finRange maxSwStreams) t
  have hall := (hframe.trans hqueues.toFrame).trans hkeep
  exact ⟨hall.streams, fun h => ⟨hall, hrebuilt h (hbuilt.hwStep hqueues)⟩⟩

def NoFaults (s : Smmu) : Prop :=
  ∀ i, (s.streams i).used = true → (s.streams i).assigned = true →
    (s.streams i).quarantined = false

theorem pmResume_step (pr : Probe) (hw : Hardware) (epoch : Nat) (s : Smmu) :
    PmStep pr true s (pmResume pr hw epoch s).2 := by
  unfold Smmu.pmResume
  split
  · exact .refl
  split
  · exact .refl
  split
  · exact .refl
  split
  · exact .refl
  split
  next hidle => exact .idle fun h => absurd (hidle.symm.trans h) Bool.false_ne_true
  next hactive =>
  obtain ⟨hstreams, hdone⟩ := resumeHardware_spec pr hw s
  generalize resumeHardware pr hw s = out at hstreams hdone
  simp only
  split
  next hret =>
    exact .resumed rfl ((Bool.not_eq_false _).mp hactive) hstreams (hdone hret).2 rfl rfl rfl
  next => exact failPm_step hw hstreams

theorem IsolationInv.pmStep (hinv : IsolationInv pr s) (h : PmStep pr wakes s s')
    (hfaults : wakes = true → s.pm.hardwareActive = true → NoFaults s) :
    IsolationInv pr s' := by
  cases h with
  | idle hpm =>
    refine ⟨hinv.table, hinv.gate, hinv.caps, hinv.roots, hinv.unique, fun h => ?_⟩
    have hsame := hpm h
    subst hsame
    exact hinv.saved h
  | contained hstreams hready hgate hsaved =>
    exact ⟨fun h => absurd (hready.symm.trans h) (by decide), hgate.trans hready.symm,
      fun h => absurd (hready.symm.trans h) (by decide), hstreams ▸ hinv.roots,
      hstreams ▸ hinv.unique, hsaved⟩
  | resumed hwakes hactive hstreams hbuilt hready hgate hidle =>
    refine ⟨fun _ streamId hin => ?_, ?_, fun h => hready ▸ h, hstreams ▸ hinv.roots,
      hstreams ▸ hinv.unique, fun h => absurd (hidle.symm.trans h) Bool.false_ne_true⟩
    · rcases hbuilt streamId hin with habort | ⟨i, hused, hassigned, hentry⟩
      · exact .inl habort
      · refine .inr ⟨i, ⟨hused, hassigned, ?_⟩, hentry⟩
        rw [hstreams] at hused hassigned ⊢
        exact hfaults hwakes hactive i hused hassigned
    · have hcr0 : s.pm.cr0 &&& cr0EnableMask &&& (cr0Smmuen ||| cr0Cmdqen) =
          cr0Smmuen ||| cr0Cmdqen := by
        rw [BitVec.and_assoc]
        exact hinv.saved hactive
      simp only [hgate, hcr0, decide_true, Bool.and_true]

/-! ### Whole runs -/

theorem Booted.isolationInv (hboot : Booted pr s) : IsolationInv pr s where
  table _ streamId hin := .inl (hboot.cleared streamId hin ▸ Ste.aborts_zero)
  gate := hboot.gate
  caps := hboot.caps
  roots i hused := absurd ((hboot.unused i).symm.trans hused) Bool.false_ne_true
  unique i _ hused := absurd ((hboot.unused i).symm.trans hused) Bool.false_ne_true
  saved h := by
    rw [hboot.pm] at h
    cases h

/-- A resume that rebuilds the table finds no assigned stream quarantined. -/
def Unfaulted (s : Smmu) (a : SmmuAction) : Prop :=
  match a.op with
  | .resume _ => s.pm.hardwareActive = true → NoFaults s
  | _ => True

theorem IsolationInv.step (hinv : IsolationInv pr s) (a : SmmuAction) (hok : Unfaulted s a) :
    IsolationInv pr (step pr s a) := by
  obtain ⟨op, hw⟩ := a
  cases op with
  | attach config streamId => exact hinv.attach (attachStep pr hw config streamId s)
  | detach config streamId => exact hinv.detach (detachStep pr hw config streamId s)
  | detachDomain config => exact hinv.hwDetachDomain hw config
  | poll evtq => exact hinv.pollEvents hw evtq
  | suspend epoch =>
    exact hinv.pmStep (pmSuspend_step pr hw epoch s) (fun h => absurd h Bool.false_ne_true)
  | resume epoch => exact hinv.pmStep (pmResume_step pr hw epoch s) (fun _ => hok)

/-- A quarantined record of this stream. -/
def Held (i : Fin maxSwStreams) (streamId : BitVec 32) (s : Smmu) : Prop :=
  (s.streams i).used = true ∧ (s.streams i).quarantined = true ∧ (s.streams i).streamId = streamId

/-- A detach of the stream, or of the domain it is assigned to, that succeeds. -/
def Detaches (pr : Probe) (streamId : BitVec 32) (s : Smmu) (a : SmmuAction) : Prop :=
  match a.op with
  | .detach c id => id = streamId ∧ (hwDetachStream pr a.hw c id s).1 = 0
  | .detachDomain c => (hwDetachDomain pr a.hw c s).1 = 0 ∧
      ∃ i, (s.streams i).streamId = streamId ∧ (s.streams i).carries c = true
  | _ => False

section Held

variable {i j : Fin maxSwStreams} {other : BitVec 32}

variable (h : Held i streamId s)

include h

theorem Held.of_streams (hstreams : s'.streams = s.streams) : Held i streamId s' := by
  unfold Held
  rw [hstreams]
  exact h

theorem Held.setStream (hne : i ≠ j) (stream : StreamState) :
    Held i streamId (s.setStream j stream) := by
  have hsame : (s.setStream j stream).streams i = s.streams i := update_of_ne hne _ _
  unfold Held
  rw [hsame]
  exact h

theorem Held.foundOrFresh (hrecord : FoundOrFresh s other j s') : Held i streamId s' := by
  cases hrecord with
  | found => exact h
  | fresh hfree =>
    refine h.setStream (fun heq => ?_) _
    rw [← heq, h.1] at hfree
    cases hfree

theorem Held.ne (hquar : (s.streams j).quarantined = false) : i ≠ j := by
  rintro rfl
  rw [h.2.1] at hquar
  cases hquar

theorem Held.attach {config : S2Config} {ret : Int}
    (hstep : AttachStep pr config other s ret s') : Held i streamId s' := by
  cases hstep with
  | refused | already => exact h
  | dropped _ hrecord _ _ hquar =>
    have ht := h.foundOrFresh hrecord
    exact ht.setStream (ht.ne hquar) _
  | failed _ hrecord _ hquar hste =>
    have ht := h.foundOrFresh hrecord
    exact (ht.of_streams hste.streams).setStream (ht.ne hquar) _
  | attached _ _ hrecord _ hquar hste =>
    have ht := h.foundOrFresh hrecord
    exact (ht.of_streams hste.streams).setStream (ht.ne hquar) _

theorem Held.detach {config : S2Config} {ret : Int}
    (hkeep : ¬ (other = streamId ∧ ret = 0)) (hstep : DetachStep pr config other s ret s') :
    Held i streamId s' := by
  cases hstep with
  | refused => exact h
  | failed _ hste => exact h.of_streams hste.streams
  | detached hj _ _ hste =>
    refine (h.of_streams hste.streams).setStream ?_ _
    rintro rfl
    exact hkeep ⟨hj.2.symm.trans h.2.2, rfl⟩

theorem Held.quarantine (hstep : QuarantineStep pr other s s') : Held i streamId s' := by
  have hfault (t : Smmu) (k : Fin maxSwStreams) (ht : Held i streamId t)
      (count code : BitVec 32) (iova : BitVec 64) :
      Held i streamId (t.setStream k (faulted (t.streams k) count code iova)) := by
    by_cases hne : i = k
    · subst hne
      unfold Held Smmu.setStream
      simp only [update_self]
      exact ⟨ht.1, rfl, ht.2.2⟩
    · exact ht.setStream hne _
  cases hstep with
  | ignored => exact h
  | closed hrecord hste =>
    exact (hfault _ _ (h.foundOrFresh hrecord) _ _ _).of_streams hste.streams
  | outside hrecord => exact hfault _ _ (h.foundOrFresh hrecord) _ _ _

theorem Held.pollEvents (hw : Hardware)
    (evtq : BitVec 32 → EventRecord) : Held i streamId (pollEvents pr hw evtq s) :=
  pollEvents_inv pr hw evtq (fun _ _ hstep h => h.of_streams hstep.streams)
    (fun _ _ _ hstep h => h.quarantine hstep) h

end Held

theorem streams_hwDetachDomain (hw : Hardware) (config : S2Config) (s : Smmu)
    (hkeep : (hwDetachDomain pr hw config s).1 = 0 → (s.streams i).carries config = false) :
    (hwDetachDomain pr hw config s).2.streams i = s.streams i := by
  have hframe := (abortDomain_spec pr hw config (List.finRange maxSwStreams) s).1
  unfold Smmu.hwDetachDomain at hkeep ⊢
  generalize abortDomain pr hw config (List.finRange maxSwStreams) s = out at hframe hkeep
  simp only at hkeep ⊢
  split
  next hret =>
    rw [if_pos hret] at hkeep
    simp only [hframe.streams, hkeep rfl]
    rfl
  next => rw [hframe.streams]

/-- A quarantined record stays one until a detach releases it. -/
theorem Held.step (h : Held i streamId s) (a : SmmuAction)
    (hkeep : ¬ Detaches pr streamId s a) : Held i streamId (step pr s a) := by
  obtain ⟨op, hw⟩ := a
  cases op with
  | attach config other => exact h.attach (attachStep pr hw config other s)
  | detach config other => exact h.detach hkeep (detachStep pr hw config other s)
  | detachDomain config =>
    have hsame : (hwDetachDomain pr hw config s).2.streams i = s.streams i :=
      streams_hwDetachDomain hw config s fun hret =>
        Bool.eq_false_iff.mpr fun hcarries => hkeep ⟨hret, i, h.2.2, hcarries⟩
    show Held i streamId (hwDetachDomain pr hw config s).2
    unfold Held
    rw [hsame]
    exact h
  | poll evtq => exact h.pollEvents hw evtq
  | suspend epoch => exact h.of_streams (pmSuspend_step pr hw epoch s).streams
  | resume epoch => exact h.of_streams (pmResume_step pr hw epoch s).streams

/-- The entry aborts, or translates as a live record of the stream says. -/
def Isolated (s : Smmu) (streamId : BitVec 32) : Prop :=
  (s.strtab streamId).Aborts ∨
    ∃ i, Live (s.streams i) ∧ (s.streams i).streamId = streamId ∧
      (s.strtab streamId).Translates ∧
      (s.strtab streamId).s2vmid = (s.streams i).config.hwVmid ∧
      (s.strtab streamId).s2ttb = (s.streams i).config.rootTableHpa

theorem IsolationInv.isolated (hinv : IsolationInv pr s) (hready : s.ready = true)
    (hin : InTable pr streamId) : Isolated s streamId := by
  rcases hinv.table hready streamId hin with habort | ⟨i, hlive, hid, hentry⟩
  · exact .inl habort
  refine .inr ⟨i, hlive, hid, ?_⟩
  rw [hentry]
  exact ⟨translates_s2Ste pr _, s2vmid_s2Ste pr _,
    s2ttb_s2Ste pr (hinv.roots i hlive.1 hlive.2.1)⟩

/-- Records are unique per stream, so the entry of a quarantined one has no live record. -/
theorem IsolationInv.aborts_of_held (hinv : IsolationInv pr s) (hready : s.ready = true)
    (hheld : Held i streamId s) (hin : InTable pr streamId) :
    (s.strtab streamId).Aborts := by
  rcases hinv.table hready streamId hin with habort | ⟨j, hlive, hid, -⟩
  · exact habort
  have heq := hinv.unique j i hlive.1 hheld.1 (hid.trans hheld.2.2.symm)
  have hquar := hlive.2.2
  rw [heq, hheld.2.1] at hquar
  cases hquar

/--
**DMA isolation.**  In every run in which no resume rebuilds the table over a quarantined assigned
stream, an entry translates only for a live record of its stream, with that record's VMID and root;
and once a stream is quarantined its entry aborts until a detach of it or its domain succeeds.
-/
theorem dma_isolation {pr : Probe} {s : Smmu} (hboot : Booted pr s) (as bs : List SmmuAction)
    (hok : Run.Along (step pr) Unfaulted s (as ++ bs))
    (hready : (Run.exec (step pr) s (as ++ bs)).ready = true) (streamId : BitVec 32)
    (hin : InTable pr streamId) :
    Isolated (Run.exec (step pr) s (as ++ bs)) streamId ∧
      ∀ i, Held i streamId (Run.exec (step pr) s as) →
        Run.Along (step pr) (fun t b => ¬ Detaches pr streamId t b)
            (Run.exec (step pr) s as) bs →
          ((Run.exec (step pr) s (as ++ bs)).strtab streamId).Aborts := by
  have hinv : IsolationInv pr (Run.exec (step pr) s (as ++ bs)) :=
    Run.inv_exec (fun _ a h hok => h.step a hok) hboot.isolationInv hok
  refine ⟨hinv.isolated hready hin, fun i hheld hkeep => ?_⟩
  suffices hheld : Held i streamId (Run.exec (step pr) s (as ++ bs)) from
    hinv.aborts_of_held hready hheld hin
  rw [Run.exec_append]
  exact Run.inv_exec (fun _ b hheld hkeep => hheld.step b hkeep) hheld hkeep

/-! ### Runs with a fault -/

instance NoFaults.decidable (s : Smmu) : Decidable (NoFaults s) :=
  inferInstanceAs (Decidable (∀ i, _ → _ → (s.streams i).quarantined = false))

instance Unfaulted.decidable (s : Smmu) : ∀ a, Decidable (Unfaulted s a)
  | ⟨.attach _ _, _⟩ | ⟨.detach _ _, _⟩ | ⟨.detachDomain _, _⟩ | ⟨.poll _, _⟩
  | ⟨.suspend _, _⟩ => isTrue trivial
  | ⟨.resume _, _⟩ => inferInstanceAs (Decidable (s.pm.hardwareActive = true → NoFaults s))

instance Detaches.decidable (pr : Probe) (streamId : BitVec 32) (s : Smmu) :
    ∀ a, Decidable (Detaches pr streamId s a)
  | ⟨.detach c id, hw⟩ =>
    inferInstanceAs (Decidable (id = streamId ∧ (hwDetachStream pr hw c id s).1 = 0))
  | ⟨.detachDomain c, hw⟩ =>
    inferInstanceAs (Decidable ((hwDetachDomain pr hw c s).1 = 0 ∧
      ∃ i, (s.streams i).streamId = streamId ∧ (s.streams i).carries c = true))
  | ⟨.attach _ _, _⟩ | ⟨.poll _, _⟩ | ⟨.suspend _, _⟩ | ⟨.resume _, _⟩ => isFalse id

/-- A table of eight entries. -/
def smallProbe : Probe := ⟨true, false, 44, 3, by decide, by decide⟩

/-- The SMMU and both queues are on. -/
def smallBoot : Smmu where
  streams _ := StreamState.free
  strtab _ := Ste.zero
  ready := true
  hwReady := true
  assignmentHwReady := true
  cmdqEnabled := true
  evtqEnabled := true
  capsValid := true
  status := .ready
  cr1 := 0#32
  cr2 := 0#32
  cmdqProd := 0#32
  cmdq _ := none
  pm := PmState.zero
  regs reg := if reg = .cr0 then cr0EnableMask else 0#32
  clock := 0

theorem booted_smallBoot : Booted smallProbe smallBoot :=
  ⟨fun _ => rfl, fun _ _ => rfl, rfl, fun _ => rfl, rfl⟩

/-- Hardware that does all it is asked and has reported this many events. -/
def obliging (events : BitVec 32) : Hardware := fun s reg =>
  match reg with
  | .cmdqCons => s.cmdqProd
  | .cr0Ack => s.regs .cr0
  | .irqCtrlAck => s.regs .irqCtrl
  | .gbpa => gbpaAbort
  | .evtqProd => events
  | reg => s.regs reg

def firstVm : Fin maxVmNum := ⟨0, Nat.zero_lt_succ 15⟩

/-- The configuration of the domain of `firstVm`. -/
def smallConfig : S2Config := ⟨0x80000000#64, 40, 0, 1#16⟩

def faultOf (streamId : BitVec 32) : BitVec 32 → EventRecord :=
  fun _ => ⟨streamId.setWidth 64 <<< 32 ||| 0x10#64, 0x1000#64⟩

/-- Stream 3 is attached, a stream faults, and the system goes to sleep and wakes up. -/
def faultRun (streamId : BitVec 32) : List SmmuAction :=
  [⟨.attach smallConfig 3#32, obliging 0#32⟩, ⟨.poll (faultOf streamId), obliging 1#32⟩,
    ⟨.suspend 1, obliging 0#32⟩, ⟨.resume 1, obliging 0#32⟩]

/-- What follows the fault of stream 5, a detach of it that is refused, and one that finds no
stream. -/
def refusedDetach : List SmmuAction :=
  (faultRun 5#32).drop 2 ++
    [⟨.detach smallConfig 5#32, obliging 0#32⟩, ⟨.detachDomain S2Config.zero, obliging 0#32⟩]

/-- Another stream faulted: stream 3 may go on, the other one stays closed. -/
theorem dma_isolation_other_faulted :
    let s := Run.exec (step smallProbe) smallBoot ((faultRun 5#32).take 2 ++ refusedDetach)
    Isolated s 3#32 ∧ (s.strtab 5#32).Aborts :=
  have isolated := dma_isolation booted_smallBoot ((faultRun 5#32).take 2) refusedDetach
    (by decide +kernel) (by decide +kernel)
  ⟨(isolated 3#32 (by decide +kernel : 3 < 2 ^ 3)).1,
    (isolated 5#32 (by decide +kernel : 5 < 2 ^ 3)).2 ⟨1, by decide⟩
      (by unfold Held; decide +kernel) (by decide +kernel)⟩

/--
**A quarantined stream translates again after a resume.**  The fault of stream 3 closed its entry;
nothing detached it, and after the resume the entry translates while the record is quarantined.
-/
theorem quarantine_lost_on_resume :
    let faulted := Run.exec (step smallProbe) smallBoot ((faultRun 3#32).take 2)
    let resumed := Run.exec (step smallProbe) smallBoot (faultRun 3#32)
    faulted.strtab 3#32 = Ste.abort ∧ resumed.ready = true ∧
      (resumed.strtab 3#32).Translates ∧ ¬ (resumed.strtab 3#32).Aborts ∧
      (∃ i, (resumed.streams i).used = true ∧ (resumed.streams i).streamId = 3#32) ∧
      ∀ i, (resumed.streams i).used = true → (resumed.streams i).streamId = 3#32 →
        (resumed.streams i).quarantined = true := by
  decide +kernel

end Smmu

end BeauOs.Iommu
