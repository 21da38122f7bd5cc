/-
What each operation of the SMMU driver can do, said once.

Whatever the hardware answers, a command, a poll or a handshake changes neither the stream records
nor the stream table; at worst it forces containment, which closes the assignment gate (`Frame`,
`HwStep`).  The operations on streams are then described by what they leave in the records and in
one entry of the table: `writeS2Ste_spec`, `AttachStep`, `DetachStep`, `QuarantineStep`.  The proofs
about isolation, ownership and stale translations use these and never the functions themselves.
-/
import BeauOs.Iommu.Smmu

namespace BeauOs.Iommu

open BeauOs.Pm (ePerm eIo eNoMem eBusy eNoDev eInval)

namespace Smmu

variable (pr : Probe) (hw : Hardware) {s s' s'' : Smmu}

/-! ### Frames -/

/-- The assignment gate and readiness are as before, or containment was forced. -/
def GateStep (s s' : Smmu) : Prop :=
  (s'.ready = s.ready ∧ s'.assignmentHwReady = s.assignmentHwReady) ∨
    (s'.ready = false ∧ s'.assignmentHwReady = false)

/-- The records, the capabilities and the saved state are as before. -/
structure Frame (s s' : Smmu) : Prop where
  streams : s'.streams = s.streams
  caps : s'.capsValid = s.capsValid
  pm : s'.pm = s.pm
  gate : GateStep s s'

structure HwStep (s s' : Smmu) : Prop extends Frame s s' where
  strtab : s'.strtab = s.strtab

theorem GateStep.trans (h : GateStep s s') (h' : GateStep s' s'') : GateStep s s'' := by
  rcases h' with ⟨hr, ha⟩ | hoff
  · rcases h with ⟨hr', ha'⟩ | ⟨hr', ha'⟩
    · exact .inl ⟨hr.trans hr', ha.trans ha'⟩
    · exact .inr ⟨hr.trans hr', ha.trans ha'⟩
  · exact .inr hoff

theorem Frame.trans (h : Frame s s') (h' : Frame s' s'') : Frame s s'' :=
  ⟨h'.streams.trans h.streams, h'.caps.trans h.caps, h'.pm.trans h.pm, h.gate.trans h'.gate⟩

theorem HwStep.trans (h : HwStep s s') (h' : HwStep s' s'') : HwStep s s'' :=
  ⟨h.toFrame.trans h'.toFrame, h'.strtab.trans h.strtab⟩

theorem Frame.rfl : Frame s s := ⟨Eq.refl _, Eq.refl _, Eq.refl _, .inl ⟨Eq.refl _, Eq.refl _⟩⟩

theorem HwStep.rfl : HwStep s s := ⟨Frame.rfl, Eq.refl _⟩

theorem hwStep_of (hstreams : s'.streams = s.streams) (hcaps : s'.capsValid = s.capsValid)
    (hpm : s'.pm = s.pm) (hready : s'.ready = s.ready)
    (hgate : s'.assignmentHwReady = s.assignmentHwReady) (hstrtab : s'.strtab = s.strtab) :
    HwStep s s' := ⟨⟨hstreams, hcaps, hpm, .inl ⟨hready, hgate⟩⟩, hstrtab⟩

theorem hwStep_tick (s : Smmu) : HwStep s s.tick := hwStep_of rfl rfl rfl rfl rfl rfl

theorem hwStep_write (reg : Reg) (value : BitVec 32) (s : Smmu) : HwStep s (s.write reg value) :=
  hwStep_of rfl rfl rfl rfl rfl rfl

theorem hwStep_waitReg32 (reg : Reg) (mask expected : BitVec 32) :
    ∀ (n : Nat) (s : Smmu), HwStep s (waitReg32 hw reg mask expected n s).2 := by
  intro n
  induction n with
  | zero => exact fun s => HwStep.rfl
  | succ n ih =>
    intro s
    unfold waitReg32
    split
    · exact hwStep_tick s
    · exact (hwStep_tick s).trans (ih s.tick)

theorem hwStep_updateGbpa (set clear : BitVec 32) (s : Smmu) :
    HwStep s (updateGbpa hw set clear s).2 := by
  unfold updateGbpa
  have hfirst := hwStep_waitReg32 hw .gbpa gbpaUpdate 0#32 pollRetries s
  simp only
  split
  · exact hfirst
  generalize (hw _ _ &&& ~~~clear) ||| set ||| gbpaUpdate = value
  have hwritten := hfirst.trans ((hwStep_tick _).trans (hwStep_write .gbpa value _))
  have hsecond := hwritten.trans (hwStep_waitReg32 hw .gbpa gbpaUpdate 0#32 pollRetries _)
  split
  · exact hsecond
  · exact hsecond.trans (hwStep_tick _)

theorem hwStep_writeCr0 (enables : BitVec 32) (s : Smmu) :
    HwStep s (writeCr0 pr hw enables s).2 := by
  unfold writeCr0
  exact (hwStep_write .cr0 _ s).trans ((hwStep_waitReg32 hw _ _ _ _ _).trans (hwStep_tick _))

theorem forceContainment_spec (sticky : Bool) (s : Smmu) :
    HwStep s (forceContainment pr hw sticky s).2 ∧
      (forceContainment pr hw sticky s).2.ready = false ∧
      (forceContainment pr hw sticky s).2.assignmentHwReady = false := by
  unfold forceContainment
  simp only
  generalize hoff : { s with
    assignmentHwReady := false, hwReady := false, ready := false, cmdqEnabled := false,
    evtqEnabled := false } = off
  have hclose : HwStep s off := by
    subst hoff
    exact ⟨⟨rfl, rfl, rfl, .inr ⟨rfl, rfl⟩⟩, rfl⟩
  have hready : off.ready = false ∧ off.assignmentHwReady = false := by
    subst hoff
    exact ⟨rfl, rfl⟩
  have hrest : HwStep off (writeCr0 pr hw 0#32 (updateGbpa hw gbpaAbort 0#32 off).2).2 :=
    (hwStep_updateGbpa hw _ _ _).trans (hwStep_writeCr0 pr hw _ _)
  generalize writeCr0 pr hw 0#32 (updateGbpa hw gbpaAbort 0#32 off).2 = out at hrest
  refine ⟨hclose.trans ⟨⟨hrest.streams, hrest.caps, hrest.pm, hrest.gate⟩, hrest.strtab⟩, ?_⟩
  rcases hrest.gate with ⟨hr, ha⟩ | hboth
  · exact ⟨hr.trans hready.1, ha.trans hready.2⟩
  · exact hboth

theorem hwStep_degrade (status : Int) (s : Smmu) : HwStep s (degrade pr hw status s).2 := by
  obtain ⟨h, -⟩ := forceContainment_spec pr hw false s
  exact ⟨⟨h.streams, h.caps, h.pm, h.gate⟩, h.strtab⟩

/-! ### Commands -/

theorem hwStep_cmdqIssue (command : Command) (s : Smmu) :
    HwStep s (cmdqIssue pr hw command s).2 := by
  unfold cmdqIssue
  simp only
  split
  · exact (hwStep_tick s).trans (hwStep_degrade pr hw _ _)
  · split
    · exact hwStep_tick s
    · exact hwStep_of rfl rfl rfl rfl rfl rfl

theorem hwStep_cmdqWait (target : BitVec 32) :
    ∀ (n : Nat) (s : Smmu), HwStep s (cmdqWait pr hw target n s).2 := by
  intro n
  induction n with
  | zero => exact fun s => hwStep_degrade pr hw _ s
  | succ n ih =>
    intro s
    unfold cmdqWait
    simp only
    split
    · exact (hwStep_tick s).trans (hwStep_degrade pr hw _ _)
    · split
      · exact hwStep_tick s
      · exact (hwStep_tick s).trans (ih s.tick)

theorem hwStep_cmdqSyncLocked (s : Smmu) : HwStep s (cmdqSyncLocked pr hw s).2 := by
  unfold cmdqSyncLocked
  simp only
  split
  · exact (hwStep_cmdqIssue pr hw _ s).trans (hwStep_cmdqWait pr hw _ _ _)
  · exact hwStep_cmdqIssue pr hw _ s

theorem hwStep_cmdqSync (s : Smmu) : HwStep s (cmdqSync pr hw s).2 := by
  unfold cmdqSync
  split
  · exact HwStep.rfl
  · exact hwStep_cmdqSyncLocked pr hw s

theorem hwStep_commandAndSync (command : Command) (s : Smmu) :
    HwStep s (commandAndSync pr hw command s).2 := by
  unfold commandAndSync
  simp only
  split
  · exact (hwStep_cmdqIssue pr hw _ s).trans (hwStep_cmdqSyncLocked pr hw _)
  · exact hwStep_cmdqIssue pr hw _ s

theorem hwStep_tlbiS12Vmall (hwVmid : BitVec 16) (s : Smmu) :
    HwStep s (tlbiS12Vmall pr hw hwVmid s).2 := by
  unfold tlbiS12Vmall
  split
  · exact HwStep.rfl
  · exact hwStep_commandAndSync pr hw _ s

theorem hwStep_hwSyncS2 (config : S2Config) (s : Smmu) : HwStep s (hwSyncS2 pr hw config s).2 := by
  unfold hwSyncS2
  simp only
  split
  · exact hwStep_tlbiS12Vmall pr hw _ s
  · exact HwStep.rfl

/-! ### Entries -/

/-- Everything but one entry of the stream table is as before. -/
structure SteStep (streamId : BitVec 32) (ste : Ste) (s s' : Smmu) : Prop extends Frame s s' where
  strtab : s'.strtab = Function.update s.strtab streamId ste

variable {streamId : BitVec 32} {ste ste' : Ste}

theorem steStep_setSte (s : Smmu) (streamId : BitVec 32) (ste : Ste) :
    SteStep streamId ste s (s.setSte streamId ste) :=
  ⟨⟨rfl, rfl, rfl, .inl ⟨rfl, rfl⟩⟩, rfl⟩

theorem SteStep.hwStep (h : SteStep streamId ste s s') (h' : HwStep s' s'') :
    SteStep streamId ste s s'' := ⟨h.toFrame.trans h'.toFrame, h'.strtab.trans h.strtab⟩

/-- The last write of an entry counts. -/
theorem SteStep.trans (h : SteStep streamId ste s s') (h' : SteStep streamId ste' s' s'') :
    SteStep streamId ste' s s'' := by
  refine ⟨h.toFrame.trans h'.toFrame, ?_⟩
  rw [h'.strtab, h.strtab, Function.update_idem]

/-- An entry written and then synchronized, whatever comes of it. -/
theorem steStep_syncSte (s : Smmu) (streamId : BitVec 32) (ste : Ste) :
    SteStep streamId ste s (syncSte pr hw streamId (s.setSte streamId ste)).2 :=
  (steStep_setSte s streamId ste).hwStep (hwStep_commandAndSync pr hw _ _)

theorem steStep_rollbackAbort (s : Smmu) (streamId : BitVec 32) :
    SteStep streamId Ste.abort s (rollbackAbort pr hw streamId s) := by
  unfold rollbackAbort
  simp only
  split
  · have h := steStep_syncSte pr hw s streamId Ste.abort
    split
    · exact h.hwStep (hwStep_degrade pr hw _ _)
    · exact h
  · exact steStep_setSte s streamId Ste.abort

/-- Publishing a stage-2 entry leaves the complete entry, or an aborting one. -/
theorem writeS2Ste_spec (config : S2Config) (streamId : BitVec 32) (s : Smmu) :
    ((writeS2Ste pr hw config streamId s).1 = 0 ∧
      SteStep streamId (s2Ste pr config) s (writeS2Ste pr hw config streamId s).2) ∨
    ((writeS2Ste pr hw config streamId s).1 ≠ 0 ∧
      SteStep streamId Ste.abort s (writeS2Ste pr hw config streamId s).2) := by
  unfold writeS2Ste
  simp only
  have hfirst := steStep_syncSte pr hw s streamId
    (s2Body pr config (s.strtab streamId).word0)
  split
  next hne => exact .inr ⟨hne, hfirst.trans (steStep_rollbackAbort pr hw _ _)⟩
  next =>
  have hsecond := hfirst.trans (steStep_syncSte pr hw _ streamId (s2Ste pr config))
  split
  next => exact .inl ⟨rfl, hsecond⟩
  next hne => exact .inr ⟨hne, hsecond.trans (steStep_rollbackAbort pr hw _ _)⟩

/-! ### Records -/

def IsStream (s : Smmu) (streamId : BitVec 32) (i : Fin maxSwStreams) : Prop :=
  (s.streams i).used = true ∧ (s.streams i).streamId = streamId

variable {i : Fin maxSwStreams}

theorem isStream_of_findStream (h : s.findStream streamId = some i) :
    s.IsStream streamId i := by
  have hp := List.find?_some h
  simp only [Bool.and_eq_true, decide_eq_true_eq] at hp
  exact hp

theorem not_isStream_of_findStream (h : s.findStream streamId = none) (i : Fin maxSwStreams) :
    ¬ s.IsStream streamId i := by
  intro hi
  have hp := List.find?_eq_none.mp h i (List.mem_finRange i)
  simp [hi.1, hi.2] at hp

/-- A fresh record of a stream, as `arm_smmu_alloc_stream` makes it. -/
def freshStream (old : StreamState) (streamId : BitVec 32) : StreamState :=
  { old.clearFault with
    used := true, streamId := streamId, config := S2Config.zero, assigned := false }

/-- The record is the one that was there, or a fresh one in an unused slot. -/
inductive FoundOrFresh (s : Smmu) (streamId : BitVec 32) : Fin maxSwStreams → Smmu → Prop
  | found {i : Fin maxSwStreams} (hi : s.IsStream streamId i) : FoundOrFresh s streamId i s
  | fresh {i : Fin maxSwStreams} (hfree : (s.streams i).used = false)
      (hnone : ∀ j, ¬ s.IsStream streamId j) :
      FoundOrFresh s streamId i (s.setStream i (freshStream (s.streams i) streamId))

theorem foundOrFresh (h : s.findOrAlloc streamId = some (i, s')) :
    FoundOrFresh s streamId i s' := by
  unfold findOrAlloc at h
  cases hfind : s.findStream streamId with
  | some j =>
    rw [hfind] at h
    cases h
    exact .found (isStream_of_findStream hfind)
  | none =>
    rw [hfind] at h
    simp only [allocStream, Option.map_eq_some_iff, Prod.mk.injEq] at h
    obtain ⟨j, hj, rfl, rfl⟩ := h
    refine .fresh ?_ (not_isStream_of_findStream hfind)
    have hp := List.find?_some hj
    simpa using hp

theorem FoundOrFresh.isStream (h : FoundOrFresh s streamId i s') :
    s'.IsStream streamId i := by
  cases h with
  | found hi => exact hi
  | fresh =>
    unfold IsStream setStream
    simp only [Function.update_self]
    exact ⟨rfl, rfl⟩

def UniqueUsed (streams : Fin maxSwStreams → StreamState) : Prop :=
  ∀ i j, (streams i).used = true → (streams j).used = true →
    (streams i).streamId = (streams j).streamId → i = j

/-- A changed record is used only if it was, for the same stream. -/
def SameUse (old new : StreamState) : Prop :=
  new.used = true → old.used = true ∧ new.streamId = old.streamId

theorem UniqueUsed.sameUse {streams streams' : Fin maxSwStreams → StreamState}
    (h : UniqueUsed streams) (huse : ∀ i, SameUse (streams i) (streams' i)) :
    UniqueUsed streams' := by
  intro i j hi hj heq
  obtain ⟨hi', hidi⟩ := huse i hi
  obtain ⟨hj', hidj⟩ := huse j hj
  exact h i j hi' hj' (hidi.symm.trans (heq.trans hidj))

theorem UniqueUsed.setStream (h : UniqueUsed s.streams)
    {stream : StreamState} (huse : SameUse (s.streams i) stream) :
    UniqueUsed (s.setStream i stream).streams := by
  refine h.sameUse fun j => ?_
  by_cases hj : j = i
  · subst hj
    have hself : (s.setStream j stream).streams j = stream := Function.update_self ..
    rw [hself]
    exact huse
  · have hother : (s.setStream i stream).streams j = s.streams j := Function.update_of_ne hj _ _
    rw [hother]
    exact fun h => ⟨h, rfl⟩

theorem UniqueUsed.foundOrFresh (h : UniqueUsed s.streams)
    (hrecord : FoundOrFresh s streamId i s') : UniqueUsed s'.streams := by
  cases hrecord with
  | found => exact h
  | fresh _ hnone =>
    have hset (j : Fin maxSwStreams) : j ≠ i →
        (s.setStream i (freshStream (s.streams i) streamId)).streams j = s.streams j :=
      fun hj => Function.update_of_ne hj _ _
    have hself : (s.setStream i (freshStream (s.streams i) streamId)).streams i =
        freshStream (s.streams i) streamId := Function.update_self ..
    intro j k
    by_cases hj : j = i
    · by_cases hk : k = i
      · exact fun _ _ _ => hj.trans hk.symm
      · rw [hset k hk, hj, hself]
        exact fun _ hused hid => absurd ⟨hused, hid.symm⟩ (hnone k)
    · by_cases hk : k = i
      · rw [hset j hj, hk, hself]
        exact fun hused _ hid => absurd ⟨hused, hid⟩ (hnone j)
      · rw [hset j hj, hset k hk]
        exact h j k

def GateClosed (pr : Probe) (s : Smmu) (streamId : BitVec 32) : Prop :=
  s.assignmentHwReady = false ∨ s.inStrtab pr streamId = false

inductive AttachStep (pr : Probe) (config : S2Config) (streamId : BitVec 32) (s : Smmu) :
    Int → Smmu → Prop
  /-- refused with nothing changed -/
  | refused {ret : Int} (hret : ret ≠ 0) : AttachStep pr config streamId s ret s
  | already {i : Fin maxSwStreams} (hi : s.IsStream streamId i)
      (hassigned : (s.streams i).assigned = true) (hconfig : (s.streams i).config = config) :
      AttachStep pr config streamId s 0 s
  /-- no entry can be published; the record is dropped, even if it was assigned -/
  | dropped {ret : Int} {i : Fin maxSwStreams} {t : Smmu} (hret : ret ≠ 0)
      (hrecord : FoundOrFresh s streamId i t) (hclosed : GateClosed pr s streamId)
      (hsame : (t.streams i).assigned = true → (t.streams i).config = config)
      (hquar : (t.streams i).quarantined = false) :
      AttachStep pr config streamId s ret (t.setStream i { t.streams i with used := false })
  | failed {ret : Int} {i : Fin maxSwStreams} {t t' : Smmu} (hret : ret ≠ 0)
      (hrecord : FoundOrFresh s streamId i t) (hfree : (t.streams i).assigned = false)
      (hquar : (t.streams i).quarantined = false) (hste : SteStep streamId Ste.abort t t') :
      AttachStep pr config streamId s ret (t'.setStream i { t'.streams i with used := false })
  | attached {i : Fin maxSwStreams} {t t' : Smmu}
      (hvalid : validateS2Config pr config s = 0) (hopen : ¬ GateClosed pr s streamId)
      (hrecord : FoundOrFresh s streamId i t) (hfree : (t.streams i).assigned = false)
      (hquar : (t.streams i).quarantined = false) (hste : SteStep streamId (s2Ste pr config) t t') :
      AttachStep pr config streamId s 0
        (t'.setStream i { t'.streams i with config := config, assigned := true })

theorem gateClosed_foundOrFresh (h : FoundOrFresh s streamId i s') :
    GateClosed pr s' streamId ↔ GateClosed pr s streamId := by
  cases h <;> exact Iff.rfl

theorem attachStep (config : S2Config) (streamId : BitVec 32) (s : Smmu) :
    AttachStep pr config streamId s (hwAttachStream pr hw config streamId s).1
      (hwAttachStream pr hw config streamId s).2 := by
  unfold hwAttachStream
  simp only
  split
  next hinval => exact .refused hinval
  next hvalid =>
  have hvalid := not_not.mp hvalid
  split
  next => exact .refused (show -eInval ≠ 0 by decide)
  next =>
  cases hrec : s.findOrAlloc streamId with
  | none => exact .refused (show -eNoMem ≠ 0 by decide)
  | some out =>
    obtain ⟨i, t⟩ := out
    have hrecord := foundOrFresh hrec
    simp only
    -- a fresh record is neither assigned nor quarantined
    have hfound : (t.streams i).assigned = true ∨ (t.streams i).quarantined = true → t = s := by
      intro h
      cases hrecord with
      | found => rfl
      | fresh =>
        simp only [setStream, Function.update_self] at h
        rcases h with h | h <;> cases h
    split
    next h =>
      rw [hfound (.inl h.1)]
      exact .refused (show -eBusy ≠ 0 by decide)
    next hsame =>
    have hconfig : (t.streams i).assigned = true → (t.streams i).config = config :=
      fun ha => not_not.mp (fun hne => hsame ⟨ha, hne⟩)
    split
    next h =>
      rw [hfound (.inr h)]
      exact .refused (show -eIo ≠ 0 by decide)
    next hquar =>
    have hquar := (Bool.not_eq_true _).mp hquar
    split
    next hclosed =>
      exact .dropped (show -eNoDev ≠ 0 by decide) hrecord
        ((gateClosed_foundOrFresh pr hrecord).mp hclosed) hconfig hquar
    next hopen =>
    split
    next ha =>
      have hi := hrecord.isStream
      have hc := hconfig ha
      have hts := hfound (.inl ha)
      rw [hts] at hi ha hc ⊢
      exact .already hi ha hc
    next ha =>
    have hfree := (Bool.not_eq_true _).mp ha
    rcases writeS2Ste_spec pr hw config streamId t with
      ⟨hret, hste⟩ | ⟨hret, hste⟩
    · rw [if_pos hret]
      exact .attached hvalid
        (fun h => hopen ((gateClosed_foundOrFresh pr hrecord).mpr h)) hrecord hfree
        hquar hste
    · rw [if_neg hret]
      exact .failed hret hrecord hfree hquar hste

inductive DetachStep (pr : Probe) (config : S2Config) (streamId : BitVec 32) (s : Smmu) :
    Int → Smmu → Prop
  | refused {ret : Int} (hret : ret ≠ 0) : DetachStep pr config streamId s ret s
  /-- the entry aborts, but the hardware was not synchronized -/
  | failed {ret : Int} {t : Smmu} (hret : ret ≠ 0) (hste : SteStep streamId Ste.abort s t) :
      DetachStep pr config streamId s ret t
  | detached {i : Fin maxSwStreams} {t : Smmu} (hi : s.IsStream streamId i)
      (hassigned : (s.streams i).assigned = true) (hconfig : (s.streams i).config = config)
      (hste : SteStep streamId Ste.abort s t) :
      DetachStep pr config streamId s 0 (t.setStream i (t.streams i).released)

theorem detachStep (config : S2Config) (streamId : BitVec 32) (s : Smmu) :
    DetachStep pr config streamId s (hwDetachStream pr hw config streamId s).1
      (hwDetachStream pr hw config streamId s).2 := by
  unfold hwDetachStream
  split
  next => exact .refused (show -eInval ≠ 0 by decide)
  next =>
  cases hfind : s.findStream streamId with
  | none => exact .refused (show -eNoDev ≠ 0 by decide)
  | some i =>
    simp only
    split
    next => exact .refused (show -ePerm ≠ 0 by decide)
    next hown =>
    rw [not_or] at hown
    split
    next => exact .refused (show -eNoDev ≠ 0 by decide)
    next =>
    have hste := steStep_syncSte pr hw s streamId Ste.abort
    split
    next =>
      exact .detached (isStream_of_findStream hfind) ((Bool.not_eq_false _).mp hown.1)
        (not_not.mp hown.2) hste
    next hne => exact .failed hne hste

def faulted (stream : StreamState) (count code : BitVec 32) (iova : BitVec 64) : StreamState :=
  { stream with
    faultCount := count, lastFaultCode := code, lastFaultIova := iova, quarantined := true }

/-- **What a fault can do**: the record is quarantined and the entry, if there is one, aborts. -/
inductive QuarantineStep (pr : Probe) (streamId : BitVec 32) (s : Smmu) : Smmu → Prop
  | ignored : QuarantineStep pr streamId s s
  | closed {i : Fin maxSwStreams} {t t' : Smmu} {count code : BitVec 32} {iova : BitVec 64}
      (hrecord : FoundOrFresh s streamId i t)
      (hste : SteStep streamId Ste.abort (t.setStream i (faulted (t.streams i) count code iova)) t') :
      QuarantineStep pr streamId s t'
  | outside {i : Fin maxSwStreams} {t : Smmu} {count code : BitVec 32} {iova : BitVec 64}
      (hrecord : FoundOrFresh s streamId i t) (hout : s.inStrtab pr streamId = false) :
      QuarantineStep pr streamId s (t.setStream i (faulted (t.streams i) count code iova))

theorem quarantineStep (streamId code : BitVec 32) (iova : BitVec 64) (s : Smmu) :
    QuarantineStep pr streamId s (quarantineStream pr hw streamId code iova s) := by
  unfold quarantineStream
  cases hrec : s.findOrAlloc streamId with
  | none => exact .ignored
  | some out =>
    obtain ⟨i, t⟩ := out
    have hrecord := foundOrFresh hrec
    simp only
    generalize (if (t.streams i).faultCount ≠ 0xffffffff#32 then (t.streams i).faultCount + 1#32
      else (t.streams i).faultCount) = count
    split
    next => exact .closed hrecord (steStep_syncSte pr hw _ streamId Ste.abort)
    next hout =>
      refine .outside hrecord ?_
      cases hrecord <;> exact (Bool.not_eq_true _).mp hout

/-- Polling for events keeps what commands and single faults keep. -/
theorem pollEvents_inv {P : Smmu → Prop} (evtq : BitVec 32 → EventRecord)
    (hhw : ∀ s s' : Smmu, HwStep s s' → P s → P s')
    (hfault : ∀ (s s' : Smmu) (streamId : BitVec 32), QuarantineStep pr streamId s s' → P s → P s')
    (h : P s) : P (pollEvents pr hw evtq s) := by
  have hloop (prod : BitVec 32) : ∀ (n : Nat) (cons : BitVec 32) (s : Smmu),
      P s → P (pollLoop pr hw evtq prod n cons s) := by
    intro n
    induction n with
    | zero =>
      intro cons s h
      unfold pollLoop
      split
      · exact hhw _ _ (hwStep_write _ _ s) h
      · exact h
    | succ n ih =>
      intro cons s h
      unfold pollLoop
      split
      · exact ih _ _ (hhw _ _ (hwStep_write _ _ _)
          (hfault _ _ _ (quarantineStep pr hw _ _ _ s) h))
      · exact h
  unfold pollEvents
  split
  · exact h
  · exact hloop _ _ _ _ (hhw _ _ ((hwStep_tick s).trans (hwStep_tick _)) h)

end Smmu

end BeauOs.Iommu
