/-
Who holds a stream: the assigned records of the SMMU and the domains of the broker.

`Holds s i streamId config` says that record `i` is used and assigned, for this stream and with this
configuration.  The operations of the driver are restated by what they do to it: an attach adds one
holder or none, a detach takes one away, faults and power management change nothing
(`attach_holds`, `detach_holds`, `sameHolds_pollEvents`).  One thing an attach does beyond that is
to drop the record of a stream that is assigned already, if the gate is closed.

On top of it, every holder's configuration is that of a domain in use (`RecordsOk`), and as long as
no record is dropped the flag `hw_bound` of a domain says whether it has a holder (`BoundOk`).
-/
import BeauOs.Iommu.Passthrough
import BeauOs.Proofs.Iommu.DmaIsolation

namespace BeauOs.Iommu

open Function

namespace Smmu

variable {pr : Probe} {s s' s'' : Smmu} {streamId : BitVec 32} {config : S2Config}
  {i : Fin maxSwStreams}

/-! ### Holders -/

/-- The record is used and assigned, for this stream and with this configuration. -/
def Holds (s : Smmu) (i : Fin maxSwStreams) (streamId : BitVec 32) (config : S2Config) : Prop :=
  (s.streams i).used = true ∧ (s.streams i).assigned = true ∧ (s.streams i).streamId = streamId ∧
    (s.streams i).config = config

def SameHolds (s s' : Smmu) : Prop :=
  ∀ i streamId config, Holds s' i streamId config ↔ Holds s i streamId config

theorem SameHolds.rfl : SameHolds s s := fun _ _ _ => Iff.rfl

theorem SameHolds.trans (h : SameHolds s s') (h' : SameHolds s' s'') : SameHolds s s'' :=
  fun i streamId config => (h' i streamId config).trans (h i streamId config)

theorem sameHolds_of_streams (h : s'.streams = s.streams) : SameHolds s s' := by
  intro i streamId config
  unfold Holds
  rw [h]

variable {stream : StreamState} {j : Fin maxSwStreams}

theorem holds_setStream_of_ne (hne : j ≠ i) :
    Holds (s.setStream i stream) j streamId config ↔ Holds s j streamId config := by
  have hsame : (s.setStream i stream).streams j = s.streams j := update_of_ne hne _ _
  unfold Holds
  rw [hsame]

theorem holds_setStream_self :
    Holds (s.setStream i stream) i streamId config ↔
      stream.used = true ∧ stream.assigned = true ∧ stream.streamId = streamId ∧
        stream.config = config := by
  have hsame : (s.setStream i stream).streams i = stream := update_self ..
  unfold Holds
  rw [hsame]

/-- A changed record that holds nothing takes one holder away. -/
theorem holds_setStream_none
    (hnone : stream.used = false ∨ stream.assigned = false) (j : Fin maxSwStreams)
    (id : BitVec 32) (c : S2Config) :
    Holds (s.setStream i stream) j id c ↔ j ≠ i ∧ Holds s j id c := by
  by_cases hj : j = i
  · subst hj
    rw [holds_setStream_self]
    constructor
    · rintro ⟨hused, hassigned, -⟩
      rcases hnone with h | h
      · exact absurd (h.symm.trans hused) Bool.false_ne_true
      · exact absurd (h.symm.trans hassigned) Bool.false_ne_true
    · exact fun h => absurd rfl h.1
  · rw [holds_setStream_of_ne hj]
    exact ⟨fun h => ⟨hj, h⟩, fun h => h.2⟩

/-- Taking away a record that held nothing changes nothing. -/
theorem sameHolds_of_not_held
    (h : ∀ k id c, Holds s' k id c ↔ k ≠ j ∧ Holds s k id c)
    (hfree : ∀ id c, ¬ Holds s j id c) : SameHolds s s' := by
  intro k id c
  rw [h k id c]
  refine ⟨fun h => h.2, fun hk => ⟨?_, hk⟩⟩
  rintro rfl
  exact hfree id c hk

theorem sameHolds_foundOrFresh (h : FoundOrFresh s streamId i s') : SameHolds s s' := by
  cases h with
  | found => exact SameHolds.rfl
  | fresh hfree =>
    refine sameHolds_of_not_held (holds_setStream_none (.inr rfl)) ?_
    rintro id c ⟨hused, -⟩
    exact absurd (hfree.symm.trans hused) Bool.false_ne_true

theorem Holds.isStream (h : Holds s i streamId config) : s.IsStream streamId i := ⟨h.1, h.2.2.1⟩

section

variable (h : UniqueUsed s.streams)

include h

theorem UniqueUsed.eq_of_isStream (hi : s.IsStream streamId i) (hj : s.IsStream streamId j) :
    i = j :=
  h i j hi.1 hj.1 (hi.2.trans hj.2.symm)

/-! ### What the operations do to the holders -/

theorem UniqueUsed.attach {ret : Int} (hstep : AttachStep pr config streamId s ret s') :
    UniqueUsed s'.streams := by
  cases hstep with
  | refused | already => exact h
  | dropped _ hrecord =>
    exact (h.foundOrFresh hrecord).setStream fun hused => absurd hused Bool.false_ne_true
  | failed _ hrecord _ _ hste =>
    exact UniqueUsed.setStream (hste.streams ▸ h.foundOrFresh hrecord)
      fun hused => absurd hused Bool.false_ne_true
  | attached _ _ hrecord _ _ hste =>
    exact UniqueUsed.setStream (hste.streams ▸ h.foundOrFresh hrecord)
      fun hused => ⟨hused, rfl⟩

theorem UniqueUsed.detach {ret : Int} (hstep : DetachStep pr config streamId s ret s') :
    UniqueUsed s'.streams := by
  cases hstep with
  | refused => exact h
  | failed _ hste => exact hste.streams ▸ h
  | detached _ _ _ hste =>
    exact UniqueUsed.setStream (hste.streams ▸ h) fun hused => absurd hused Bool.false_ne_true

theorem UniqueUsed.quarantine (hstep : QuarantineStep pr streamId s s') :
    UniqueUsed s'.streams := by
  cases hstep with
  | ignored => exact h
  | closed hrecord hste =>
    rw [hste.streams]
    exact (h.foundOrFresh hrecord).setStream fun hused => ⟨hused, rfl⟩
  | outside hrecord => exact (h.foundOrFresh hrecord).setStream fun hused => ⟨hused, rfl⟩

end

/-- The record of an attach that failed on a closed gate is gone. -/
def Dropped (pr : Probe) (config : S2Config) (streamId : BitVec 32) (s s' : Smmu) : Prop :=
  ∃ i, GateClosed pr s streamId ∧ Holds s i streamId config ∧
    ∀ j id c, Holds s' j id c ↔ j ≠ i ∧ Holds s j id c

def Granted (config : S2Config) (streamId : BitVec 32) (s s' : Smmu) : Prop :=
  ∃ i, (∀ j c, Holds s j streamId c → j = i ∧ c = config) ∧
    (∀ id c, Holds s i id c → id = streamId) ∧
    ∀ j id c, Holds s' j id c ↔
      (j = i ∧ id = streamId ∧ c = config) ∨ (j ≠ i ∧ Holds s j id c)

/-- The record that held the stream for this configuration is gone. -/
def Revoked (config : S2Config) (streamId : BitVec 32) (s s' : Smmu) : Prop :=
  ∃ i, Holds s i streamId config ∧ ∀ j id c, Holds s' j id c ↔ j ≠ i ∧ Holds s j id c

theorem attach_holds (huniq : UniqueUsed s.streams) {ret : Int}
    (h : AttachStep pr config streamId s ret s') :
    (ret ≠ 0 ∧ (SameHolds s s' ∨ Dropped pr config streamId s s')) ∨
      (ret = 0 ∧ Granted config streamId s s') := by
  cases h with
  | refused hret => exact .inl ⟨hret, .inl SameHolds.rfl⟩
  | @already i hi hassigned hconfig =>
    refine .inr ⟨rfl, i, fun j c hj => ?_, fun id c h => h.2.2.1.symm.trans hi.2,
      fun j id c => ?_⟩
    · obtain rfl := huniq.eq_of_isStream hj.isStream hi
      exact ⟨rfl, hj.2.2.2.symm.trans hconfig⟩
    · by_cases hj : j = i
      · subst hj
        constructor
        · exact fun h => .inl ⟨rfl, h.2.2.1.symm.trans hi.2, h.2.2.2.symm.trans hconfig⟩
        · rintro (⟨-, rfl, rfl⟩ | ⟨hne, -⟩)
          · exact ⟨hi.1, hassigned, hi.2, hconfig⟩
          · exact absurd rfl hne
      · exact ⟨fun h => .inr ⟨hj, h⟩, fun h => h.elim (fun h => absurd h.1 hj) (fun h => h.2)⟩
  | @dropped _ i t hret hrecord hclosed hsame =>
    refine .inl ⟨hret, ?_⟩
    have hsame' := sameHolds_foundOrFresh hrecord
    have hdrop (j : Fin maxSwStreams) (id : BitVec 32) (c : S2Config) :
        Holds (t.setStream i { t.streams i with used := false }) j id c ↔
          j ≠ i ∧ Holds s j id c := by
      rw [holds_setStream_none (.inl rfl), hsame']
    by_cases hassigned : (t.streams i).assigned = true
    · refine .inr ⟨i, hclosed, (hsame' i _ _).mp ?_, hdrop⟩
      exact ⟨hrecord.isStream.1, hassigned, hrecord.isStream.2, hsame hassigned⟩
    · refine .inl (sameHolds_of_not_held hdrop fun id c hheld => hassigned ?_)
      exact ((hsame' i id c).mpr hheld).2.1
  | @failed _ _ _ _ hret hrecord hfree _ hste =>
    refine .inl ⟨hret, .inl ?_⟩
    have hsame := (sameHolds_foundOrFresh hrecord).trans (sameHolds_of_streams hste.streams)
    refine hsame.trans (sameHolds_of_not_held (holds_setStream_none (.inl rfl)) ?_)
    rintro id c ⟨-, hassigned, -⟩
    rw [hste.streams, hfree] at hassigned
    cases hassigned
  | @attached i t _ _ _ hrecord hfree _ hste =>
    have hsame := sameHolds_foundOrFresh hrecord
    have hnot (id : BitVec 32) (c : S2Config) : ¬ Holds t i id c := by
      rintro ⟨-, hassigned, -⟩
      rw [hfree] at hassigned
      cases hassigned
    refine .inr ⟨rfl, i, fun j c hj => ?_,
      fun id c h => absurd ((hsame i id c).mpr h) (hnot id c), fun j id c => ?_⟩
    · have hj := (hsame j streamId c).mpr hj
      obtain rfl := (huniq.foundOrFresh hrecord).eq_of_isStream hj.isStream hrecord.isStream
      exact absurd hj (hnot _ _)
    · have hstreams := sameHolds_of_streams hste.streams
      by_cases hj : j = i
      · subst hj
        rw [holds_setStream_self, hste.streams]
        constructor
        · rintro ⟨-, -, hid, hc⟩
          exact .inl ⟨rfl, hid.symm.trans hrecord.isStream.2, hc.symm⟩
        · rintro (⟨-, rfl, rfl⟩ | ⟨hne, -⟩)
          · exact ⟨hrecord.isStream.1, rfl, hrecord.isStream.2, rfl⟩
          · exact absurd rfl hne
      · rw [holds_setStream_of_ne hj, hstreams, hsame]
        exact ⟨fun h => .inr ⟨hj, h⟩, fun h => h.elim (fun h => absurd h.1 hj) (fun h => h.2)⟩

theorem detach_holds {ret : Int} (h : DetachStep pr config streamId s ret s') :
    (ret ≠ 0 ∧ SameHolds s s') ∨ (ret = 0 ∧ Revoked config streamId s s') := by
  cases h with
  | refused hret => exact .inl ⟨hret, SameHolds.rfl⟩
  | failed hret hste => exact .inl ⟨hret, sameHolds_of_streams hste.streams⟩
  | @detached i t hi hassigned hconfig hste =>
    refine .inr ⟨rfl, i, ⟨hi.1, hassigned, hi.2, hconfig⟩, fun j id c => ?_⟩
    rw [holds_setStream_none (.inl rfl), sameHolds_of_streams hste.streams]

theorem sameHolds_quarantine (h : QuarantineStep pr streamId s s') : SameHolds s s' := by
  have hfault (t : Smmu) (i : Fin maxSwStreams) (count code : BitVec 32) (iova : BitVec 64) :
      SameHolds t (t.setStream i (faulted (t.streams i) count code iova)) := by
    intro j id c
    by_cases hj : j = i
    · subst hj
      rw [holds_setStream_self]
      exact Iff.rfl
    · exact holds_setStream_of_ne hj
  cases h with
  | ignored => exact SameHolds.rfl
  | closed hrecord hste =>
    exact ((sameHolds_foundOrFresh hrecord).trans (hfault _ _ _ _ _)).trans
      (sameHolds_of_streams hste.streams)
  | outside hrecord => exact (sameHolds_foundOrFresh hrecord).trans (hfault _ _ _ _ _)

/-- What happens to the SMMU between the calls leaves the holders alone. -/
theorem smmuEvent_holds (pr : Probe) (hw : Hardware) (e : Ledgers.SmmuEvent)
    (huniq : UniqueUsed s.streams) :
    SameHolds s (Ledgers.smmuEvent pr hw e s) ∧
      UniqueUsed (Ledgers.smmuEvent pr hw e s).streams := by
  have hkeep (t : Smmu) (h : t.streams = s.streams) : SameHolds s t ∧ UniqueUsed t.streams :=
    ⟨sameHolds_of_streams h, h ▸ huniq⟩
  cases e with
  | poll evtq =>
    refine pollEvents_inv (P := fun t => SameHolds s t ∧ UniqueUsed t.streams) pr hw evtq ?_ ?_
      ⟨SameHolds.rfl, huniq⟩
    · exact fun t t' hstep h =>
        ⟨h.1.trans (sameHolds_of_streams hstep.streams), hstep.streams ▸ h.2⟩
    · exact fun t t' id hstep h => ⟨h.1.trans (sameHolds_quarantine hstep), h.2.quarantine hstep⟩
  | suspend epoch => exact hkeep _ (pmSuspend_step pr hw epoch s).streams
  | resume epoch => exact hkeep _ (pmResume_step pr hw epoch s).streams
  | gate => exact hkeep _ rfl

theorem hwDetachDomain_holds (pr : Probe) (hw : Hardware) (config : S2Config)
    (huniq : UniqueUsed s.streams) :
    let out := hwDetachDomain pr hw config s
    UniqueUsed out.2.streams ∧
      ((out.1 ≠ 0 ∧ SameHolds s out.2) ∨
        (out.1 = 0 ∧ ∀ j id c, Holds out.2 j id c ↔ Holds s j id c ∧ c ≠ config)) := by
  have hframe := (abortDomain_spec pr hw config (List.finRange maxSwStreams) s).1
  unfold Smmu.hwDetachDomain
  generalize abortDomain pr hw config (List.finRange maxSwStreams) s = out at hframe
  simp only [hframe.streams]
  split
  next =>
    refine ⟨huniq.sameUse fun i => ?_, .inr ⟨rfl, fun j id c => ?_⟩⟩
    · simp only
      split
      · exact fun h => absurd h Bool.false_ne_true
      · exact fun h => ⟨h, rfl⟩
    · unfold Holds
      simp only
      split
      next hc =>
        simp only [StreamState.carries, Bool.and_eq_true, decide_eq_true_eq] at hc
        constructor
        · exact fun h => absurd h.1 Bool.false_ne_true
        · exact fun h => absurd (h.1.2.2.2.symm.trans hc.2) h.2
      next hc =>
        refine ⟨fun h => ⟨h, fun heq => hc ?_⟩, fun h => h.1⟩
        simp only [StreamState.carries, Bool.and_eq_true, decide_eq_true_eq]
        exact ⟨⟨h.1, h.2.1⟩, h.2.2.2.trans heq⟩
  next hret => exact ⟨hframe.streams ▸ huniq, .inl ⟨hret, sameHolds_of_streams hframe.streams⟩⟩

theorem hwDomainBound_iff : hwDomainBound config s = true ↔ ∃ i id, Holds s i id config := by
  unfold hwDomainBound
  rw [List.any_eq_true]
  simp only [StreamState.carries, Bool.and_eq_true, decide_eq_true_eq]
  constructor
  · rintro ⟨i, -, ⟨hused, hassigned⟩, hc⟩
    exact ⟨i, _, hused, hassigned, rfl, hc⟩
  · rintro ⟨i, id, hused, hassigned, -, hc⟩
    exact ⟨i, List.mem_finRange i, ⟨hused, hassigned⟩, hc⟩

end Smmu

/-! ### Domains -/

namespace Broker

open Smmu

variable {pr : Probe} {b b' : Broker} {v : Fin maxVmNum} {streamId : BitVec 32}

def IdentityOk (v : Fin maxVmNum) (config : S2Config) : Prop :=
  config.ownerVmid = v ∧ config.hwVmid = BitVec.ofNat 16 (v + 1)

structure RecordsOk (b : Broker) : Prop where
  identity : ∀ v, (b.domains v).used = true → IdentityOk v (b.domains v).s2
  unused : ∀ v, (b.domains v).used = false → b.domains v = Domain.zero
  records : ∀ i streamId config, Holds b.smmu i streamId config →
    ∃ v, (b.domains v).used = true ∧ config = (b.domains v).s2
  unique : UniqueUsed b.smmu.streams

/-- `hw_bound` says whether the domain has a holder. -/
def BoundOk (b : Broker) : Prop :=
  ∀ v, (b.domains v).hwBound = true ↔ ∃ i streamId, Holds b.smmu i streamId (b.domains v).s2

def Owned (b : Broker) (streamId : BitVec 32) (w : Nat) : Prop :=
  ∃ i config, Holds b.smmu i streamId config ∧ config.ownerVmid = w

instance Owned.decidable (b : Broker) (streamId : BitVec 32) (w : Nat) :
    Decidable (Owned b streamId w) :=
  decidable_of_iff (∃ i, (b.smmu.streams i).used = true ∧ (b.smmu.streams i).assigned = true ∧
      (b.smmu.streams i).streamId = streamId ∧ (b.smmu.streams i).config.ownerVmid = w)
    (exists_congr fun _ =>
      ⟨fun h => ⟨_, ⟨h.1, h.2.1, h.2.2.1, rfl⟩, h.2.2.2⟩,
        fun ⟨_, hh, hw⟩ => ⟨hh.1, hh.2.1, hh.2.2.1, hh.2.2.2 ▸ hw⟩⟩)

instance BoundOk.decidable (b : Broker) : Decidable (BoundOk b) :=
  decidable_of_iff (∀ v, (b.domains v).hwBound = true ↔ hwDomainBound (b.domains v).s2 b.smmu = true)
    (forall_congr' fun _ => iff_congr Iff.rfl hwDomainBound_iff)

theorem IdentityOk.ne_zero {config : S2Config} (h : IdentityOk v config) : config ≠ S2Config.zero := by
  rintro rfl
  have hv : (v : Nat) < 16 := v.isLt
  have hmod := congrArg BitVec.toNat h.2
  rw [BitVec.toNat_ofNat, Nat.mod_eq_of_lt (by omega)] at hmod
  exact absurd hmod.symm (Nat.succ_ne_zero v)

/-- Domains in use are told apart by their configuration. -/
theorem RecordsOk.eq_of_s2_eq (h : RecordsOk b) {w : Fin maxVmNum}
    (hv : (b.domains v).used = true) (heq : (b.domains w).s2 = (b.domains v).s2) : w = v := by
  by_cases hw : (b.domains w).used = true
  · have hid := (h.identity w hw).1
    rw [heq, (h.identity v hv).1] at hid
    exact Fin.ext hid.symm
  · have hzero := h.unused w ((Bool.not_eq_true _).mp hw)
    rw [hzero] at heq
    exact absurd heq.symm (h.identity v hv).ne_zero

def SameConfigs (b b' : Broker) : Prop :=
  ∀ v, (b'.domains v).used = (b.domains v).used ∧ (b'.domains v).s2 = (b.domains v).s2

theorem sameConfigs_setDomain {hwBound : Bool} (smmu : Smmu) :
    SameConfigs b { b.setDomain v { b.domains v with hwBound := hwBound } with smmu := smmu } := by
  intro w
  by_cases hw : w = v
  · subst hw
    simp only [setDomain, update_self, and_self]
  · simp only [setDomain, update_of_ne hw, and_self]

/-- One domain changes, and the records to those of domains in use. -/
theorem RecordsOk.update (h : RecordsOk b) {d : Domain}
    (hdomains : b'.domains = Function.update b.domains v d)
    (hid : d.used = true → IdentityOk v d.s2) (hzero : d.used = false → d = Domain.zero)
    (hrecords : ∀ i streamId config, Holds b'.smmu i streamId config →
      (d.used = true ∧ config = d.s2) ∨
        ∃ w ≠ v, (b.domains w).used = true ∧ config = (b.domains w).s2)
    (hunique : UniqueUsed b'.smmu.streams) : RecordsOk b' := by
  have hself : b'.domains v = d := by rw [hdomains, update_self]
  have hother (w : Fin maxVmNum) (hw : w ≠ v) : b'.domains w = b.domains w := by
    rw [hdomains, update_of_ne hw]
  refine ⟨fun w => ?_, fun w => ?_, fun i id c hh => ?_, hunique⟩
  · by_cases hw : w = v
    · rw [hw, hself]
      exact hid
    · rw [hother w hw]
      exact h.identity w
  · by_cases hw : w = v
    · rw [hw, hself]
      exact hzero
    · rw [hother w hw]
      exact h.unused w
  · rcases hrecords i id c hh with hnew | ⟨w, hw, hold⟩
    · exact ⟨v, by rwa [hself]⟩
    · exact ⟨w, by rwa [hother w hw]⟩

/-! ### Assigning and unassigning -/

/-- The attach of an assigned stream would find the gate closed. -/
def WouldDrop (pr : Probe) (b : Broker) (streamId : BitVec 32) : Prop :=
  GateClosed pr b.smmu streamId ∧
    ∃ i, b.smmu.IsStream streamId i ∧ (b.smmu.streams i).assigned = true

instance WouldDrop.decidable (pr : Probe) (b : Broker) (streamId : BitVec 32) :
    Decidable (WouldDrop pr b streamId) :=
  inferInstanceAs (Decidable ((_ ∨ _) ∧ ∃ i, (_ ∧ _) ∧ (b.smmu.streams i).assigned = true))

section Streams

variable (hw : Hardware) (domain : Option (Fin maxVmNum)) (streamId : BitVec 32)

theorem assignStream_cases (h : RecordsOk b) :
    let out := assignStream pr hw domain streamId b
    (out.1 ≠ 0 ∧ out.2.domains = b.domains ∧ UniqueUsed out.2.smmu.streams ∧
      (SameHolds b.smmu out.2.smmu ∨
        ∃ config, Dropped pr config streamId b.smmu out.2.smmu)) ∨
    (out.1 = 0 ∧ UniqueUsed out.2.smmu.streams ∧ ∃ v, domain = some v ∧
      (b.domains v).used = true ∧ Granted (b.domains v).s2 streamId b.smmu out.2.smmu ∧
      out.2 = { b.setDomain v { b.domains v with hwBound := true } with smmu := out.2.smmu }) := by
  unfold assignStream
  cases domain with
  | none => exact .inl ⟨show -Pm.eInval ≠ 0 by decide, rfl, h.unique, .inl SameHolds.rfl⟩
  | some v =>
    simp only
    split
    next => exact .inl ⟨show -Pm.eInval ≠ 0 by decide, rfl, h.unique, .inl SameHolds.rfl⟩
    next hused =>
      have hstep := attachStep pr hw (b.domains v).s2 streamId b.smmu
      have hunique := h.unique.attach hstep
      rcases attach_holds h.unique hstep with ⟨hret, hholds⟩ | ⟨hret, hholds⟩
      · rw [if_neg hret]
        exact .inl ⟨hret, rfl, hunique, hholds.imp_right fun hd => ⟨_, hd⟩⟩
      · rw [if_pos hret]
        exact .inr ⟨rfl, hunique, v, rfl, (Bool.not_eq_false _).mp hused, hholds, rfl⟩

theorem unassignStream_cases (h : RecordsOk b) :
    let out := unassignStream pr hw domain streamId b
    (out.1 ≠ 0 ∧ out.2.domains = b.domains ∧ UniqueUsed out.2.smmu.streams ∧
      SameHolds b.smmu out.2.smmu) ∨
    (out.1 = 0 ∧ UniqueUsed out.2.smmu.streams ∧ ∃ v, domain = some v ∧
      (b.domains v).used = true ∧ Revoked (b.domains v).s2 streamId b.smmu out.2.smmu ∧
      out.2 = { b.setDomain v { b.domains v with
        hwBound := hwDomainBound (b.domains v).s2 out.2.smmu } with smmu := out.2.smmu }) := by
  unfold unassignStream
  cases domain with
  | none => exact .inl ⟨show -Pm.eInval ≠ 0 by decide, rfl, h.unique, SameHolds.rfl⟩
  | some v =>
    simp only
    split
    next => exact .inl ⟨show -Pm.eInval ≠ 0 by decide, rfl, h.unique, SameHolds.rfl⟩
    next hused =>
      have hstep := detachStep pr hw (b.domains v).s2 streamId b.smmu
      have hunique := h.unique.detach hstep
      rcases detach_holds hstep with ⟨hret, hholds⟩ | ⟨hret, hholds⟩
      · rw [if_neg hret]
        exact .inl ⟨hret, rfl, hunique, hholds⟩
      · rw [if_pos hret]
        exact .inr ⟨rfl, hunique, v, rfl, (Bool.not_eq_false _).mp hused, hholds, rfl⟩

theorem RecordsOk.of_fewer (h : RecordsOk b) (hdomains : b'.domains = b.domains)
    (hfewer : ∀ i id c, Holds b'.smmu i id c → Holds b.smmu i id c)
    (hunique : UniqueUsed b'.smmu.streams) : RecordsOk b' := by
  refine ⟨?_, ?_, fun i id c hh => ?_, hunique⟩
  all_goals rw [hdomains]
  · exact h.identity
  · exact h.unused
  · exact h.records i id c (hfewer i id c hh)

/-- A domain is bound or released, and gets records or loses some. -/
theorem RecordsOk.rebind (h : RecordsOk b) (hused : (b.domains v).used = true) {hwBound : Bool}
    {smmu : Smmu} (hrecords : ∀ i id c, Holds smmu i id c →
      Holds b.smmu i id c ∨ c = (b.domains v).s2)
    (hunique : UniqueUsed smmu.streams) :
    RecordsOk { b.setDomain v { b.domains v with hwBound := hwBound } with smmu := smmu } := by
  refine h.update rfl (fun _ => h.identity v hused)
    (fun hfalse => absurd (hfalse.symm.trans hused) Bool.false_ne_true) (fun i id c hh => ?_) hunique
  rcases hrecords i id c hh with hold | hc
  · obtain ⟨w, hw, hc⟩ := h.records i id c hold
    by_cases hwv : w = v
    · exact .inl ⟨hused, hwv ▸ hc⟩
    · exact .inr ⟨w, hwv, hw, hc⟩
  · exact .inl ⟨hused, hc⟩

theorem RecordsOk.assignStream (h : RecordsOk b) :
    RecordsOk (assignStream pr hw domain streamId b).2 := by
  rcases assignStream_cases hw domain streamId h with
    ⟨-, hdomains, hunique, hholds⟩ | ⟨-, hunique, v, -, hused, ⟨i, -, -, hholds⟩, hout⟩
  · refine h.of_fewer hdomains (fun i id c hh => ?_) hunique
    rcases hholds with hsame | ⟨config, j, -, -, hdrop⟩
    · exact (hsame i id c).mp hh
    · exact ((hdrop i id c).mp hh).2
  · rw [hout]
    refine h.rebind hused (fun j id c hh => ?_) hunique
    rcases (hholds j id c).mp hh with ⟨-, -, hc⟩ | ⟨-, hold⟩
    · exact .inr hc
    · exact .inl hold

theorem RecordsOk.unassignStream (h : RecordsOk b) :
    RecordsOk (unassignStream pr hw domain streamId b).2 := by
  rcases unassignStream_cases hw domain streamId h with
    ⟨-, hdomains, hunique, hholds⟩ | ⟨-, hunique, v, -, hused, ⟨i, -, hholds⟩, hout⟩
  · exact h.of_fewer hdomains (fun i id c hh => (hholds i id c).mp hh) hunique
  · rw [hout]
    exact h.rebind hused (fun j id c hh => .inl ((hholds j id c).mp hh).2) hunique

theorem BoundOk.of_same (h : BoundOk b) (hdomains : b'.domains = b.domains)
    (hsame : SameHolds b.smmu b'.smmu) : BoundOk b' := by
  intro v
  rw [hdomains, h v]
  exact exists_congr fun i => exists_congr fun id => (hsame i id _).symm

/-- A domain is bound or released, and the others keep their records. -/
theorem BoundOk.rebind (hbound : BoundOk b) {hwBound : Bool} {smmu : Smmu}
    (hself : hwBound = true ↔ ∃ i id, Holds smmu i id (b.domains v).s2)
    (hother : ∀ w, w ≠ v → ∀ j id,
      Holds b.smmu j id (b.domains w).s2 ↔ Holds smmu j id (b.domains w).s2) :
    BoundOk { b.setDomain v { b.domains v with hwBound := hwBound } with smmu := smmu } := by
  intro w
  by_cases hw : w = v
  · subst hw
    simp only [setDomain, update_self]
    exact hself
  · simp only [setDomain, update_of_ne hw]
    exact (hbound w).trans (exists_congr fun j => exists_congr fun id => hother w hw j id)

theorem BoundOk.assignStream (hbound : BoundOk b) (h : RecordsOk b)
    (hnodrop : ¬ WouldDrop pr b streamId) : BoundOk (assignStream pr hw domain streamId b).2 := by
  rcases assignStream_cases hw domain streamId h with
    ⟨-, hdomains, -, hholds⟩ | ⟨-, -, v, -, hused, ⟨i, honly, hid, hholds⟩, hout⟩
  · rcases hholds with hsame | ⟨config, j, hclosed, hheld, -⟩
    · exact hbound.of_same hdomains hsame
    · exact absurd ⟨hclosed, j, hheld.isStream, hheld.2.1⟩ hnodrop
  rw [hout]
  refine hbound.rebind (iff_of_true rfl ⟨i, streamId, (hholds i streamId _).mpr
    (.inl ⟨rfl, rfl, rfl⟩)⟩) (fun w hw j id => ?_)
  -- the stream came to another domain, which had it already or held nothing in this record
  constructor
  · intro hh
    refine (hholds j id _).mpr (.inr ⟨?_, hh⟩)
    rintro rfl
    obtain rfl := hid id _ hh
    exact hw (h.eq_of_s2_eq hused (honly j _ hh).2)
  · intro hh
    rcases (hholds j id _).mp hh with ⟨-, -, hc⟩ | ⟨-, hold⟩
    · exact absurd (h.eq_of_s2_eq hused hc) hw
    · exact hold

theorem BoundOk.unassignStream (hbound : BoundOk b) (h : RecordsOk b) :
    BoundOk (unassignStream pr hw domain streamId b).2 := by
  rcases unassignStream_cases hw domain streamId h with
    ⟨-, hdomains, -, hholds⟩ | ⟨-, -, v, -, hused, ⟨i, hheld, hholds⟩, hout⟩
  · exact hbound.of_same hdomains hholds
  rw [hout]
  refine hbound.rebind hwDomainBound_iff (fun w hw j id => ?_)
  refine Iff.trans ⟨fun hh => ⟨?_, hh⟩, fun hh => hh.2⟩ (hholds j id _).symm
  rintro rfl
  exact hw (h.eq_of_s2_eq hused (hh.2.2.2.symm.trans hheld.2.2.2))

end Streams

/-! ### Creating and destroying domains -/

theorem createDomain_cases (pr : Probe) (v : Fin maxVmNum) (root : BitVec 64) (addrWidth : Nat)
    (b : Broker) :
    (createDomain pr v root addrWidth b).2 = b ∨
      ∃ config, (b.domains v).used = false ∧ IdentityOk v config ∧ config.rootTableHpa = root ∧
        (createDomain pr v root addrWidth b).2 = b.setDomain v ⟨config, true, false⟩ := by
  unfold createDomain
  simp only
  split
  next => exact .inl rfl
  next =>
    split
    next hunused =>
      refine .inr ⟨_, hunused, ?_, ?_, rfl⟩
      all_goals
        unfold hwPrepareS2
        simp only
        split
      · exact ⟨rfl, rfl⟩
      · exact ⟨rfl, rfl⟩
      · rfl
      · rfl
    next =>
      split
      · exact .inl rfl
      · exact .inl rfl

/-- **What destroying a domain can do**: nothing is detached, or everything the domain held. -/
theorem destroyDomain_cases (pr : Probe) (hw : Hardware) (v : Fin maxVmNum) (h : RecordsOk b) :
    let b' := destroyDomain pr hw (some v) b
    UniqueUsed b'.smmu.streams ∧
      ((b'.domains = b.domains ∧ SameHolds b.smmu b'.smmu) ∨
        ((b.domains v).used = true ∧ b'.domains = Function.update b.domains v Domain.zero ∧
          ∀ j id c, Holds b'.smmu j id c ↔ Holds b.smmu j id c ∧ c ≠ (b.domains v).s2)) := by
  unfold destroyDomain
  simp only
  split
  next => exact ⟨h.unique, .inl ⟨rfl, SameHolds.rfl⟩⟩
  next hused =>
    obtain ⟨hunique, hholds⟩ := hwDetachDomain_holds pr hw (b.domains v).s2 h.unique
    split
    next hret =>
      refine ⟨hunique, ?_⟩
      rcases hholds with ⟨hne, -⟩ | ⟨-, hgone⟩
      · exact absurd hret hne
      · exact .inr ⟨(Bool.not_eq_false _).mp hused, rfl, hgone⟩
    next hret =>
      refine ⟨hunique, .inl ⟨rfl, ?_⟩⟩
      rcases hholds with ⟨-, hsame⟩ | ⟨hzero, -⟩
      · exact hsame
      · exact absurd hzero hret

theorem RecordsOk.createDomain (h : RecordsOk b) (root : BitVec 64) (addrWidth : Nat) :
    RecordsOk (createDomain pr v root addrWidth b).2 := by
  rcases createDomain_cases pr v root addrWidth b with hsame | ⟨config, hunused, hid, -, hnew⟩
  · rw [hsame]
    exact h
  rw [hnew]
  refine h.update rfl (fun _ => hid) (fun hfalse => absurd hfalse.symm Bool.false_ne_true)
    (fun i id c hh => ?_) h.unique
  obtain ⟨w, hused, hc⟩ := h.records i id c hh
  refine .inr ⟨w, ?_, hused, hc⟩
  rintro rfl
  exact absurd (hunused.symm.trans hused) Bool.false_ne_true

theorem RecordsOk.destroyDomain (h : RecordsOk b) (hw : Hardware) :
    RecordsOk (destroyDomain pr hw (some v) b) := by
  obtain ⟨hunique, ⟨hdomains, hsame⟩ | ⟨hused, hdomains, hgone⟩⟩ := destroyDomain_cases pr hw v h
  · exact h.of_fewer hdomains (fun i id c hh => (hsame i id c).mp hh) hunique
  · refine h.update hdomains (fun hfalse => absurd hfalse Bool.false_ne_true) (fun _ => rfl)
      (fun i id c hh => ?_) hunique
    obtain ⟨hold, hne⟩ := (hgone i id c).mp hh
    obtain ⟨w, hw, hc⟩ := h.records i id c hold
    refine .inr ⟨w, ?_, hw, hc⟩
    rintro rfl
    exact hne hc

/-! ### Owners -/

theorem owned_congr (hsame : SameHolds b.smmu b'.smmu) (w : Nat) :
    Owned b' streamId w ↔ Owned b streamId w :=
  exists_congr fun i => exists_congr fun c => and_congr_left fun _ => hsame i streamId c

def OthersSame (streamId : BitVec 32) (b b' : Broker) : Prop :=
  ∀ other, other ≠ streamId → ∀ w, Owned b' other w ↔ Owned b other w

theorem assignStream_owned (hw : Hardware) (domain : Option (Fin maxVmNum)) (streamId : BitVec 32)
    (h : RecordsOk b) (hnodrop : ¬ WouldDrop pr b streamId) :
    let out := assignStream pr hw domain streamId b
    OthersSame streamId b out.2 ∧
      ((out.1 ≠ 0 ∧ ∀ w, Owned out.2 streamId w ↔ Owned b streamId w) ∨
        (out.1 = 0 ∧ ∃ v, domain = some v ∧ ∀ w : Nat, Owned out.2 streamId w ↔ w = v)) := by
  intro out
  rcases assignStream_cases hw domain streamId h with
    ⟨hret, -, -, hholds⟩ | ⟨hret, -, v, hdomain, hused, ⟨i, honly, hid, hholds⟩, -⟩
  · rcases hholds with hsame | ⟨config, j, hclosed, hheld, -⟩
    · exact ⟨fun _ _ w => owned_congr hsame w, .inl ⟨hret, fun w => owned_congr hsame w⟩⟩
    · exact absurd ⟨hclosed, j, hheld.isStream, hheld.2.1⟩ hnodrop
  refine ⟨fun other hne w => ?_, .inr ⟨hret, v, hdomain, fun w => ?_⟩⟩
  · refine exists_congr fun j => exists_congr fun c => and_congr_left fun _ => ?_
    rw [hholds]
    constructor
    · exact fun hh => hh.elim (fun hh => absurd hh.2.1 hne) (fun hh => hh.2)
    · refine fun hh => .inr ⟨?_, hh⟩
      rintro rfl
      exact hne (hid other c hh)
  · have hv := (h.identity v hused).1
    constructor
    · rintro ⟨j, c, hh, hc⟩
      rcases (hholds j streamId c).mp hh with ⟨-, -, rfl⟩ | ⟨hne, hold⟩
      · exact hc.symm.trans hv
      · exact absurd (honly j c hold).1 hne
    · rintro rfl
      exact ⟨i, _, (hholds i streamId _).mpr (.inl ⟨rfl, rfl, rfl⟩), hv⟩

theorem unassignStream_owned (pr : Probe) (hw : Hardware) (domain : Option (Fin maxVmNum))
    (streamId : BitVec 32) (h : RecordsOk b) :
    let out := unassignStream pr hw domain streamId b
    OthersSame streamId b out.2 ∧
      ((out.1 ≠ 0 ∧ ∀ w, Owned out.2 streamId w ↔ Owned b streamId w) ∨
        (out.1 = 0 ∧ ∀ w, ¬ Owned out.2 streamId w)) := by
  intro out
  rcases unassignStream_cases hw domain streamId h with
    ⟨hret, -, -, hsame⟩ | ⟨hret, -, v, -, -, ⟨i, hheld, hholds⟩, -⟩
  · exact ⟨fun _ _ w => owned_congr hsame w, .inl ⟨hret, fun w => owned_congr hsame w⟩⟩
  refine ⟨fun other hne w => ?_, .inr ⟨hret, ?_⟩⟩
  · refine exists_congr fun j => exists_congr fun c => and_congr_left fun _ => ?_
    rw [hholds]
    refine ⟨fun hh => hh.2, fun hh => ⟨?_, hh⟩⟩
    rintro rfl
    exact hne (hh.2.2.1.symm.trans hheld.2.2.1)
  · rintro w ⟨j, c, hh, -⟩
    obtain ⟨hne, hold⟩ := (hholds j streamId c).mp hh
    exact hne (h.unique.eq_of_isStream hold.isStream hheld.isStream)

end Broker

end BeauOs.Iommu
