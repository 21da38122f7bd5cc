/-
The ownership ledgers of passthrough devices agree.

Three ledgers say who owns a stream: the passthrough table, the records of the SMMU and the
`hw_bound` flags of the domains.  The table is written in another section than the one that
calls the SMMU, so while a call is under way they may differ; what they say then follows from where
the call is (`MidOk`).  Once it is over they agree again.

Two things break this.  A call may check the table while another one on the same stream is between
its SMMU call and its publication; whoever publishes last is then believed, whatever the SMMU says.
And an assignment of a stream that the VM has already, made while the gate is closed, drops the
record and leaves the table and `hw_bound` as they were.  The theorem is about runs without either
(`StepOk`).
-/
import BeauOs.Proofs.Iommu.Broker

namespace BeauOs.Iommu.Ledgers

open Function

open BeauOs.Pm (ePerm eBusy eNoDev eInval)
open Smmu Broker

variable {n : Nat} {pr : Probe} {s t : Ledgers n} {streamId : BitVec 32} {p : Fin n}

/-! ### What the table says -/

/-- The passthrough table names a VM as owner. -/
def Named (s : Ledgers n) (streamId : BitVec 32) (w : Nat) : Prop :=
  ∃ i, s.findDevice streamId = some i ∧ (s.devices i).owner = .vm ∧ (s.devices i).ownerVmid = w

def Registered (s : Ledgers n) (streamId : BitVec 32) : Prop :=
  ∃ i, s.findDevice streamId = some i

def Agree (s : Ledgers n) (streamId : BitVec 32) : Prop :=
  ∀ w, Named s streamId w ↔ Owned s.broker streamId w

variable {i : Fin maxPtDevices} {owner : PtOwner} {vmid : Nat} {pc : PtPc} {v : Fin maxVmNum}

theorem streamId_of_findDevice (h : s.findDevice streamId = some i) :
    (s.devices i).streamId = streamId := by
  have hp := List.find?_some h
  simp only [Bool.and_eq_true, decide_eq_true_eq] at hp
  exact hp.2

theorem findDevice_publish (i : Fin maxPtDevices) (owner : PtOwner) (vmid : Nat)
    (streamId : BitVec 32) :
    (s.publish i owner vmid).findDevice streamId = s.findDevice streamId := by
  unfold findDevice publish
  congr 1
  funext j
  by_cases hj : j = i
  · subst hj
    simp only [update_self]
  · simp only [update_of_ne hj]

/-- Publishing changes what the table says about one stream only. -/
theorem named_publish_of_ne (hi : s.findDevice streamId = some i) {other : BitVec 32}
    (hne : other ≠ streamId) (w : Nat) :
    Named (s.publish i owner vmid) other w ↔ Named s other w := by
  unfold Named
  simp only [findDevice_publish]
  refine exists_congr fun j => and_congr_right fun hj => ?_
  have hji : j ≠ i := by
    rintro rfl
    exact hne ((streamId_of_findDevice hj).symm.trans (streamId_of_findDevice hi))
  simp only [publish, update_of_ne hji]

theorem named_publish_self (hi : s.findDevice streamId = some i) (w : Nat) :
    Named (s.publish i owner vmid) streamId w ↔ owner = .vm ∧ vmid = w := by
  unfold Named
  simp only [findDevice_publish]
  constructor
  · rintro ⟨j, hj, howner, hvmid⟩
    obtain rfl : i = j := Option.some.inj (hi.symm.trans hj)
    simp only [publish, update_self] at howner hvmid
    exact ⟨howner, hvmid⟩
  · rintro ⟨howner, hvmid⟩
    refine ⟨i, hi, ?_⟩
    simp only [publish, update_self]
    exact ⟨howner, hvmid⟩

/-! ### Calls under way -/

/-- The stream a call is about, between its check and its publication. -/
def midStream : PtPc → Option (BitVec 32)
  | .assignBind _ streamId => some streamId
  | .assignPublish _ streamId => some streamId
  | .assignRollback _ streamId => some streamId
  | .deassignRevoke _ streamId _ => some streamId
  | .deassignPublish _ streamId _ => some streamId
  | _ => none

/-- What the ledgers say while a call is under way. -/
def MidOk (s : Ledgers n) : PtPc → Prop
  | .assignBind _ streamId => Registered s streamId ∧ Agree s streamId
  | .assignPublish v streamId =>
    Registered s streamId ∧ ∀ w : Nat, Owned s.broker streamId w ↔ w = v
  | .assignRollback _ _ => False
  | .deassignRevoke _ streamId _ => Registered s streamId ∧ Agree s streamId
  | .deassignPublish _ streamId _ => Registered s streamId ∧ ∀ w, ¬ Owned s.broker streamId w
  | _ => True

structure LedgerInv (s : Ledgers n) : Prop where
  records : RecordsOk s.broker
  bound : BoundOk s.broker
  mid : ∀ p, MidOk s (s.pc p)
  alone : ∀ p q streamId, midStream (s.pc p) = some streamId →
    midStream (s.pc q) = some streamId → p = q
  agree : ∀ streamId, Registered s streamId → (∀ p, midStream (s.pc p) ≠ some streamId) →
    Agree s streamId

structure SameSays (s t : Ledgers n) (streamId : BitVec 32) : Prop where
  named : ∀ w, Named t streamId w ↔ Named s streamId w
  owned : ∀ w, Owned t.broker streamId w ↔ Owned s.broker streamId w

theorem SameSays.agree (h : SameSays s t streamId) : Agree t streamId ↔ Agree s streamId :=
  forall_congr' fun w => by rw [h.named, h.owned]

theorem MidOk.congr (hmid : MidOk s pc) (hfind : ∀ id, t.findDevice id = s.findDevice id)
    (hsame : ∀ id, midStream pc = some id → SameSays s t id) : MidOk t pc := by
  have hreg (id : BitVec 32) : Registered s id → Registered t id := fun ⟨i, hi⟩ =>
    ⟨i, (hfind id).trans hi⟩
  cases pc with
  | assignBind v id => exact ⟨hreg id hmid.1, (hsame id rfl).agree.mpr hmid.2⟩
  | assignPublish v id =>
    exact ⟨hreg id hmid.1, fun w => ((hsame id rfl).owned w).trans (hmid.2 w)⟩
  | assignRollback => exact hmid
  | deassignRevoke _ id => exact ⟨hreg id hmid.1, (hsame id rfl).agree.mpr hmid.2⟩
  | deassignPublish _ id =>
    exact ⟨hreg id hmid.1, fun w => mt ((hsame id rfl).owned w).mp (hmid.2 w)⟩
  | _ => trivial

/-- **The step rule.**  A pCPU goes on; only the stream its call is about may be affected. -/
theorem LedgerInv.advance (hinv : LedgerInv s) (hpc : t.pc = Function.update s.pc p pc)
    (hfind : ∀ id, t.findDevice id = s.findDevice id)
    (hsame : ∀ id, midStream (s.pc p) ≠ some id → SameSays s t id) (hrecords : RecordsOk t.broker)
    (hbound : BoundOk t.broker)
    (hstays : ∀ id, midStream pc = some id → midStream (s.pc p) = some id ∨
      ∀ q, q ≠ p → midStream (s.pc q) ≠ some id)
    (hmid : MidOk t pc)
    (hdone : ∀ id, midStream (s.pc p) = some id → midStream pc ≠ some id → Agree t id) :
    LedgerInv t := by
  have hself : t.pc p = pc := by rw [hpc, update_self]
  have hother (q : Fin n) (hq : q ≠ p) : t.pc q = s.pc q := by rw [hpc, update_of_ne hq]
  -- nobody else is on the stream this pCPU is on afterwards
  have halone (q : Fin n) (hq : q ≠ p) (id : BitVec 32) (hid : midStream pc = some id) :
      midStream (s.pc q) ≠ some id := by
    rcases hstays id hid with hp | hfree
    · exact fun hmq => hq (hinv.alone q p id hmq hp)
    · exact hfree q hq
  refine ⟨hrecords, hbound, fun q => ?_, fun q r id hmq hmr => ?_, fun id hreg hnone => ?_⟩
  · by_cases hq : q = p
    · rw [hq, hself]
      exact hmid
    · rw [hother q hq]
      refine (hinv.mid q).congr hfind fun id hid => hsame id fun hp => hq ?_
      exact hinv.alone q p id hid hp
  · by_cases hq : q = p
    · by_cases hr : r = p
      · exact hq.trans hr.symm
      · rw [hq, hself] at hmq
        rw [hother r hr] at hmr
        exact absurd hmr (halone r hr id hmq)
    · rw [hother q hq] at hmq
      by_cases hr : r = p
      · rw [hr, hself] at hmr
        exact absurd hmq (halone q hq id hmr)
      · rw [hother r hr] at hmr
        exact hinv.alone q r id hmq hmr
  · by_cases hp : midStream (s.pc p) = some id
    · exact hdone id hp (hself ▸ hnone p)
    · refine (hsame id hp).agree.mpr (hinv.agree id ?_ fun q => ?_)
      · obtain ⟨i, hi⟩ := hreg
        exact ⟨i, (hfind id).symm.trans hi⟩
      · by_cases hq : q = p
        · rw [hq]
          exact hp
        · exact hother q hq ▸ hnone q

theorem LedgerInv.goto (hinv : LedgerInv s) (hmid : MidOk s pc)
    (hstays : ∀ id, midStream pc = some id → midStream (s.pc p) = some id ∨
      ∀ q, q ≠ p → midStream (s.pc q) ≠ some id)
    (hdone : ∀ id, midStream (s.pc p) = some id → midStream pc ≠ some id → Agree s id) :
    LedgerInv (s.goto p pc) :=
  hinv.advance rfl (fun _ => rfl) (fun _ _ => ⟨fun _ => Iff.rfl, fun _ => Iff.rfl⟩) hinv.records
    hinv.bound hstays (hmid.congr (fun _ => rfl) fun _ _ => ⟨fun _ => Iff.rfl, fun _ => Iff.rfl⟩)
    hdone

/-- A pCPU that is not in the middle of a call goes on to where it is not either. -/
theorem LedgerInv.goto_idle (hinv : LedgerInv s) (hfrom : midStream (s.pc p) = none)
    (hdst : midStream pc = none) (hmid : MidOk s pc) : LedgerInv (s.goto p pc) := by
  refine hinv.goto hmid (fun id h => ?_) (fun id h => ?_)
  · rw [hdst] at h
    cases h
  · rw [hfrom] at h
    cases h

theorem midStream_returnTo (v : Fin maxVmNum) (next : Option Nat) (ret : Int) :
    midStream (returnTo v next ret) = none := by
  cases next <;> rfl

theorem midOk_returnTo (v : Fin maxVmNum) (next : Option Nat) (ret : Int) :
    MidOk s (returnTo v next ret) := by
  cases next <;> trivial

/-! ### The steps -/

/-- The SMMU call of a pCPU: only the holders of its stream change. -/
theorem LedgerInv.smmuCall (hinv : LedgerInv s) {b : Broker}
    (hp : midStream (s.pc p) = some streamId) (hothers : OthersSame streamId s.broker b)
    (hrecords : RecordsOk b) (hbound : BoundOk b)
    (hstays : ∀ id, midStream pc = some id → id = streamId)
    (hmid : MidOk { s with broker := b } pc)
    (hdone : midStream pc ≠ some streamId → Agree { s with broker := b } streamId) :
    LedgerInv ({ s with broker := b }.goto p pc) := by
  refine hinv.advance rfl (fun _ => rfl) (fun id hid => ⟨fun _ => Iff.rfl, fun w => ?_⟩) hrecords
    hbound (fun id hid => ?_) (hmid.congr (fun _ => rfl) fun _ _ =>
      ⟨fun _ => Iff.rfl, fun _ => Iff.rfl⟩) (fun id hid hne => ?_)
  · refine hothers id (fun heq => hid ?_) w
    rw [heq]
    exact hp
  · rw [hstays id hid]
    exact .inl hp
  · obtain rfl : streamId = id := Option.some.inj (hp.symm.trans hid)
    exact hdone hne

theorem LedgerInv.publish (hinv : LedgerInv s) (hp : midStream (s.pc p) = some streamId)
    (hi : s.findDevice streamId = some i)
    (howned : ∀ w, Owned s.broker streamId w ↔ owner = .vm ∧ vmid = w) (hdst : midStream pc = none)
    (hmid : MidOk ((s.publish i owner vmid).goto p pc) pc) :
    LedgerInv ((s.publish i owner vmid).goto p pc) := by
  refine hinv.advance rfl (findDevice_publish i owner vmid)
    (fun id hid => ⟨fun w => ?_, fun _ => Iff.rfl⟩) hinv.records hinv.bound (fun id hid => ?_) hmid
    (fun id hid _ w => ?_)
  · refine named_publish_of_ne hi (fun heq => hid ?_) w
    rw [heq]
    exact hp
  · rw [hdst] at hid
    cases hid
  · obtain rfl : streamId = id := Option.some.inj (hp.symm.trans hid)
    exact (named_publish_self hi w).trans (howned w).symm

/-- The two conditions on a pCPU that goes on. -/
def StepOk (pr : Probe) (s : Ledgers n) (p : Fin n) : PtPc → Prop
  | .assignCheck _ streamId _ => ∀ q, q ≠ p → midStream (s.pc q) ≠ some streamId
  | .deassignCheck _ streamId _ => ∀ q, q ≠ p → midStream (s.pc q) ≠ some streamId
  | .assignBind _ streamId => ¬ WouldDrop pr s.broker streamId
  | _ => True

theorem registered_of_assignRet {writable : Bool} (h : s.assignRet v streamId writable = 0) :
    Registered s streamId := by
  unfold assignRet at h
  cases hfind : s.findDevice streamId with
  | some i => exact ⟨i, hfind⟩
  | none =>
    rw [hfind] at h
    exact absurd h (show -eNoDev ≠ 0 by decide)

theorem registered_of_deassignRet (h : s.deassignRet v streamId = 0) : Registered s streamId := by
  unfold deassignRet at h
  cases hfind : s.findDevice streamId with
  | some i => exact ⟨i, hfind⟩
  | none =>
    rw [hfind] at h
    exact absurd h (show -eNoDev ≠ 0 by decide)

/-- A check that passes takes the stream, which nobody else is on. -/
theorem LedgerInv.takeStream (hinv : LedgerInv s) (hfrom : midStream (s.pc p) = none)
    (hdst : midStream pc = some streamId) (hreg : Registered s streamId)
    (hmid : Registered s streamId ∧ Agree s streamId → MidOk s pc)
    (hfree : ∀ q, q ≠ p → midStream (s.pc q) ≠ some streamId) : LedgerInv (s.goto p pc) := by
  have hagree : Agree s streamId := by
    refine hinv.agree streamId hreg fun q => ?_
    by_cases hq : q = p
    · rw [hq, hfrom]
      exact nofun
    · exact hfree q hq
  refine hinv.goto (hmid ⟨hreg, hagree⟩) (fun id hid => .inr fun q hq => ?_) (fun id hid => ?_)
  · obtain rfl : streamId = id := Option.some.inj (hdst.symm.trans hid)
    exact hfree q hq
  · rw [hfrom] at hid
    cases hid

theorem LedgerInv.assignBind (hinv : LedgerInv s) (hw : Hardware)
    (hpc : s.pc p = .assignBind v streamId) (hnodrop : ¬ WouldDrop pr s.broker streamId) :
    LedgerInv (runSection pr hw p s) := by
  have hp : midStream (s.pc p) = some streamId := by rw [hpc]; rfl
  have hmid := hinv.mid p
  rw [hpc] at hmid
  obtain ⟨hothers, hret⟩ := assignStream_owned hw (s.iommu v) streamId hinv.records hnodrop
  have hrecords : RecordsOk (assignStream pr hw (s.iommu v) streamId s.broker).2 :=
    hinv.records.assignStream hw (s.iommu v) streamId
  have hbound := hinv.bound.assignStream hw (s.iommu v) streamId hinv.records hnodrop
  unfold runSection
  rw [hpc]
  simp only
  rcases hret with ⟨hne, howned⟩ | ⟨heq, w, hw', howned⟩
  · rw [if_pos hne]
    refine hinv.smmuCall hp hothers hrecords hbound (fun id h => by cases h) trivial fun _ w => ?_
    exact (hmid.2 w).trans (howned w).symm
  rw [if_neg (not_not.mpr heq)]
  -- the pointer of a VM is to its own domain
  obtain rfl : w = v := by
    unfold iommu at hw'
    split at hw'
    · exact (Option.some.inj hw').symm
    · cases hw'
  exact hinv.smmuCall hp hothers hrecords hbound (fun id h => (Option.some.inj h).symm)
    ⟨hmid.1, howned⟩ (fun h => absurd rfl h)

theorem LedgerInv.deassignRevoke (hinv : LedgerInv s) {next : Option Nat} (hw : Hardware)
    (hpc : s.pc p = .deassignRevoke v streamId next) : LedgerInv (runSection pr hw p s) := by
  have hp : midStream (s.pc p) = some streamId := by rw [hpc]; rfl
  have hmid := hinv.mid p
  rw [hpc] at hmid
  obtain ⟨hothers, hret⟩ := unassignStream_owned pr hw (s.iommu v) streamId hinv.records
  have hrecords : RecordsOk (unassignStream pr hw (s.iommu v) streamId s.broker).2 :=
    hinv.records.unassignStream hw (s.iommu v) streamId
  have hbound : BoundOk (unassignStream pr hw (s.iommu v) streamId s.broker).2 :=
    hinv.bound.unassignStream hw (s.iommu v) streamId hinv.records
  unfold runSection
  rw [hpc]
  simp only
  rcases hret with ⟨hne, howned⟩ | ⟨heq, hnone⟩
  · rw [if_pos hne]
    refine hinv.smmuCall hp hothers hrecords hbound (fun id h => ?_) (midOk_returnTo v next _)
      fun _ w => (hmid.2 w).trans (howned w).symm
    rw [midStream_returnTo] at h
    cases h
  · rw [if_neg (not_not.mpr heq)]
    exact hinv.smmuCall hp hothers hrecords hbound (fun id h => (Option.some.inj h).symm)
      ⟨hmid.1, hnone⟩ (fun h => absurd rfl h)

theorem LedgerInv.runSection (hinv : LedgerInv s) (hw : Hardware) (p : Fin n)
    (hok : StepOk pr s p (s.pc p)) : LedgerInv (runSection pr hw p s) := by
  have hmid := hinv.mid p
  cases hpc : s.pc p with
  | idle =>
    unfold Ledgers.runSection
    rw [hpc]
    exact hinv
  | assignCheck =>
    rw [hpc] at hok
    have hfrom : midStream (s.pc p) = none := by rw [hpc]; rfl
    unfold Ledgers.runSection
    rw [hpc]
    simp only
    split
    · exact hinv.goto_idle hfrom rfl trivial
    split
    · exact hinv.goto_idle hfrom rfl trivial
    next hret =>
      exact hinv.takeStream hfrom rfl (registered_of_assignRet (not_not.mp hret)) (fun h => h)
        hok
  | assignBind => exact hinv.assignBind hw hpc (by rw [hpc] at hok; exact hok)
  | assignPublish =>
    rw [hpc] at hmid
    obtain ⟨⟨i, hi⟩, howned⟩ := hmid
    unfold Ledgers.runSection
    rw [hpc]
    simp only [hi]
    refine hinv.publish (by rw [hpc]; rfl) hi (fun w => ?_) rfl trivial
    rw [howned w]
    exact ⟨fun h => ⟨rfl, h.symm⟩, fun h => h.2.symm⟩
  | assignRollback =>
    rw [hpc] at hmid
    exact absurd hmid not_false
  | deassignCheck v _ next =>
    rw [hpc] at hok
    have hfrom : midStream (s.pc p) = none := by rw [hpc]; rfl
    unfold Ledgers.runSection
    rw [hpc]
    simp only
    split
    · exact hinv.goto_idle hfrom (midStream_returnTo v next _) (midOk_returnTo v next _)
    split
    · exact hinv.goto_idle hfrom (midStream_returnTo v next _) (midOk_returnTo v next _)
    next hret =>
      exact hinv.takeStream hfrom rfl (registered_of_deassignRet (not_not.mp hret))
        (fun h => h) hok
  | deassignRevoke => exact hinv.deassignRevoke hw hpc
  | deassignPublish v _ next =>
    rw [hpc] at hmid
    obtain ⟨⟨i, hi⟩, hnone⟩ := hmid
    unfold Ledgers.runSection
    rw [hpc]
    simp only [hi]
    refine hinv.publish (by rw [hpc]; rfl) hi (fun w => ?_) (midStream_returnTo v next 0)
      (midOk_returnTo v next 0)
    exact ⟨fun h => absurd h (hnone w), fun h => absurd h.1 (by decide)⟩
  | sweep =>
    have hfrom : midStream (s.pc p) = none := by rw [hpc]; rfl
    unfold Ledgers.runSection
    rw [hpc]
    simp only
    split
    · split
      · exact hinv.goto_idle hfrom rfl trivial
      · exact hinv.goto_idle hfrom rfl trivial
    · exact hinv.goto_idle hfrom rfl trivial

/-! ### Whole runs -/

/-- Nothing is assigned and no call is under way. -/
structure Booted (s : Ledgers n) : Prop where
  idle : ∀ p, isIdle (s.pc p) = true
  unowned : ∀ i, (s.devices i).owner ≠ .vm
  unused : ∀ i, (s.broker.smmu.streams i).used = false
  identity : ∀ v, (s.broker.domains v).used = true → IdentityOk v (s.broker.domains v).s2
  cleared : ∀ v, (s.broker.domains v).used = false → s.broker.domains v = Domain.zero
  unbound : ∀ v, (s.broker.domains v).hwBound = false

theorem midStream_of_isIdle (h : isIdle pc = true) : midStream pc = none := by
  cases pc with
  | idle => rfl
  | _ => cases h

theorem not_holds_of_unused {s : Smmu} (h : ∀ i, (s.streams i).used = false)
    {i : Fin maxSwStreams} {config : S2Config} : ¬ Holds s i streamId config :=
  fun hh => absurd ((h i).symm.trans hh.1) Bool.false_ne_true

theorem Booted.ledgerInv (h : Booted s) : LedgerInv s where
  records :=
    ⟨h.identity, h.cleared, fun _ _ _ hh => absurd hh (not_holds_of_unused h.unused),
      fun i _ hi => absurd ((h.unused i).symm.trans hi) Bool.false_ne_true⟩
  bound v := by
    rw [h.unbound v]
    refine iff_of_false Bool.false_ne_true ?_
    rintro ⟨i, id, hh⟩
    exact not_holds_of_unused h.unused hh
  mid p := by
    have hidle := h.idle p
    cases hpc : s.pc p with
    | idle => trivial
    | _ =>
      rw [hpc] at hidle
      cases hidle
  alone p q id hp := by
    rw [midStream_of_isIdle (h.idle p)] at hp
    cases hp
  agree id _ _ w := by
    refine iff_of_false ?_ ?_
    · rintro ⟨i, -, howner, -⟩
      exact h.unowned i howner
    · rintro ⟨i, c, hh, -⟩
      exact not_holds_of_unused h.unused hh

def ActionOk (pr : Probe) (s : Ledgers n) : PtAction n → Prop
  | .runSection p _ => StepOk pr s p (s.pc p)
  | _ => True

theorem LedgerInv.step (hinv : LedgerInv s) (a : PtAction n) (hok : ActionOk pr s a) :
    LedgerInv (step pr s a) := by
  cases a with
  | call p c =>
    unfold Ledgers.step
    simp only
    split
    next hidle =>
      have hfrom := midStream_of_isIdle hidle
      cases c with
      | assignDevice | deassignDevice => exact hinv.goto_idle hfrom rfl trivial
      | deassignVm =>
        simp only [PtCall.entry]
        split
        · exact hinv.goto_idle hfrom rfl trivial
        · exact hinv.goto_idle hfrom rfl trivial
    next => exact hinv
  | runSection p hw => exact hinv.runSection hw p hok
  | smmu e hw =>
    obtain ⟨hsame, hunique⟩ := smmuEvent_holds pr hw e hinv.records.unique
    have hledger (id : BitVec 32) : SameSays s (Ledgers.step pr s (.smmu e hw)) id :=
      ⟨fun _ => Iff.rfl, fun w => owned_congr hsame w⟩
    exact
      { records := hinv.records.of_fewer rfl (fun i id c hh => (hsame i id c).mp hh) hunique
        bound := hinv.bound.of_same rfl hsame
        mid := fun q => (hinv.mid q).congr (fun _ => rfl) fun id _ => hledger id
        alone := hinv.alone
        agree := fun id hreg hnone => (hledger id).agree.mpr (hinv.agree id hreg hnone) }

/--
**The ledgers agree whenever no call is in progress**, in every run in which no call checks a stream
that another pCPU is on and none assigns a stream with an assigned record while the gate is closed.
-/
theorem ledgers_agree {n : Nat} {pr : Probe} {s : Ledgers n} (hboot : Booted s)
    (as : List (PtAction n)) (hok : Run.Along (step pr) (ActionOk pr) s as)
    (hidle : ∀ p, isIdle ((Run.exec (step pr) s as).pc p) = true) :
    (∀ streamId, Registered (Run.exec (step pr) s as) streamId → ∀ v,
        Named (Run.exec (step pr) s as) streamId v ↔
          Owned (Run.exec (step pr) s as).broker streamId v) ∧
      BoundOk (Run.exec (step pr) s as).broker := by
  have hinv : LedgerInv (Run.exec (step pr) s as) :=
    Run.inv_exec (fun _ a h hok => h.step a hok) hboot.ledgerInv hok
  refine ⟨fun id hreg => hinv.agree id hreg fun p => ?_, hinv.bound⟩
  rw [midStream_of_isIdle (hidle p)]
  exact nofun

/-! ### Runs with two pCPUs -/

instance Named.decidable (s : Ledgers n) (streamId : BitVec 32) (w : Nat) :
    Decidable (Named s streamId w) :=
  inferInstanceAs (Decidable (∃ i, _ = some i ∧ _ ∧ _))

instance StepOk.decidable (pr : Probe) (s : Ledgers n) (p : Fin n) :
    ∀ pc, Decidable (StepOk pr s p pc)
  | .assignCheck _ _ _ | .deassignCheck _ _ _ => inferInstanceAs (Decidable (∀ q, q ≠ p → _))
  | .assignBind _ streamId => inferInstanceAs (Decidable (¬ WouldDrop pr s.broker streamId))
  | .idle _ | .assignPublish _ _ | .assignRollback _ _ | .deassignRevoke _ _ _
  | .deassignPublish _ _ _ | .sweep _ _ => isTrue trivial

instance ActionOk.decidable (pr : Probe) (s : Ledgers n) : ∀ a, Decidable (ActionOk pr s a)
  | .runSection p _ => inferInstanceAs (Decidable (StepOk pr s p (s.pc p)))
  | .call _ _ | .smmu _ _ => isTrue trivial

/-- One VM with a domain, and two registered devices of the host with streams 3 and 5. -/
def smallLedgers : Ledgers 2 where
  broker :=
    { smmu := smallBoot
      domains := fun v => if v = firstVm then ⟨smallConfig, true, false⟩ else Domain.zero }
  devices i := ⟨if i.val = 0 then 3#32 else 5#32, invalidVmid, invalidVmid, .host,
    decide (i.val < 2), true⟩
  hasIommu v := decide (v = firstVm)
  pc _ := .idle 0

theorem booted_smallLedgers : Booted smallLedgers where
  idle _ := rfl
  unowned _ := by
    show PtOwner.host ≠ .vm
    decide
  unused _ := rfl
  identity := by
    unfold IdentityOk
    decide +kernel
  cleared := by decide +kernel
  unbound := by decide +kernel

/-- A pCPU makes a call and goes on for some sections. -/
def callAndRun (p : Fin 2) (c : PtCall) (sections : Nat) : List (PtAction 2) :=
  .call p c :: List.replicate sections (.runSection p (obliging 0#32))

def assignThree (p : Fin 2) (sections : Nat) : List (PtAction 2) :=
  callAndRun p (.assignDevice firstVm 3#32 false) sections

def deassignThree (p : Fin 2) (sections : Nat) : List (PtAction 2) :=
  callAndRun p (.deassignDevice firstVm 3#32) sections

/-- Stream 3 is assigned, and while one pCPU takes it back the other one assigns stream 5. -/
def handover : List (PtAction 2) :=
  assignThree 0 3 ++ [.smmu (.gate false) (obliging 0#32), .smmu (.gate true) (obliging 0#32),
    .call 0 (.deassignDevice firstVm 3#32), .call 1 (.assignDevice firstVm 5#32 false)] ++
    (List.replicate 3 [.runSection 0 (obliging 0#32), .runSection 1 (obliging 0#32)]).flatten

theorem ledgers_agree_handover :
    let s := Run.exec (step smallProbe) smallLedgers handover
    Owned s.broker 5#32 0 ∧ ¬ Owned s.broker 3#32 0 ∧ BoundOk s.broker := by
  obtain ⟨hagree, hbound⟩ := @ledgers_agree _ smallProbe _ booted_smallLedgers handover
    (by decide +kernel) (by decide +kernel)
  refine ⟨(hagree 5#32 ?_ 0).mp (by decide +kernel), fun howned => ?_, hbound⟩
  · exact ⟨⟨1, by decide⟩, by decide +kernel⟩
  · exact absurd ((hagree 3#32 ⟨⟨0, by decide⟩, by decide +kernel⟩ 0).mpr howned) (by decide +kernel)

/--
**The ledgers come to disagree in two ways.**  Assigned again by its owner while the gate is closed,
a stream loses its record, but the table still names the VM and the domain still counts as bound.
And if a deassignment has its SMMU call behind it when the VM assigns the stream again, its late
publication gives the device to the host while the SMMU has it assigned to the VM.
-/
theorem ledgers_disagree :
    (let s := Run.exec (step smallProbe) smallLedgers
      (assignThree 0 3 ++ [.smmu (.gate false) (obliging 0#32)] ++ assignThree 0 2)
    (∀ p, isIdle (s.pc p) = true) ∧ Named s 3#32 0 ∧ ¬ Owned s.broker 3#32 0 ∧
      ¬ BoundOk s.broker) ∧
    (let s := Run.exec (step smallProbe) smallLedgers
      (assignThree 0 3 ++ deassignThree 0 2 ++ assignThree 1 3 ++
        [.runSection 0 (obliging 0#32)])
    (∀ p, isIdle (s.pc p) = true) ∧ ¬ Named s 3#32 0 ∧ Owned s.broker 3#32 0) := by
  decide +kernel

/-! ### What holds in every run -/

theorem records_step {s : Ledgers n} (h : RecordsOk s.broker) (a : PtAction n) :
    RecordsOk (step pr s a).broker := by
  cases a with
  | call p c =>
    unfold step
    dsimp only
    split <;> exact h
  | runSection p hw =>
    unfold step runSection
    dsimp only
    split
    next => exact h
    next => split_ifs <;> exact h
    next => exact h.assignStream hw _ _
    next => split <;> exact h
    next => exact h.unassignStream hw _ _
    next => split_ifs <;> exact h
    next => exact h.unassignStream hw _ _
    next => split <;> exact h
    next => split_ifs <;> exact h
  | smmu e hw =>
    obtain ⟨hsame, hunique⟩ := smmuEvent_holds pr hw e h.unique
    exact h.of_fewer rfl (fun i id c hh => (hsame i id c).mp hh) hunique

/-- **No stream is ever attached for two VMs**, also where the ledgers disagree. -/
theorem stream_has_one_owner {n : Nat} {pr : Probe} {s : Ledgers n} (hboot : Booted s)
    (as : List (PtAction n)) {streamId : BitVec 32} {v w : Nat}
    (hv : Owned (Run.exec (step pr) s as).broker streamId v)
    (hw : Owned (Run.exec (step pr) s as).broker streamId w) : v = w := by
  have hrecords : RecordsOk (Run.exec (step pr) s as).broker :=
    Run.inv_always (fun s : Ledgers n => RecordsOk s.broker) (fun _ a h => records_step h a) as
      hboot.ledgerInv.records
  obtain ⟨i, c, hi, rfl⟩ := hv
  obtain ⟨j, c', hj, rfl⟩ := hw
  obtain rfl : i = j := hrecords.unique i j hi.1 hj.1 (hi.2.2.1.trans hj.2.2.1.symm)
  rw [← hi.2.2.2, hj.2.2.2]

/-- After the publication that comes too late. -/
theorem stream_has_one_owner_late :
    let s := Run.exec (step smallProbe) smallLedgers (assignThree 0 3 ++ deassignThree 0 2 ++
      assignThree 1 3 ++ [.runSection 0 (obliging 0#32)])
    Owned s.broker 3#32 0 ∧ ¬ Owned s.broker 3#32 1 := by
  intro s
  have hzero : Owned s.broker 3#32 0 := by decide +kernel
  exact ⟨hzero, fun hone => absurd (stream_has_one_owner booted_smallLedgers _ hzero hone) (by decide)⟩

end BeauOs.Iommu.Ledgers
