/-
The command queue of the guest's SMMU.

The worker lets go of the lock between its snapshot and its commit and relies on the generation to
notice that the queue was reconfigured.  The generation is not moved by a rejected access, although
that disables the queue and raises a global error; nor by a write of `GERRORN`, which can activate
an error; nor by a write of `CMDQ_PROD`, which can take back the command being fetched.  A commit
that follows one of these advances CONS over a disabled queue, over an error, or past PROD.

So the discipline holds in the runs where, while a snapshot of the current generation is
outstanding, the guest makes no access of these three kinds (`VsmmuState.Calm`); the counter of
generations must also not wrap.  That no submitted command is forgotten holds in every run
(`PendingOk`): a queue that is enabled and not empty is pending unless a command error, recorded in
CONS and still active, holds it up.
-/
import BeauOs.Guest.Vsmmu
import BeauOs.Lib.Run

namespace BeauOs.Guest

/-! ### Words -/

theorem and_ringMask_eq {low : BitVec 32} {n : Nat} (h : low &&& ~~~ringMask n = 0#32) :
    low &&& ringMask n = low := by
  have hsplit : low = (low &&& ringMask n) ||| (low &&& ~~~ringMask n) := by
    ext i hi
    simp only [BitVec.getElem_or, BitVec.getElem_and, BitVec.getElem_not]
    cases low[i] <;> cases (ringMask n)[i] <;> rfl
  rw [h, BitVec.or_zero] at hsplit
  exact hsplit.symm

/-- The error field of CONS lies above the pointers of every queue a guest may have. -/
theorem ringMask_disjoint {n : Nat} (h : n ≤ maxQueueLog2) : ringMask n &&& cmdqConsErrMask = 0#32 := by
  have hall : ∀ n < 7, ringMask n &&& cmdqConsErrMask = 0#32 := by decide
  exact hall n (Nat.lt_succ_of_le h)

theorem setError_and_ringMask {cons cerror : BitVec 32} {n : Nat} (h : n ≤ maxQueueLog2)
    (hcerror : cerror <<< 24 &&& ~~~cmdqConsErrMask = 0#32) :
    ((cons &&& ~~~cmdqConsErrMask) ||| (cerror <<< 24)) &&& ringMask n = cons &&& ringMask n := by
  have hmask := ringMask_disjoint h
  ext i hi
  have hm := congrArg (fun w => w[i]) hmask
  have hc := congrArg (fun w => w[i]) hcerror
  simp only [BitVec.getElem_and, BitVec.getElem_not, BitVec.getElem_or, BitVec.getElem_zero] at hm hc ⊢
  revert hm hc
  cases cons[i] <;> cases (ringMask n)[i] <;> cases cmdqConsErrMask[i] <;>
    cases (cerror <<< 24)[i] <;> decide

/-! ### What a guest access does to the queue -/

namespace Vsmmu

variable {cfg : VsmmuConfig} {v v' : Vsmmu}

/-- The registers that the command queue depends on, the generation apart. -/
structure SameQueue (v v' : Vsmmu) : Prop where
  cr0 : v'.cr0 = v.cr0
  cmdqBase : v'.cmdqBase = v.cmdqBase
  cmdqProd : v'.cmdqProd = v.cmdqProd
  cmdqCons : v'.cmdqCons = v.cmdqCons
  gerror : v'.gerror = v.gerror
  gerrorn : v'.gerrorn = v.gerrorn
  workerPending : v'.workerPending = v.workerPending

theorem SameQueue.rfl : SameQueue v v :=
  ⟨Eq.refl _, Eq.refl _, Eq.refl _, Eq.refl _, Eq.refl _, Eq.refl _, Eq.refl _⟩

/-- The values that `vsmmu_write_locked` takes. -/
def WriteOk (cfg : VsmmuConfig) (v : Vsmmu) (value : BitVec 64) : VsmmuReg → Prop
  | .cr0 =>
    value.setWidth 32 &&& ~~~cr0Allowed = 0#32 ∧
      (value.setWidth 32 &&& cr0Cmdqen ≠ 0#32 → v.cmdqValid cfg = true) ∧
      (value.setWidth 32 &&& cr0Evtqen ≠ 0#32 → v.evtqValid cfg = true) ∧
      (value.setWidth 32 &&& cr0Smmuen ≠ 0#32 → v.strtabValid cfg = true)
  | .cr1 => v.cr0 &&& cr0Smmuen = 0#32 ∧ value.setWidth 32 &&& ~~~cr1Allowed = 0#32
  | .cr2 => v.cr0 &&& cr0Smmuen = 0#32 ∧ value.setWidth 32 &&& ~~~cr2Allowed = 0#32
  | .gbpa =>
    value.setWidth 32 &&& gbpaUpdate ≠ 0#32 ∧
      value.setWidth 32 &&& ~~~(gbpaUpdate ||| gbpaAbort) = 0#32
  | .irqCtrl => value.setWidth 32 &&& ~~~irqAllowed = 0#32
  | .gerrorn => value.setWidth 32 &&& ~~~gerrorAllowed = 0#32
  | .strtabBase | .strtabBaseCfg => v.cr0 &&& cr0Smmuen = 0#32
  | .cmdqBase => v.cr0 &&& cr0Cmdqen = 0#32
  | .cmdqProd =>
    (v.cmdqLog2 ≠ 0 ∧ v.cmdqLog2 ≤ cfg.cmdqLog2) ∧
      value.setWidth 32 &&& ~~~ringMask v.cmdqLog2 = 0#32
  | .cmdqCons =>
    v.cr0 &&& cr0Cmdqen = 0#32 ∧ (v.cmdqLog2 ≠ 0 ∧ v.cmdqLog2 ≤ cfg.cmdqLog2) ∧
      value.setWidth 32 &&& ~~~ringMask v.cmdqLog2 = 0#32
  | .evtqBase | .evtqProd => v.cr0 &&& cr0Evtqen = 0#32
  | .evtqCons =>
    (v.evtqLog2 ≠ 0 ∧ v.evtqLog2 ≤ cfg.evtqLog2) ∧
      value &&& ~~~((ringMask v.evtqLog2).setWidth 64 ||| (1#64 <<< 31)) = 0#64
  | .idr0 | .idr1 | .idr2 | .idr3 | .idr4 | .idr5 | .iidr | .aidr | .cr0Ack | .statusr
  | .irqCtrlAck | .gerror => False

instance WriteOk.decidable (cfg : VsmmuConfig) (v : Vsmmu) (value : BitVec 64) :
    ∀ reg, Decidable (v.WriteOk cfg value reg)
  | .cr0 => inferInstanceAs (Decidable (_ ∧ _))
  | .cr1 | .cr2 | .gbpa | .cmdqProd | .cmdqCons | .evtqCons => inferInstanceAs (Decidable (_ ∧ _))
  | .irqCtrl | .gerrorn | .strtabBase | .strtabBaseCfg | .cmdqBase | .evtqBase | .evtqProd =>
    inferInstanceAs (Decidable (_ = _))
  | .idr0 | .idr1 | .idr2 | .idr3 | .idr4 | .idr5 | .iidr | .aidr | .cr0Ack | .statusr
  | .irqCtrlAck | .gerror => inferInstanceAs (Decidable False)

/-- The registers and values that `vsmmu_read_locked` and `vsmmu_write_locked` take. -/
def RegOk (cfg : VsmmuConfig) (v : Vsmmu) : Option VsmmuReg → Option (BitVec 64) → Prop
  | none, _ => False
  | some _, none => True
  | some reg, some value => v.WriteOk cfg value reg

instance RegOk.decidable (cfg : VsmmuConfig) (v : Vsmmu) :
    ∀ reg write, Decidable (v.RegOk cfg reg write)
  | none, _ => inferInstanceAs (Decidable False)
  | some _, none => inferInstanceAs (Decidable True)
  | some reg, some value => WriteOk.decidable cfg v value reg

/-- An access that is not answered by failing closed. -/
def Accepts (cfg : VsmmuConfig) (v : Vsmmu) (access : Access) : Prop :=
  accessWidthValid access.offset access.size = true ∧
    v.RegOk cfg (VsmmuReg.decode access.offset) access.write

instance Accepts.decidable (cfg : VsmmuConfig) (v : Vsmmu) (access : Access) :
    Decidable (v.Accepts cfg access) :=
  inferInstanceAs (Decidable (_ ∧ _))

/-- **What an access can do**, as far as the command queue is concerned. -/
inductive GuestStep (cfg : VsmmuConfig) (access : Access) (v : Vsmmu) : Vsmmu → Prop
  | keep {v' : Vsmmu} (same : SameQueue v v') (hgen : v'.generation = v.generation) :
      GuestStep cfg access v v'
  | bumped {v' : Vsmmu} (same : SameQueue v v')
      (hgen : v'.generation = (v.generation + 1) % 2 ^ 64) : GuestStep cfg access v v'
  | cr0 (low : BitVec 32) :
      GuestStep cfg access v (bump
        { v with
          cr0 := low
          workerPending :=
            decide (low &&& cr0Cmdqen ≠ 0#32) && decide (v.cmdqProd ≠ v.cmdqCons) })
  | base (value : BitVec 64) (hoff : v.cr0 &&& cr0Cmdqen = 0#32) :
      GuestStep cfg access v (bump { v with cmdqBase := value })
  | prod (value : BitVec 64) (hreg : VsmmuReg.decode access.offset = some .cmdqProd)
      (hwrite : access.write = some value)
      (hmask : value.setWidth 32 &&& ~~~ringMask v.cmdqLog2 = 0#32) :
      GuestStep cfg access v { v with cmdqProd := value.setWidth 32, workerPending := true }
  | cons (low : BitVec 32) (hoff : v.cr0 &&& cr0Cmdqen = 0#32) :
      GuestStep cfg access v { v with cmdqCons := low }
  | gerrorn (value : BitVec 64) (hreg : VsmmuReg.decode access.offset = some .gerrorn)
      (hwrite : access.write = some value) (pending : Bool)
      (hpending : pending = v.workerPending ∨ pending = true)
      (hack : v.cmdqCons &&& cmdqConsErrMask ≠ 0#32 →
        (v.gerror ^^^ value.setWidth 32) &&& gerrorAllowed &&& gerrorCmdqErr = 0#32 →
        pending = true) :
      GuestStep cfg access v { v with gerrorn := value.setWidth 32, workerPending := pending }
  | fail (hrej : ¬ v.Accepts cfg access) : GuestStep cfg access v v.failControl

theorem guestStep_write {access : Access} {reg : VsmmuReg} {value : BitVec 64}
    (hreg : VsmmuReg.decode access.offset = some reg) (hwrite : access.write = some value) :
    GuestStep cfg access v ((v.writeLocked cfg value reg).getD (v.failControl, false)).1 := by
  have hrej : ¬ v.WriteOk cfg value reg → GuestStep cfg access v v.failControl := by
    intro hno
    refine .fail (fun hacc => hno ?_)
    have hok := hacc.2
    rw [hreg, hwrite] at hok
    exact hok
  cases reg with
  | idr0 | idr1 | idr2 | idr3 | idr4 | idr5 | iidr | aidr | cr0Ack | statusr | irqCtrlAck | gerror =>
    exact hrej id
  | cr0 =>
    simp only [writeLocked]
    split
    next h => exact hrej (fun hok => h hok.1)
    split
    next h =>
      refine hrej (fun hok => ?_)
      rcases h with ⟨hen, hbad⟩ | ⟨hen, hbad⟩ | ⟨hen, hbad⟩
      · exact absurd ((hok.2.1 hen).symm.trans hbad) (by decide)
      · exact absurd ((hok.2.2.1 hen).symm.trans hbad) (by decide)
      · exact absurd ((hok.2.2.2 hen).symm.trans hbad) (by decide)
    next => exact .cr0 _
  | cr1 | cr2 =>
    simp only [writeLocked]
    split
    next h => exact hrej (fun hok => h.elim (fun h => h hok.1) (fun h => h hok.2))
    next => exact .keep ⟨rfl, rfl, rfl, rfl, rfl, rfl, rfl⟩ rfl
  | gbpa =>
    simp only [writeLocked]
    split
    next h => exact hrej (fun hok => h.elim hok.1 (fun h => h hok.2))
    next => exact .keep ⟨rfl, rfl, rfl, rfl, rfl, rfl, rfl⟩ rfl
  | irqCtrl | evtqProd =>
    simp only [writeLocked]
    split
    next h => exact hrej h
    next => exact .keep ⟨rfl, rfl, rfl, rfl, rfl, rfl, rfl⟩ rfl
  | gerrorn =>
    simp only [writeLocked]
    split
    next h => exact hrej h
    next =>
      split
      next => exact .gerrorn value hreg hwrite true (.inr rfl) (fun _ _ => rfl)
      next h =>
        exact .gerrorn value hreg hwrite v.workerPending (.inl rfl)
          (fun herr hack => absurd ⟨herr, hack⟩ h)
  | strtabBase | strtabBaseCfg | evtqBase =>
    simp only [writeLocked]
    split
    next h => exact hrej h
    next => exact .bumped ⟨rfl, rfl, rfl, rfl, rfl, rfl, rfl⟩ rfl
  | cmdqBase =>
    simp only [writeLocked]
    split
    next h => exact hrej h
    next h => exact .base value (not_not.mp h)
  | cmdqProd =>
    simp only [writeLocked]
    split
    next h => exact hrej (fun hok => by have := hok.1; omega)
    next =>
      split
      next h => exact hrej (fun hok => h hok.2)
      next h => exact .prod value hreg hwrite (not_not.mp h)
  | cmdqCons =>
    simp only [writeLocked]
    split
    next h => exact hrej (fun hok => h hok.1)
    next hoff =>
      split
      next h => exact hrej (fun hok => by have := hok.2.1; omega)
      next =>
        split
        next h => exact hrej (fun hok => h hok.2.2)
        next => exact .cons _ (not_not.mp hoff)
  | evtqCons =>
    simp only [writeLocked]
    split
    next h => exact hrej (fun hok => by have := hok.1; omega)
    next =>
      split
      next h => exact hrej (fun hok => h hok.2)
      next => exact .keep ⟨rfl, rfl, rfl, rfl, rfl, rfl, rfl⟩ rfl

theorem guestStep (cfg : VsmmuConfig) (v : Vsmmu) (access : Access) :
    GuestStep cfg access v (v.mmioHandler cfg access).1 := by
  unfold mmioHandler
  by_cases hwidth : accessWidthValid access.offset access.size = false
  · rw [if_pos hwidth]
    exact .fail (fun h => absurd (h.1.symm.trans hwidth) (by decide))
  rw [if_neg hwidth]
  cases hreg : VsmmuReg.decode access.offset with
  | none =>
    refine .fail (fun hacc => ?_)
    have hok := hacc.2
    rw [hreg] at hok
    exact hok
  | some reg =>
    cases hwrite : access.write with
    | some value => exact guestStep_write hreg hwrite
    | none =>
      -- every register can be read
      obtain ⟨value, hvalue⟩ : ∃ value, v.readLocked cfg reg = some value := by
        cases reg <;> exact ⟨_, rfl⟩
      simp only [hvalue]
      exact .keep SameQueue.rfl rfl

theorem failControl_cr0 (v : Vsmmu) : v.failControl.cr0 = 0#32 := by
  unfold failControl raiseError
  split <;> rfl

theorem failControl_generation (v : Vsmmu) : v.failControl.generation = v.generation := by
  unfold failControl raiseError
  split <;> rfl

/-! ### No submitted command is forgotten -/

/-- An enabled queue with commands in it is pending, unless a command error holds it up. -/
def PendingOk (v : Vsmmu) : Prop :=
  v.cr0 &&& cr0Cmdqen ≠ 0#32 → v.consPointer ≠ v.prodPointer →
    v.workerPending = true ∨
      (v.cmdqCons &&& cmdqConsErrMask ≠ 0#32 ∧ v.activeErrors &&& gerrorCmdqErr ≠ 0#32)

theorem SameQueue.pendingOk (same : SameQueue v v') (h : v.PendingOk) : v'.PendingOk := by
  unfold PendingOk consPointer prodPointer activeErrors cmdqLog2 at h ⊢
  rw [same.cr0, same.cmdqCons, same.cmdqProd, same.cmdqBase, same.workerPending, same.gerror,
    same.gerrorn]
  exact h

theorem GuestStep.pendingOk {access : Access} (hstep : GuestStep cfg access v v')
    (h : v.PendingOk) : v'.PendingOk := by
  cases hstep with
  | keep same hgen | bumped same hgen => exact same.pendingOk h
  | cr0 =>
    intro hen hne
    refine .inl (Bool.and_eq_true_iff.mpr ⟨decide_eq_true hen, decide_eq_true ?_⟩)
    intro heq
    exact hne (congrArg (fun w => w &&& ringMask v.cmdqLog2) heq).symm
  | base _ hoff => exact fun hen => absurd hoff hen
  | prod => exact fun _ _ => .inl rfl
  | cons low hoff => exact fun hen => absurd hoff hen
  | gerrorn value _ _ _ hpending hack =>
    intro hen hne
    rcases hpending with rfl | rfl
    · rcases h hen hne with hset | ⟨herr, -⟩
      · exact .inl hset
      · -- the error is acknowledged or still there
        by_cases hact : (v.gerror ^^^ value.setWidth 32) &&& gerrorAllowed &&& gerrorCmdqErr = 0#32
        · exact .inl (hack herr hact)
        · exact .inr ⟨herr, hact⟩
    · exact .inl rfl
  | fail =>
    intro hen
    rw [failControl_cr0] at hen
    exact absurd rfl hen

theorem raiseError_active (v : Vsmmu) :
    (v.raiseError gerrorCmdqErr).activeErrors &&& gerrorCmdqErr ≠ 0#32 := by
  unfold raiseError
  split
  next h =>
    intro h'
    have hbit := congrArg (fun w => w.getLsbD 0) h
    have hbit' := congrArg (fun w => w.getLsbD 0) h'
    simp [activeErrors, gerrorAllowed, gerrorCmdqErr, gerrorSfmErr] at hbit hbit'
    rw [hbit] at hbit'
    simp at hbit'
  next h => exact h

theorem setError_and_errMask {cons cerror : BitVec 32}
    (hcerror : cerror <<< 24 &&& ~~~cmdqConsErrMask = 0#32) :
    ((cons &&& ~~~cmdqConsErrMask) ||| (cerror <<< 24)) &&& cmdqConsErrMask = cerror <<< 24 := by
  ext i hi
  have hc := congrArg (fun w => w[i]) hcerror
  simp only [BitVec.getElem_and, BitVec.getElem_not, BitVec.getElem_or, BitVec.getElem_zero] at hc ⊢
  revert hc
  cases cons[i] <;> cases cmdqConsErrMask[i] <;> cases (cerror <<< 24)[i] <;> decide

theorem raiseError_cmdqCons (v : Vsmmu) (error : BitVec 32) :
    (v.raiseError error).cmdqCons = v.cmdqCons ∧ (v.raiseError error).cmdqBase = v.cmdqBase := by
  unfold raiseError
  split <;> exact ⟨rfl, rfl⟩

/-- A rejected command is recorded in CONS and in an active error. -/
theorem setCerror_pendingOk {cerror : BitVec 32}
    (hcerror : cerror <<< 24 &&& ~~~cmdqConsErrMask = 0#32) (hne : cerror <<< 24 ≠ 0#32) :
    (v.setCerror cerror).PendingOk := by
  intro _ _
  refine .inr ⟨?_, raiseError_active _⟩
  unfold setCerror
  rw [(raiseError_cmdqCons _ _).1]
  show ((v.cmdqCons &&& ~~~cmdqConsErrMask) ||| (cerror <<< 24)) &&& cmdqConsErrMask ≠ 0#32
  rw [setError_and_errMask hcerror]
  exact hne

variable {snapshot : Snapshot}

theorem commit_pendingOk {fetched : Option Command} (h : v.PendingOk) :
    (v.commitCommand snapshot fetched).1.PendingOk := by
  unfold commitCommand
  split
  next =>
    cases fetched with
    | none => exact setCerror_pendingOk (by decide) (by decide)
    | some command =>
      simp only
      split
      next => exact setCerror_pendingOk (by decide) (by decide)
      next =>
        intro _ hne
        refine .inl (decide_eq_true fun heq => hne ?_)
        show ((v.consPointer + 1#32) &&& ringMask v.cmdqLog2) &&& ringMask v.cmdqLog2 =
          v.prodPointer
        rw [BitVec.and_assoc, BitVec.and_self]
        exact heq
  next => exact h

/-! ### The outstanding snapshot -/

/-- What a snapshot of the current generation says about the queue as it is now. -/
structure Current (v : Vsmmu) (snapshot : Snapshot) : Prop where
  gpa : snapshot.gpa = v.entryGpa snapshot.cons
  cons : v.consPointer = snapshot.cons
  prod : v.prodPointer ≠ snapshot.cons
  enabled : v.cr0 &&& cr0Cmdqen ≠ 0#32
  clean : v.activeErrors = 0#32
  size : v.cmdqLog2 ≤ maxQueueLog2

/-- A snapshot is of an earlier generation, or it still describes the queue. -/
def SnapshotOk (v : Vsmmu) (snapshot : Snapshot) : Prop :=
  snapshot.generation ≤ v.generation ∧
    (snapshot.generation = v.generation → v.Current snapshot)

theorem cmdqLog2_of_cmdqValid (h : v.cmdqValid cfg = true) : v.cmdqLog2 ≤ maxQueueLog2 := by
  unfold cmdqValid queueValid at h
  simp only at h
  split at h
  · cases h
  next hno =>
    have hle : v.cmdqLog2 ≤ cfg.cmdqLog2 := by
      unfold cmdqLog2
      omega
    exact Nat.le_trans hle cfg.cmdqLog2_le

theorem snapshotOk_of_snapshotCommand (h : v.snapshotCommand cfg = some snapshot) :
    v.SnapshotOk snapshot := by
  unfold snapshotCommand at h
  split at h
  next hcond =>
    obtain ⟨hen, hclean, hvalid, hne⟩ := hcond
    cases h
    exact ⟨Nat.le_refl _, fun _ =>
      ⟨rfl, rfl, fun h => hne h.symm, hen, hclean, cmdqLog2_of_cmdqValid hvalid⟩⟩
  next => cases h

theorem SameQueue.current (same : SameQueue v v') (h : v.Current snapshot) :
    v'.Current snapshot := by
  obtain ⟨hgpa, hcons, hprod, hen, hclean, hsize⟩ := h
  constructor
  · rw [hgpa]
    unfold entryGpa cmdqLog2
    rw [same.cmdqBase]
  · rw [← hcons]
    unfold consPointer cmdqLog2
    rw [same.cmdqBase, same.cmdqCons]
  · unfold prodPointer cmdqLog2 at hprod ⊢
    rw [same.cmdqBase, same.cmdqProd]
    exact hprod
  · rw [same.cr0]
    exact hen
  · unfold activeErrors at hclean ⊢
    rw [same.gerror, same.gerrorn]
    exact hclean
  · unfold cmdqLog2 at hsize ⊢
    rw [same.cmdqBase]
    exact hsize

/-- Writing this to `GERRORN` leaves no error active. -/
def KeepsClean (v : Vsmmu) : Option (BitVec 64) → Prop
  | some value => (v.gerror ^^^ value.setWidth 32) &&& gerrorAllowed = 0#32
  | none => True

/-- Writing this to `CMDQ_PROD` does not take back the command being fetched. -/
def KeepsCommand (snapshot : Snapshot) : Option (BitVec 64) → Prop
  | some value => value.setWidth 32 ≠ snapshot.cons
  | none => True

instance KeepsClean.decidable (v : Vsmmu) : ∀ write, Decidable (v.KeepsClean write)
  | some _ => inferInstanceAs (Decidable (_ = _))
  | none => inferInstanceAs (Decidable True)

instance KeepsCommand.decidable (snapshot : Snapshot) :
    ∀ write, Decidable (KeepsCommand snapshot write)
  | some _ => inferInstanceAs (Decidable (_ ≠ _))
  | none => inferInstanceAs (Decidable True)

/--
An access that leaves the queue alone under an outstanding snapshot: it is accepted, it activates no
error, and it does not take back the command being fetched.
-/
def Spares (cfg : VsmmuConfig) (v : Vsmmu) (access : Access) (snapshot : Snapshot) : Prop :=
  v.Accepts cfg access ∧
    (VsmmuReg.decode access.offset = some .gerrorn → v.KeepsClean access.write) ∧
    (VsmmuReg.decode access.offset = some .cmdqProd → KeepsCommand snapshot access.write)

instance Spares.decidable (cfg : VsmmuConfig) (v : Vsmmu) (access : Access) (snapshot : Snapshot) :
    Decidable (v.Spares cfg access snapshot) :=
  inferInstanceAs (Decidable (_ ∧ _ ∧ _))

theorem SnapshotOk.guestStep {access : Access} (hstep : GuestStep cfg access v v')
    (hwrap : v.generation + 1 < 2 ^ 64)
    (hspare : snapshot.generation = v.generation → v.Spares cfg access snapshot)
    (h : v.SnapshotOk snapshot) : v'.SnapshotOk snapshot := by
  obtain ⟨hle, hcur⟩ := h
  have hbump : (v.generation + 1) % 2 ^ 64 = v.generation + 1 := Nat.mod_eq_of_lt hwrap
  -- a step to the next generation makes the snapshot an old one
  have hold : ∀ w : Vsmmu, w.generation = (v.generation + 1) % 2 ^ 64 → w.SnapshotOk snapshot := by
    intro w hgen
    rw [hbump] at hgen
    exact ⟨by omega, fun heq => absurd heq (by omega)⟩
  cases hstep with
  | keep same => exact ⟨by omega, fun heq => same.current (hcur (by omega))⟩
  | bumped _ hgen => exact hold _ hgen
  | cr0 | base => exact hold _ rfl
  | prod value hreg hwrite hmask =>
    refine ⟨hle, fun heq => ?_⟩
    obtain ⟨hgpa, hcons, -, hen, hclean, hsize⟩ := hcur heq
    refine ⟨hgpa, hcons, ?_, hen, hclean, hsize⟩
    show value.setWidth 32 &&& ringMask v.cmdqLog2 ≠ snapshot.cons
    rw [and_ringMask_eq hmask]
    have hkeep := (hspare heq).2.2 hreg
    rw [hwrite] at hkeep
    exact hkeep
  | cons low hoff => exact ⟨hle, fun heq => absurd hoff (hcur heq).enabled⟩
  | gerrorn _ hreg hwrite =>
    refine ⟨hle, fun heq => ?_⟩
    obtain ⟨hgpa, hcons, hprod, hen, -, hsize⟩ := hcur heq
    have hkeep := (hspare heq).2.1 hreg
    rw [hwrite] at hkeep
    exact ⟨hgpa, hcons, hprod, hen, hkeep, hsize⟩
  | fail hrej =>
    rw [SnapshotOk, failControl_generation]
    exact ⟨hle, fun heq => absurd (hspare heq).1 hrej⟩

end Vsmmu

/-! ### The worker -/

def WorkerPc.snapshot : WorkerPc → Option Snapshot
  | .fetch _ snapshot | .commit _ snapshot _ => some snapshot
  | .idle | .loop _ => none

namespace VsmmuState

variable {cfg : VsmmuConfig} {s : VsmmuState}

/-- An access that spares the snapshot outstanding, if it is of the current generation, and does
not wrap the generation. -/
def Calm (cfg : VsmmuConfig) (s : VsmmuState) : VsmmuAction → Prop
  | .guest access =>
    s.dev.generation + 1 < 2 ^ 64 ∧
      ∀ snapshot ∈ s.worker.snapshot, snapshot.generation = s.dev.generation →
        s.dev.Spares cfg access snapshot
  | .refreshIrq | .worker _ => True

instance Calm.decidable (cfg : VsmmuConfig) (s : VsmmuState) : ∀ a, Decidable (s.Calm cfg a)
  | .guest _ => inferInstanceAs (Decidable (_ ∧ ∀ snapshot ∈ s.worker.snapshot, _))
  | .refreshIrq | .worker _ => inferInstanceAs (Decidable True)

structure Inv (s : VsmmuState) : Prop where
  pending : s.dev.PendingOk
  snapshot : ∀ snapshot ∈ s.worker.snapshot, s.dev.SnapshotOk snapshot

theorem Inv.boot : VsmmuState.boot.Inv where
  pending := fun hen => absurd rfl hen
  snapshot := nofun

theorem Inv.workerStep (hs : s.Inv) (memory : BitVec 64 → Option Command) :
    (s.workerStep cfg memory).Inv := by
  unfold VsmmuState.workerStep
  cases hpc : s.worker with
  | idle => exact ⟨hs.pending, nofun⟩
  | loop =>
    simp only
    split
    · cases hsnap : s.dev.snapshotCommand cfg with
      | none => exact ⟨hs.pending, nofun⟩
      | some snapshot =>
        refine ⟨hs.pending, fun _ h => ?_⟩
        cases h
        exact Vsmmu.snapshotOk_of_snapshotCommand hsnap
    · exact ⟨hs.pending, nofun⟩
  | fetch =>
    refine ⟨hs.pending, fun snapshot' h => hs.snapshot snapshot' ?_⟩
    rw [hpc]
    exact h
  | commit =>
    simp only
    split <;> exact ⟨Vsmmu.commit_pendingOk hs.pending, nofun⟩

theorem Inv.step (s : VsmmuState) (a : VsmmuAction) (hs : s.Inv) (ha : s.Calm cfg a) :
    (s.step cfg a).Inv := by
  cases a with
  | guest access =>
    have hstep := Vsmmu.guestStep cfg s.dev access
    refine ⟨hstep.pendingOk hs.pending, fun snapshot h => ?_⟩
    exact (hs.snapshot snapshot h).guestStep hstep ha.1 (ha.2 snapshot h)
  | refreshIrq =>
    have same : Vsmmu.SameQueue s.dev s.dev.refreshIrq := ⟨rfl, rfl, rfl, rfl, rfl, rfl, rfl⟩
    refine ⟨same.pendingOk hs.pending, fun snapshot h => ?_⟩
    exact ⟨(hs.snapshot snapshot h).1, fun heq => same.current ((hs.snapshot snapshot h).2 heq)⟩
  | worker memory => exact hs.workerStep memory

/-! ### How CONS advances -/

variable {snapshot : Snapshot} {fetched : Option Command}

/-- In the run, the last step of the worker has fetched this from guest memory for the snapshot. -/
def LastFetched (cfg : VsmmuConfig) (as : List VsmmuAction) (count : Nat) (snapshot : Snapshot)
    (fetched : Option Command) : Prop :=
  ∃ before memory after, as = before ++ .worker memory :: after ∧
    (∀ memory', .worker memory' ∉ after) ∧
    (Run.exec (VsmmuState.step cfg) boot before).worker = .fetch count snapshot ∧
    memory snapshot.gpa = fetched

/-- What may be said of a step that advances CONS after the run `as`. -/
structure Disciplined (cfg : VsmmuConfig) (as : List VsmmuAction) (s s' : VsmmuState) : Prop where
  /-- a whitelisted command is consumed that was fetched from the entry CONS points to -/
  fetched : ∃ count snapshot command, s.worker = .commit count snapshot (some command) ∧
    LastFetched cfg as count snapshot (some command) ∧
    snapshot.gpa = s.dev.entryGpa s.dev.consPointer ∧ command.supported = true
  one : s'.dev.consPointer = (s.dev.consPointer + 1#32) &&& ringMask s.dev.cmdqLog2
  beforeProd : s.dev.consPointer ≠ s.dev.prodPointer
  enabled : s.dev.cr0 &&& cr0Cmdqen ≠ 0#32
  clean : s.dev.activeErrors = 0#32

theorem workerStep_commit {memory : BitVec 64 → Option Command} {count : Nat}
    (h : (s.workerStep cfg memory).worker = .commit count snapshot fetched) :
    s.worker = .fetch count snapshot ∧ memory snapshot.gpa = fetched := by
  unfold VsmmuState.workerStep at h
  cases hpc : s.worker with
  | idle =>
    rw [hpc] at h
    cases h
  | loop =>
    rw [hpc] at h
    simp only at h
    split at h
    · split at h <;> cases h
    · cases h
  | fetch =>
    rw [hpc] at h
    cases h
    exact ⟨rfl, rfl⟩
  | commit =>
    rw [hpc] at h
    simp only at h
    split at h <;> cases h

theorem lastFetched_of_commit {count : Nat} (as : List VsmmuAction)
    (h : (Run.exec (VsmmuState.step cfg) boot as).worker = .commit count snapshot fetched) :
    LastFetched cfg as count snapshot fetched := by
  induction as using List.reverseRecOn with
  | nil => cases h
  | append_singleton as a ih =>
    rw [Run.exec_append] at h
    -- a step that is not the worker's leaves the worker where it is
    have hother (ha : ∀ memory', a ≠ .worker memory')
        (h : (Run.exec (VsmmuState.step cfg) boot as).worker = .commit count snapshot fetched) :
        LastFetched cfg (as ++ [a]) count snapshot fetched := by
      obtain ⟨before, memory, after, rfl, hnone, hfetch⟩ := ih h
      refine ⟨before, memory, after ++ [a], by simp, fun memory' hmem => ?_, hfetch⟩
      rcases List.mem_append.mp hmem with hmem | hmem
      · exact hnone memory' hmem
      · exact ha memory' (List.mem_singleton.mp hmem).symm
    cases a with
    | guest | refreshIrq => exact hother nofun h
    | worker memory => exact ⟨as, memory, [], rfl, nofun, workerStep_commit h⟩

theorem consPointer_setCerror {v : Vsmmu} {cerror : BitVec 32}
    (hcerror : cerror <<< 24 &&& ~~~cmdqConsErrMask = 0#32) (hsize : v.cmdqLog2 ≤ maxQueueLog2) :
    (v.setCerror cerror).consPointer = v.consPointer := by
  unfold Vsmmu.setCerror Vsmmu.consPointer Vsmmu.cmdqLog2
  rw [(Vsmmu.raiseError_cmdqCons _ _).1, (Vsmmu.raiseError_cmdqCons _ _).2]
  exact setError_and_ringMask hsize hcerror

/-- A commit that moves CONS consumes a supported command, one entry on. -/
theorem commitCommand_moves {v : Vsmmu} (hok : v.SnapshotOk snapshot)
    (hmove : (v.commitCommand snapshot fetched).1.consPointer ≠ v.consPointer) :
    v.Current snapshot ∧ (∃ command, fetched = some command ∧ command.supported = true) ∧
      (v.commitCommand snapshot fetched).1.consPointer =
        (v.consPointer + 1#32) &&& ringMask v.cmdqLog2 := by
  unfold Vsmmu.commitCommand at hmove ⊢
  by_cases hlive : v.generation = snapshot.generation ∧ v.consPointer = snapshot.cons
  · have hcur := hok.2 hlive.1.symm
    rw [if_pos hlive] at hmove ⊢
    cases fetched with
    | none => exact absurd (consPointer_setCerror (by decide) hcur.size) hmove
    | some command =>
      simp only at hmove ⊢
      by_cases hsup : command.supported = false
      · rw [if_pos hsup] at hmove
        exact absurd (consPointer_setCerror (by decide) hcur.size) hmove
      rw [if_neg hsup]
      refine ⟨hcur, ⟨command, rfl, (Bool.not_eq_false _).mp hsup⟩, ?_⟩
      show ((v.consPointer + 1#32) &&& ringMask v.cmdqLog2) &&& ringMask v.cmdqLog2 = _
      rw [BitVec.and_assoc, BitVec.and_self]
  · rw [if_neg hlive] at hmove
    exact absurd rfl hmove

theorem Inv.disciplined {as : List VsmmuAction} (hs : s.Inv)
    (hrun : Run.exec (VsmmuState.step cfg) VsmmuState.boot as = s)
    (memory : BitVec 64 → Option Command)
    (hmove : (s.step cfg (.worker memory)).dev.consPointer ≠ s.dev.consPointer) :
    Disciplined cfg as s (s.step cfg (.worker memory)) := by
  unfold VsmmuState.step VsmmuState.workerStep at hmove ⊢
  cases hpc : s.worker with
  | idle =>
    rw [hpc] at hmove
    exact absurd rfl hmove
  | loop =>
    rw [hpc] at hmove
    simp only at hmove
    split at hmove
    · split at hmove <;> exact absurd rfl hmove
    · exact absurd rfl hmove
  | fetch =>
    rw [hpc] at hmove
    exact absurd rfl hmove
  | commit count snapshot fetched =>
    rw [hpc] at hmove
    have hok := hs.snapshot snapshot (by rw [hpc]; rfl)
    obtain ⟨hcur, ⟨command, rfl, hsup⟩, hone⟩ := commitCommand_moves hok hmove
    have hlast := lastFetched_of_commit as (hrun.symm ▸ hpc)
    refine ⟨⟨count, snapshot, command, hpc, hlast, ?_, hsup⟩, hone, ?_, hcur.enabled, hcur.clean⟩
    · rw [hcur.gpa, hcur.cons]
    · rw [hcur.cons]
      exact fun h => hcur.prod h.symm

/--
**In a run whose guest accesses spare every outstanding snapshot, the worker advances CONS by one
entry, over a whitelisted command fetched from that entry, before PROD, on an enabled queue without
an error; and an enabled queue that is not empty is pending.**
-/
theorem cmdq_discipline (cfg : VsmmuConfig) (as : List VsmmuAction)
    (hcalm : Run.Along (VsmmuState.step cfg) (Calm cfg) VsmmuState.boot as) :
    let s := Run.exec (VsmmuState.step cfg) boot as
    (∀ memory, (s.step cfg (.worker memory)).dev.consPointer ≠ s.dev.consPointer →
      Disciplined cfg as s (s.step cfg (.worker memory))) ∧
    (s.dev.cr0 &&& cr0Cmdqen ≠ 0#32 → s.dev.activeErrors = 0#32 →
      s.dev.prodPointer ≠ s.dev.consPointer → s.dev.workerPending = true) := by
  have hinv := Run.inv_exec Inv.step Inv.boot hcalm
  refine ⟨fun memory => hinv.disciplined rfl memory, fun hen hclean hne => ?_⟩
  rcases hinv.pending hen (fun h => hne h.symm) with hset | ⟨-, hact⟩
  · exact hset
  · rw [hclean] at hact
    exact absurd (BitVec.zero_and) hact

/-- **No submitted command is forgotten**, whatever the guest does to the queue. -/
theorem cmdq_never_forgotten (cfg : VsmmuConfig) (as : List VsmmuAction) :
    (Run.exec (VsmmuState.step cfg) boot as).dev.PendingOk := by
  refine Run.inv_always (fun s : VsmmuState => s.dev.PendingOk) (fun s a h => ?_) as Inv.boot.pending
  cases a with
  | guest access => exact (Vsmmu.guestStep cfg s.dev access).pendingOk h
  | refreshIrq =>
    have same : Vsmmu.SameQueue s.dev s.dev.refreshIrq := ⟨rfl, rfl, rfl, rfl, rfl, rfl, rfl⟩
    exact same.pendingOk h
  | worker memory =>
    unfold VsmmuState.step VsmmuState.workerStep
    dsimp only
    split
    next => exact h
    next =>
      split
      · split <;> exact h
      · exact h
    next => exact h
    next => exact Vsmmu.commit_pendingOk h

/-- A VM with 256 MiB of RAM and queues of at most 64 entries. -/
def sampleConfig : VsmmuConfig :=
  { ram := { start := 0x40000000#64, size := 0x10000000#64 }
    cmdqLog2 := 6
    evtqLog2 := 6
    cmdqLog2_le := Nat.le_refl _
    evtqLog2_le := Nat.le_refl _ }

def writeReg (offset size : Nat) (value : BitVec 64) : VsmmuAction :=
  .guest { offset := offset, size := size, write := some value }

/-- A step of the worker that finds `CMD_SYNC` in every entry. -/
def workerSync : VsmmuAction := .worker fun _ => some ⟨0x46#64, 0#64⟩

/-- A queue of four entries is set up and enabled, one command is submitted and fetched. -/
def fetchedRun : List VsmmuAction :=
  [writeReg 0x90 8 0x40000002#64, writeReg 0x20 4 8#64, writeReg 0x98 4 1#64,
    workerSync, workerSync, workerSync]

/-- Another command is submitted while the first one is being fetched. -/
theorem cmdq_discipline_submit :
    let submitted := fetchedRun ++ [writeReg 0x98 4 2#64]
    let s := Run.exec (VsmmuState.step sampleConfig) boot submitted
    Disciplined sampleConfig submitted s (s.step sampleConfig workerSync) :=
  (cmdq_discipline sampleConfig (fetchedRun ++ [writeReg 0x98 4 2#64]) (by decide +kernel)).1 _
    (by decide +kernel)

/--
The guest writes a read-only register, or takes its command back, while it is being fetched: CONS
advances on a disabled queue with an active error, or past PROD.
-/
theorem cmdq_stale_commit :
    let after access := Run.exec (VsmmuState.step sampleConfig) boot (fetchedRun ++ [access])
    let rejected := after (writeReg 0x00 4 0#64)
    let takenBack := after (writeReg 0x98 4 0#64)
    (rejected.dev.cr0 = 0#32 ∧ rejected.dev.activeErrors ≠ 0#32 ∧
      rejected.dev.consPointer = 0#32 ∧
      (rejected.step sampleConfig workerSync).dev.consPointer = 1#32) ∧
    takenBack.dev.consPointer = takenBack.dev.prodPointer ∧
      (takenBack.step sampleConfig workerSync).dev.consPointer = 1#32 := by
  decide +kernel

end VsmmuState

end BeauOs.Guest
