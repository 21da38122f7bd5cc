/-
When the interrupt line of a virtio-mmio device tells the truth.

The helper looks at `interrupt_status` and `irq_asserted` and then drives the line, and nothing
keeps the other pCPU out in between.  An acknowledge that has decided to lower the line lowers it
after a raise has found it high and left it alone: the interrupt is lost.  A raise that has
decided to drive the line high does so after an acknowledge has found it low: the line is stuck.

Two things suffice (`IrqRace.Apart`): no path enters the helper while the other is inside it, and
no raise writes `interrupt_status` between the read and the write of an acknowledge.  The rest may
overlap.  The reason is that a path which changed the status still has to enter the helper, so
what an earlier visit saw may be out of date only while someone is about to enter
(`LinePc.Due`); the last visit sees the final status.
-/
import BeauOs.Virtio.IrqLine
import BeauOs.Lib.Run
import Mathlib.Logic.Function.Basic

namespace BeauOs.Virtio

open Function IrqRace UpdatePc

/-! ### Places -/

/-- The status is written and the helper is about to be entered. -/
def LinePc.Due (pc : LinePc) : Prop := pc = .update .testNonzero

/-- Within the helper, past its first read. -/
def LinePc.Inside : LinePc → Prop
  | .update .testNonzero => False
  | .update _ => True
  | .idle | .write _ => False

instance LinePc.Inside.decidable : ∀ pc : LinePc, Decidable pc.Inside
  | .update .testNonzero => inferInstanceAs (Decidable False)
  | .update .testLow | .update .testZero | .update .testHigh | .update (.drive _)
  | .update (.note _) => inferInstanceAs (Decidable True)
  | .idle | .write _ => inferInstanceAs (Decidable False)

/-- The status is read and about to be written back. -/
def LinePc.Writing : LinePc → Prop
  | .write _ => True
  | .idle | .update _ => False

instance LinePc.Writing.decidable : ∀ pc : LinePc, Decidable pc.Writing
  | .write _ => inferInstanceAs (Decidable True)
  | .idle | .update _ => inferInstanceAs (Decidable False)

def IrqParty.other : IrqParty → IrqParty
  | .backend => .frontend
  | .frontend => .backend

theorem IrqParty.other_ne (p : IrqParty) : p.other ≠ p := by
  cases p <;> decide

theorem IrqParty.eq_other {p q : IrqParty} (h : q ≠ p) : q = p.other := by
  cases p <;> cases q <;> first | rfl | exact absurd rfl h

/-! ### One visit to the helper -/

/-- How the line and `irq_asserted` compare when the next access is at `pc`. -/
def LineAt (line : IrqLine) : LinePc → Prop
  | .update (.drive level) => line.level = !level ∧ line.irqAsserted = !level
  | .update (.note level) => line.level = level ∧ line.irqAsserted = !level
  | _ => line.level = line.irqAsserted

/-- What a visit has learnt about the status when the next access is at `pc`. -/
def StatusAt (line : IrqLine) : LinePc → Prop
  | .update .testNonzero => True
  | .update .testLow => line.interruptStatus ≠ 0#32
  | .update .testZero => line.interruptStatus ≠ 0#32 → line.irqAsserted = true
  | .update .testHigh => line.interruptStatus = 0#32
  | .update (.drive level) | .update (.note level) =>
    level = true ↔ line.interruptStatus ≠ 0#32
  | .idle | .write _ => line.irqAsserted = true ↔ line.interruptStatus ≠ 0#32

variable {pc : UpdatePc}

theorem lineAt_next {line : IrqLine} (h : LineAt line (.update pc)) :
    LineAt (pc.act line) (pc.next line) := by
  cases pc with
  | testNonzero | testZero =>
    simp only [next, act]
    split <;> exact h
  | testLow =>
    simp only [next, act]
    split
    next hlow => exact ⟨Eq.trans h hlow, hlow⟩
    next => exact h
  | testHigh =>
    simp only [next, act]
    split
    next hhigh => exact ⟨Eq.trans h hhigh, hhigh⟩
    next => exact h
  | drive => exact ⟨rfl, h.2⟩
  | note => exact h.1

theorem statusAt_next {line : IrqLine} (h : StatusAt line (.update pc)) :
    StatusAt (pc.act line) (pc.next line) := by
  cases pc with
  | testNonzero =>
    simp only [next, act]
    split
    next hne => exact hne
    next heq => exact fun hne => absurd hne heq
  | testLow =>
    simp only [next, act]
    split
    · exact iff_of_true rfl h
    next hhigh => exact fun _ => (Bool.not_eq_false _).mp hhigh
  | testZero =>
    simp only [next, act]
    split
    next heq => exact heq
    next hne => exact iff_of_true (h hne) hne
  | testHigh =>
    simp only [next, act]
    split
    · exact iff_of_false (by decide) (fun hne => hne h)
    next hlow => exact iff_of_false hlow (fun hne => hne h)
  | drive level | note level => exact h

/-- A visit that goes on is inside the helper, and one that ends is over. -/
theorem next_inside_or_idle (line : IrqLine) (pc : UpdatePc) :
    (pc.next line).Inside ∨ pc.next line = .idle := by
  cases pc with
  | testNonzero | testLow | testZero | testHigh =>
    simp only [next]
    split <;> first | exact .inl trivial | exact .inr rfl
  | drive => exact .inl trivial
  | note => exact .inr rfl

theorem LinePc.inside_update (h : pc ≠ .testNonzero) :
    (LinePc.update pc).Inside := by
  cases pc with
  | testNonzero => exact absurd rfl h
  | testLow | testZero | testHigh | drive _ | note _ => trivial

/-! ### Two paths -/

/-- An access that keeps the helper to one path at a time, and the raise out of the middle of an
acknowledge. -/
def IrqRace.Apart (s : IrqRace) (a : IrqAccess) : Prop :=
  (s.pc a.party = .update .testNonzero → ¬ (s.pc a.party.other).Inside) ∧
    (a = .backend → (s.pc .backend).Writing → ¬ (s.pc .frontend).Writing)

instance IrqRace.Apart.decidable (s : IrqRace) (a : IrqAccess) : Decidable (s.Apart a) :=
  inferInstanceAs (Decidable (_ ∧ _))

/-- How the line, its shadow and the status compare while one path is at `x` and the other at
`y`. -/
structure LineInv (line : IrqLine) (x y : LinePc) : Prop where
  one : x.Inside → ¬ y.Inside
  level : ¬ x.Inside → ¬ y.Inside → line.level = line.irqAsserted
  levelLeft : x.Inside → LineAt line x
  levelRight : y.Inside → LineAt line y
  /-- while nobody is about to enter, what the last visit saw is up to date -/
  asserted : ¬ x.Due → ¬ y.Due → ¬ x.Inside → ¬ y.Inside →
    (line.irqAsserted = true ↔ line.interruptStatus ≠ 0#32)
  assertedLeft : ¬ x.Due → ¬ y.Due → x.Inside → StatusAt line x
  assertedRight : ¬ x.Due → ¬ y.Due → y.Inside → StatusAt line y

namespace LineInv

variable {line : IrqLine} {x y : LinePc}

theorem symm (h : LineInv line x y) : LineInv line y x where
  one := fun hy hx => h.one hx hy
  level := fun hy hx => h.level hx hy
  levelLeft := h.levelRight
  levelRight := h.levelLeft
  asserted := fun dy dx hy hx => h.asserted dx dy hx hy
  assertedLeft := fun dy dx => h.assertedRight dx dy
  assertedRight := fun dy dx => h.assertedLeft dx dy

/-- Reading the status leaves the line alone, and the path outside the helper. -/
theorem read (h : LineInv line .idle y) (status : BitVec 32) : LineInv line (.write status) y where
  one := fun hx => hx.elim
  level := fun _ hy => h.level id hy
  levelLeft := fun hx => hx.elim
  levelRight := h.levelRight
  asserted := fun _ dy _ hy => h.asserted nofun dy id hy
  assertedLeft := fun _ _ hx => hx.elim
  assertedRight := fun _ dy => h.assertedRight nofun dy

/-- A path that has written the status is about to enter: what was seen may be out of date. -/
theorem write {status status' : BitVec 32} (h : LineInv line (.write status) y) :
    LineInv { line with interruptStatus := status' } (.update .testNonzero) y where
  one := fun hx => hx.elim
  level := fun _ hy => h.level id hy
  levelLeft := fun hx => hx.elim
  levelRight := fun hy => by
    have hat := h.levelRight hy
    revert hat
    unfold LineAt
    split <;> exact id
  asserted := fun dx => absurd rfl dx
  assertedLeft := fun dx => absurd rfl dx
  assertedRight := fun dx => absurd rfl dx

/-- One access of the helper, with the other path outside. -/
theorem update (h : LineInv line (.update pc) y) (hy : ¬ y.Inside) :
    LineInv (pc.act line) (pc.next line) y := by
  have hline : LineAt (pc.act line) (pc.next line) := by
    apply lineAt_next
    by_cases hfirst : pc = .testNonzero
    · subst hfirst
      exact h.level id hy
    · exact h.levelLeft (LinePc.inside_update hfirst)
  have hstatus : ¬ y.Due → StatusAt (pc.act line) (pc.next line) := by
    intro hdue
    apply statusAt_next
    by_cases hfirst : pc = .testNonzero
    · subst hfirst
      trivial
    · refine h.assertedLeft (fun hx => ?_) hdue (LinePc.inside_update hfirst)
      exact hfirst (LinePc.update.inj hx)
  have hidle : ¬ (pc.next line).Inside → pc.next line = .idle :=
    (next_inside_or_idle line pc).resolve_left
  refine ⟨fun _ => hy, ?_, fun _ => hline, fun h => absurd h hy, ?_, fun _ hdue _ => hstatus hdue,
    fun _ _ h => absurd h hy⟩
  · intro hx _
    rw [hidle hx] at hline
    exact hline
  · intro _ hdue hx _
    have hat := hstatus hdue
    rw [hidle hx] at hat
    exact hat

end LineInv

structure IrqRace.Inv (s : IrqRace) : Prop where
  line : ∀ p : IrqParty, LineInv s.line (s.pc p) (s.pc p.other)
  visible : s.unacked = true → s.line.interruptStatus.getLsbD 0 = true
  /-- an acknowledge on its way keeps what it does not acknowledge -/
  kept : s.unacked = true → ∀ status, s.pc .frontend = .write status → status.getLsbD 0 = true
  raised : ∀ status, s.pc .backend = .write status → status.getLsbD 0 = true

namespace IrqRace

variable {s : IrqRace} {a : IrqAccess}

theorem Inv.boot : boot.Inv where
  line := fun _ =>
    { one := fun h => h.elim
      level := fun _ _ => rfl
      levelLeft := fun h => h.elim
      levelRight := fun h => h.elim
      asserted := fun _ _ _ _ => by decide
      assertedLeft := fun _ _ h => h.elim
      assertedRight := fun _ _ h => h.elim }
  visible := fun h => absurd h (by decide)
  kept := fun h => absurd h (by decide)
  raised := nofun

/-- One path moves: it is enough to look at it and the other one. -/
theorem lineInv_update {line : IrqLine} {pc : IrqParty → LinePc} {p : IrqParty} {x : LinePc}
    (h : LineInv line x (pc p.other)) (q : IrqParty) :
    LineInv line (Function.update pc p x q) (Function.update pc p x q.other) := by
  by_cases hqp : q = p
  · rw [hqp, update_self, update_of_ne p.other_ne]
    exact h
  have hq : q = p.other := IrqParty.eq_other hqp
  have hother : q.other = p := by
    rw [hq]
    cases p <;> rfl
  rw [hother, update_self, update_of_ne hqp, hq]
  exact h.symm

theorem step_idle (h : s.pc a.party = .idle) :
    s.step a =
      { s with
        pc := Function.update s.pc a.party (.write (a.merge s.line.interruptStatus))
        unacked := s.record a .idle } := by
  unfold step
  rw [h]

theorem step_write {status : BitVec 32} (h : s.pc a.party = .write status) :
    s.step a =
      { line := { s.line with interruptStatus := status }
        pc := Function.update s.pc a.party (.update .testNonzero)
        unacked := s.record a (.write status) } := by
  unfold step
  rw [h]

theorem step_update (h : s.pc a.party = .update pc) :
    s.step a =
      { line := pc.act s.line
        pc := Function.update s.pc a.party (pc.next s.line)
        unacked := s.record a (.update pc) } := by
  unfold step
  rw [h]

theorem Inv.line_step (hs : s.Inv) (ha : s.Apart a) (p : IrqParty) :
    LineInv (s.step a).line ((s.step a).pc p) ((s.step a).pc p.other) := by
  have hline := hs.line a.party
  cases hpc : s.pc a.party with
  | idle =>
    rw [step_idle hpc]
    rw [hpc] at hline
    exact lineInv_update (hline.read _) p
  | write =>
    rw [step_write hpc]
    rw [hpc] at hline
    exact lineInv_update hline.write p
  | update pc =>
    rw [step_update hpc]
    rw [hpc] at hline
    refine lineInv_update (hline.update ?_) p
    by_cases hfirst : pc = .testNonzero
    · exact ha.1 (by rw [hpc, hfirst])
    · exact hline.one (LinePc.inside_update hfirst)

/-! ### The used-buffer bit -/

theorem act_interruptStatus (line : IrqLine) (pc : UpdatePc) :
    (pc.act line).interruptStatus = line.interruptStatus := by
  cases pc <;> rfl

theorem next_ne_write (line : IrqLine) (pc : UpdatePc) (status : BitVec 32) :
    pc.next line ≠ .write status := by
  intro h
  rcases next_inside_or_idle line pc with hin | hidle
  · rw [h] at hin
    exact hin
  · rw [h] at hidle
    cases hidle

/-- Only a raise that writes the status adds to what is unacknowledged. -/
theorem unacked_of_record {pc : LinePc} (h : s.record a pc = true)
    (ha : a = .backend → ∀ status, pc ≠ .write status) : s.unacked = true := by
  unfold record at h
  split at h
  · exact absurd rfl (ha rfl _)
  · exact (Bool.and_eq_true_iff.mp h).1
  · exact h

theorem step_unacked : (s.step a).unacked = s.record a (s.pc a.party) := by
  unfold step
  cases s.pc a.party <;> rfl

theorem step_interruptStatus :
    (s.step a).line.interruptStatus = s.line.interruptStatus ∨
      ∃ status, s.pc a.party = .write status ∧ (s.step a).line.interruptStatus = status := by
  cases hpc : s.pc a.party with
  | idle => exact .inl (by rw [step_idle hpc])
  | write status => exact .inr ⟨status, rfl, by rw [step_write hpc]⟩
  | update pc =>
    rw [step_update hpc]
    exact .inl (act_interruptStatus s.line pc)

/-- A path about to write was so before, or has just read the status. -/
theorem step_pc_write {p : IrqParty} {status : BitVec 32} (h : (s.step a).pc p = .write status) :
    (p ≠ a.party ∧ s.pc p = .write status) ∨
      (p = a.party ∧ s.pc p = .idle ∧ status = a.merge s.line.interruptStatus) := by
  by_cases hp : p = a.party
  · subst hp
    refine .inr ⟨rfl, ?_⟩
    cases hpc : s.pc a.party with
    | idle =>
      rw [step_idle hpc] at h
      simp only [update_self] at h
      exact ⟨rfl, (LinePc.write.inj h).symm⟩
    | write =>
      rw [step_write hpc] at h
      simp only [update_self] at h
      cases h
    | update pc =>
      rw [step_update hpc] at h
      simp only [update_self] at h
      exact absurd h (next_ne_write s.line pc status)
  · refine .inl ⟨hp, ?_⟩
    rw [← h]
    unfold step
    cases s.pc a.party <;> exact (update_of_ne hp _ _).symm

theorem Inv.visible_step (hs : s.Inv) (h : (s.step a).unacked = true) :
    (s.step a).line.interruptStatus.getLsbD 0 = true := by
  rw [step_unacked] at h
  cases a with
  | backend =>
    rcases step_interruptStatus (s := s) (a := .backend) with heq | ⟨status, hpc, heq⟩
    · rw [heq]
      by_cases hwrite : ∃ status, s.pc .backend = .write status
      · obtain ⟨status, hpc⟩ := hwrite
        rw [← heq, step_write (a := .backend) hpc]
        exact hs.raised status hpc
      · exact hs.visible (unacked_of_record h (fun _ status hpc => hwrite ⟨status, hpc⟩))
    · rw [heq]
      exact hs.raised status hpc
  | frontend value =>
    have hun := unacked_of_record h nofun
    rcases step_interruptStatus (s := s) (a := .frontend value) with heq | ⟨status, hpc, heq⟩
    · rw [heq]
      exact hs.visible hun
    · rw [heq]
      exact hs.kept hun status hpc

theorem Inv.kept_step (hs : s.Inv) (ha : s.Apart a) (h : (s.step a).unacked = true)
    (status : BitVec 32) (hpc : (s.step a).pc .frontend = .write status) :
    status.getLsbD 0 = true := by
  rw [step_unacked] at h
  cases a with
  | backend =>
    rcases step_pc_write hpc with ⟨-, hbefore⟩ | ⟨hp, -⟩
    · -- the raise does not write while the acknowledge is on its way
      refine hs.kept (unacked_of_record h fun _ status' hw => ?_) status hbefore
      refine ha.2 rfl ?_ ?_
      · rw [show s.pc .backend = .write status' from hw]
        trivial
      · rw [hbefore]
        trivial
    · cases hp
  | frontend value =>
    have hun := unacked_of_record h nofun
    rcases step_pc_write hpc with ⟨hp, -⟩ | ⟨-, hidle, hmerge⟩
    · exact absurd rfl hp
    rw [show s.pc (IrqAccess.frontend value).party = .idle from hidle] at h
    have hvalue : value.getLsbD 0 = false := by
      have := (Bool.and_eq_true_iff.mp h).2
      simpa using this
    rw [hmerge]
    simp only [IrqAccess.merge, BitVec.getLsbD_and, BitVec.getLsbD_not, hs.visible hun, hvalue]
    decide

theorem Inv.raised_step (hs : s.Inv) (status : BitVec 32)
    (hpc : (s.step a).pc .backend = .write status) : status.getLsbD 0 = true := by
  rcases step_pc_write hpc with ⟨-, hbefore⟩ | ⟨hp, -, hmerge⟩
  · exact hs.raised status hbefore
  cases a with
  | backend =>
    rw [hmerge]
    simp [IrqAccess.merge, intUsedRing]
  | frontend => cases hp

theorem Inv.step (s : IrqRace) (a : IrqAccess) (hs : s.Inv) (ha : s.Apart a) : (s.step a).Inv where
  line := hs.line_step ha
  visible := hs.visible_step
  kept := hs.kept_step ha
  raised := hs.raised_step

/-- The line is high just while the status is not zero, and the status has what is unacknowledged. -/
def Truthful (s : IrqRace) : Prop :=
  (s.line.level = true ↔ s.line.interruptStatus ≠ 0#32) ∧
    (s.unacked = true → s.line.interruptStatus &&& intUsedRing ≠ 0#32)

theorem Inv.truthful (hs : s.Inv) (hquiet : s.Quiet) : s.Truthful := by
  have hline := hs.line .backend
  rw [hquiet, hquiet] at hline
  constructor
  · rw [hline.level id id]
    exact hline.asserted nofun nofun id id
  · intro hun hzero
    have hbit := congrArg (fun word => word.getLsbD 0) hzero
    simp only [BitVec.getLsbD_and, hs.visible hun] at hbit
    exact absurd hbit (by decide)

/--
**If the two paths keep apart in the helper, and no raise writes the status in the middle of an
acknowledge, then the line is high exactly while the status is non-zero and no unacknowledged
interrupt is missing from the status, whenever neither operation is in progress.**
-/
theorem irq_line_truthful (as : List IrqAccess)
    (hapart : Run.Along step IrqRace.Apart boot as)
    (hquiet : (Run.exec step boot as).Quiet) :
    (Run.exec step boot as).Truthful :=
  (Run.inv_exec Inv.step Inv.boot hapart).truthful hquiet

/-- A raise, an acknowledge that begins while the raise drives the line, and another raise. -/
def overlappingRun : List IrqAccess :=
  List.replicate 4 .backend ++ List.replicate 2 (.frontend 1#32) ++ List.replicate 2 .backend ++
    List.replicate 5 (.frontend 1#32) ++ List.replicate 6 .backend

theorem irq_line_truthful_overlapping :
    (Run.exec step boot overlappingRun).unacked = true ∧
      (Run.exec step boot overlappingRun).Truthful :=
  ⟨by decide, irq_line_truthful overlappingRun (by decide) (fun p => by cases p <;> decide)⟩

/-- The second raise finds the line high, and then the acknowledge lowers it. -/
def lostRun : List IrqAccess :=
  List.replicate 6 .backend ++ List.replicate 5 (.frontend 1#32) ++ List.replicate 5 .backend ++
    List.replicate 2 (.frontend 1#32)

/-- The acknowledge finds the line low, and then the raise drives it high. -/
def stuckRun : List IrqAccess :=
  List.replicate 4 .backend ++ List.replicate 5 (.frontend 1#32) ++ List.replicate 2 .backend

theorem irq_line_lost_and_stuck :
    ((Run.exec step boot lostRun).Quiet ∧
      (Run.exec step boot lostRun).line =
        { interruptStatus := 1#32, irqAsserted := false, level := false } ∧
      (Run.exec step boot lostRun).unacked = true) ∧
    (Run.exec step boot stuckRun).Quiet ∧
      (Run.exec step boot stuckRun).line =
        { interruptStatus := 0#32, irqAsserted := true, level := true } :=
  ⟨⟨fun p => by cases p <;> decide, by decide, by decide⟩, fun p => by cases p <;> decide,
    by decide⟩

end IrqRace

end BeauOs.Virtio
