/-
Who owns an IRQ line.

A line that was requested keeps its number, its action and its data until it is freed, as long as
an action is installed only where there still is none and the number is still taken, and a number is
given back only while its line has no action.  The code does not see to it: the busy check and the
installation are two sections, and two requests can both find the line without an action.
-/
import BeauOs.Lib.Run
import BeauOs.Core.Irq

namespace BeauOs.Core

/-- At most one owner, which has the number, the action and the data. -/
structure IrqLine.Owned (l : IrqLine) : Prop where
  one : l.owners.length ≤ 1
  installed : ∀ req ∈ l.owners, l.alloc = true ∧ l.desc = req ∧ req.action ≠ none

theorem IrqLine.Owned.unowned {l : IrqLine} (h : l.Owned)
    (hfree : l.alloc = false ∨ l.desc.action = none) : l.owners = [] := by
  refine List.eq_nil_iff_forall_not_mem.mpr fun req hreq => ?_
  obtain ⟨htaken, rfl, hsome⟩ := h.installed req hreq
  rcases hfree with hfree | hfree
  · exact Bool.false_ne_true (hfree.symm.trans htaken)
  · exact hsome hfree

namespace IrqSystem

variable {nrIrqs : Nat} {s : IrqSystem}

/-- An action is installed where there is none, and no number with an action is given back. -/
def Ready (s : IrqSystem) : IrqPc → Prop
  | .install irq req =>
    req.action ≠ none ∧ (s.line irq).desc.action = none ∧ (s.line irq).alloc = true
  | .giveBack irq => (s.line irq).desc.action = none ∨ (s.line irq).rsvd = true
  | _ => True

instance (s : IrqSystem) : ∀ pc, Decidable (s.Ready pc)
  | .install _ _ => inferInstanceAs (Decidable (_ ∧ _))
  | .giveBack _ => inferInstanceAs (Decidable (_ ∨ _))
  | .idle | .vector _ _ | .check _ _ => inferInstanceAs (Decidable True)

def Orderly (s : IrqSystem) : IrqStep → Prop
  | .go pcpu _ => s.Ready (s.pc pcpu)
  | _ => True

instance (s : IrqSystem) : ∀ a, Decidable (s.Orderly a)
  | .go pcpu _ => inferInstanceAs (Decidable (s.Ready (s.pc pcpu)))
  | .request _ _ _ | .free _ _ => inferInstanceAs (Decidable True)

/-- An owned line stays as it is unless it is freed. -/
def Keeps (a : IrqStep) (irq : Nat) (l l' : IrqLine) : Prop :=
  l'.Owned ∧ (l.owners ≠ [] → (∀ pcpu, a ≠ .free pcpu irq) → l' = l)

theorem keeps_set {a : IrqStep} {irq : Nat} {l : IrqLine} (h : ∀ irq, (s.line irq).Owned)
    (howned : l.Owned) (hkept : (s.line irq).owners ≠ [] → (∀ pcpu, a ≠ .free pcpu irq) →
      l = s.line irq) (pcpu : Nat) (pc : IrqPc) (other : Nat) :
    Keeps a other (s.line other) ((s.set pcpu pc irq l).line other) := by
  dsimp only [set]
  by_cases heq : other = irq
  · subst heq
    rw [Function.update_self]
    exact ⟨howned, hkept⟩
  · rw [Function.update_of_ne heq]
    exact ⟨h other, fun _ _ => rfl⟩

theorem step_keeps (h : ∀ irq, (s.line irq).Owned) {a : IrqStep} (hok : s.Orderly a) (irq : Nat) :
    Keeps a irq (s.line irq) ((s.step nrIrqs a).line irq) := by
  cases a with
  | request _ _ req =>
    simp only [step]
    split
    next taken _ _ =>
      refine keeps_set h ?_ (fun howned _ => ?_) _ _ irq
      · exact ⟨(h taken).one, fun req hreq => ⟨rfl, ((h taken).installed req hreq).2⟩⟩
      · obtain ⟨req, hreq⟩ := List.exists_mem_of_ne_nil _ howned
        unfold IrqLine.take
        rw [← ((h taken).installed req hreq).1]
    next => exact ⟨h irq, fun _ _ => rfl⟩
  | free pcpu =>
    simp only [step]
    split
    next =>
      exact keeps_set h ⟨Nat.zero_le _, fun _ hreq => absurd hreq List.not_mem_nil⟩
        (fun _ hnot => absurd rfl (hnot pcpu)) _ _ irq
    next => exact ⟨h irq, fun _ _ => rfl⟩
  | go pcpu =>
    simp only [step, Orderly] at hok ⊢
    cases hpc : s.pc pcpu with
    | idle => exact ⟨h irq, fun _ _ => rfl⟩
    | vector line | check line => exact keeps_set h (h line) (fun _ _ => rfl) _ _ irq
    | install line =>
      rw [hpc] at hok
      have hnone := (h line).unowned (.inr hok.2.1)
      refine keeps_set h ⟨?_, fun req' hreq' => ?_⟩ (fun howned => absurd hnone howned) _ _ irq
      · simp [IrqLine.install, hnone]
      · simp only [IrqLine.install, hnone, List.mem_singleton] at hreq'
        exact ⟨hok.2.2, hreq'.symm, hreq' ▸ hok.1⟩
    | giveBack line =>
      rw [hpc] at hok
      dsimp only [IrqLine.freeNum]
      split
      next => exact keeps_set h (h line) (fun _ _ => rfl) _ _ irq
      next hrsvd =>
        have hnone := (h line).unowned (.inr (hok.resolve_right hrsvd))
        refine keeps_set h ?_ (fun howned => absurd hnone howned) _ _ irq
        exact ⟨(h line).one, fun req hreq => absurd (hnone ▸ hreq) List.not_mem_nil⟩

/-- A number that is found for a request has no owner. -/
theorem alloc_unowned (h : ∀ irq, (s.line irq).Owned) {irq : Nat}
    (hfound : s.allocIrqNum nrIrqs none = some irq) : (s.line irq).owners = [] := by
  have hfree := List.find?_some hfound
  exact (h irq).unowned (.inl (by simpa using hfree))

def boot (alloc rsvd : Nat → Bool) : IrqSystem :=
  ⟨fun irq => ⟨alloc irq, rsvd irq, ⟨none, 0, 0⟩, []⟩, fun _ => .idle⟩

end IrqSystem

open IrqSystem

/--
**A line has one owner** in every run of requests and frees of any pCPUs whose sections are orderly:
its interrupts go to the owner, every section of another call leaves the line as it is, and a number
that is found for a request is of a line without one.
-/
theorem irq_line_owned (nrIrqs : Nat) (alloc rsvd : Nat → Bool) (history : List IrqStep)
    (hhistory : Run.Along (IrqSystem.step nrIrqs) Orderly (boot alloc rsvd) history) :
    let s := Run.exec (IrqSystem.step nrIrqs) (boot alloc rsvd) history
    (∀ irq, (s.line irq).owners.length ≤ 1 ∧ ∀ req ∈ (s.line irq).owners,
      (s.line irq).desc = req ∧ (s.line irq).doIrq = req.action.map (·, req.privData)) ∧
    (∀ irq, s.allocIrqNum nrIrqs none = some irq → (s.line irq).owners = []) ∧
    ∀ a, s.Orderly a → ∀ irq, (s.line irq).owners ≠ [] → (∀ pcpu, a ≠ .free pcpu irq) →
      (s.step nrIrqs a).line irq = s.line irq := by
  have hboot : ∀ irq, ((boot alloc rsvd).line irq).Owned :=
    fun _ => ⟨Nat.zero_le _, fun _ hreq => absurd hreq List.not_mem_nil⟩
  have hinv := Run.inv_exec (fun s _ (hs : ∀ irq, (s.line irq).Owned) hok irq =>
    (step_keeps hs hok irq).1) hboot hhistory
  refine ⟨fun irq => ⟨(hinv irq).one, fun req hreq => ?_⟩, fun irq => alloc_unowned hinv,
    fun a hok irq => (step_keeps hinv hok irq).2⟩
  obtain ⟨htaken, rfl, -⟩ := (hinv irq).installed req hreq
  exact ⟨rfl, if_pos htaken⟩

/-- Two pCPUs take their sections in turn, one for line 3 and one for the number it is given. -/
def apart : List IrqStep :=
  [.request 0 (some 3) ⟨some 5, 7, 0⟩, .request 1 none ⟨some 6, 8, 0⟩, .go 0 true, .go 1 true,
    .go 1 true, .go 0 true, .go 0 true, .go 1 true]

theorem irq_line_owned_apart :
    let s := Run.exec (IrqSystem.step 64) (boot (fun _ => false) fun _ => false) apart
    (s.line 3).owners = [⟨some 5, 7, 0⟩] ∧ (s.line 3).doIrq = some (5, 7) ∧
      (s.line 0).owners.length ≤ 1 ∧ (s.line 1).owners = [] ∧
      (s.step 64 (.request 1 (some 3) ⟨some 6, 8, 0⟩)).line 3 = s.line 3 := by
  obtain ⟨howned, halloc, hkept⟩ :=
    irq_line_owned 64 (fun _ => false) (fun _ => false) apart (by decide +kernel)
  refine ⟨by decide +kernel, ?_, (howned 0).1, halloc 1 (by decide +kernel), ?_⟩
  · exact ((howned 3).2 ⟨some 5, 7, 0⟩ (by decide +kernel)).2
  · exact hkept (.request 1 (some 3) ⟨some 6, 8, 0⟩) trivial 3 (by decide +kernel) nofun

/-- Both requests for line 3 pass the busy check before one of them installs its action. -/
def together : List IrqStep :=
  [.request 0 (some 3) ⟨some 5, 7, 0⟩, .request 1 (some 3) ⟨some 6, 8, 0⟩, .go 0 true, .go 1 true,
    .go 0 true, .go 1 true, .go 0 true, .go 1 true]

/-- Both requests succeed, and the first owner gets no interrupts. -/
theorem irq_owned_twice :
    let s := Run.exec (IrqSystem.step 64) (boot (fun _ => false) fun _ => false) together
    (s.line 3).owners = [⟨some 6, 8, 0⟩, ⟨some 5, 7, 0⟩] ∧ (s.line 3).doIrq = some (6, 8) := by
  decide +kernel

end BeauOs.Core
