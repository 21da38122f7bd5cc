/-
Runs of a deterministic machine.

A machine is a step function from a state and a label to the next state.  A run is
the list of labels it was fed.  `Along` says that every step of a run met a side
condition in the very state it was taken from, which is how a guarantee that holds
only for well-behaved callers is stated: the condition is checked before the step,
never read off its result.

The one rule everything else uses is `inv_exec`: what holds at the start and is kept
by every step that meets the condition holds at the end of every run along which the
condition was met.
-/
import Mathlib.Data.List.Basic

namespace Run

variable {σ α : Type*}

/-- The state a run ends in. -/
def exec (step : σ → α → σ) (s : σ) (as : List α) : σ := as.foldl step s

/-- Every step of the run meets `ok` in the state it is taken from. -/
def Along (step : σ → α → σ) (ok : σ → α → Prop) : σ → List α → Prop
  | _, [] => True
  | s, a :: rest => ok s a ∧ Along step ok (step s a) rest

instance Along.decidable (step : σ → α → σ) (ok : σ → α → Prop)
    [∀ s a, Decidable (ok s a)] : ∀ s as, Decidable (Along step ok s as)
  | _, [] => inferInstanceAs (Decidable True)
  | s, a :: rest =>
    have := Along.decidable step ok (step s a) rest
    inferInstanceAs (Decidable (ok s a ∧ Along step ok (step s a) rest))

variable {step : σ → α → σ} {ok : σ → α → Prop}

@[simp] theorem exec_nil (s : σ) : exec step s [] = s := rfl

@[simp] theorem exec_cons (s : σ) (a : α) (rest : List α) :
    exec step s (a :: rest) = exec step (step s a) rest := rfl

theorem exec_append (s : σ) (as bs : List α) :
    exec step s (as ++ bs) = exec step (exec step s as) bs := List.foldl_append

theorem along_append {s : σ} {as bs : List α} :
    Along step ok s (as ++ bs) ↔ Along step ok s as ∧ Along step ok (exec step s as) bs := by
  induction as generalizing s with
  | nil => exact (iff_of_eq (true_and _)).symm
  | cons a rest ih =>
    rw [List.cons_append, Along, ih, Along, and_assoc]
    rfl

/-- Every label of a run met the condition in some state. -/
theorem Along.of_mem {a : α} :
    ∀ {as : List α} {s : σ}, Along step ok s as → a ∈ as → ∃ s', ok s' a := by
  intro as
  induction as with
  | nil => exact fun _ hmem => nomatch hmem
  | cons b rest ih =>
    intro s hall hmem
    rcases List.mem_cons.mp hmem with rfl | hmem
    · exact ⟨s, hall.1⟩
    · exact ih hall.2 hmem

/-- A condition that follows from another one and from what every step keeps. -/
theorem Along.mono {ok' : σ → α → Prop} {Inv : σ → Prop}
    (hstep : ∀ s a, Inv s → Inv (step s a)) (himp : ∀ s a, Inv s → ok s a → ok' s a) :
    ∀ {as : List α} {s : σ}, Inv s → Along step ok s as → Along step ok' s as := by
  intro as
  induction as with
  | nil => exact fun _ h => h
  | cons a rest ih => exact fun hs h => ⟨himp _ a hs h.1, ih (hstep _ a hs) h.2⟩

/-- Two conditions met along a run are met together. -/
theorem Along.and {ok' : σ → α → Prop} :
    ∀ {as : List α} {s : σ}, Along step ok s as → Along step ok' s as →
      Along step (fun s a => ok s a ∧ ok' s a) s as := by
  intro as
  induction as with
  | nil => exact fun _ _ => trivial
  | cons a rest ih => exact fun h h' => ⟨⟨h.1, h'.1⟩, ih h.2 h'.2⟩

/-- **The invariant rule.** -/
theorem inv_exec {Inv : σ → Prop}
    (hstep : ∀ s a, Inv s → ok s a → Inv (step s a)) :
    ∀ {as : List α} {s : σ}, Inv s → Along step ok s as → Inv (exec step s as) := by
  intro as
  induction as with
  | nil => intro s hs _; exact hs
  | cons a rest ih =>
    intro s hs hall
    exact ih (hstep s a hs hall.1) hall.2

/-- What every step keeps holds at the end of every run. -/
theorem inv_always (Inv : σ → Prop) (hstep : ∀ s a, Inv s → Inv (step s a))
    (as : List α) {s : σ} (hs : Inv s) : Inv (exec step s as) := by
  induction as generalizing s with
  | nil => exact hs
  | cons a rest ih => exact ih (hstep s a hs)

/-- Some step of the run meets `p` in the state it is taken from. -/
def Sometime (step : σ → α → σ) (p : σ → α → Prop) : σ → List α → Prop
  | _, [] => False
  | s, a :: rest => p s a ∨ Sometime step p (step s a) rest

/--
A flag that a step sets exactly if it meets `p` is set at the end of a run exactly if it was
set before or some step of the run met `p`.
-/
theorem flag_exec {Inv : σ → Prop} (flag : σ → Bool) {p : σ → α → Prop}
    (hstep : ∀ s a, Inv s → ok s a → Inv (step s a) ∧
      (flag (step s a) = true ↔ flag s = true ∨ p s a)) :
    ∀ {as : List α} {s : σ}, Inv s → Along step ok s as →
      Inv (exec step s as) ∧
        (flag (exec step s as) = true ↔ flag s = true ∨ Sometime step p s as) := by
  intro as
  induction as with
  | nil => exact fun hs _ => ⟨hs, (iff_of_eq (or_false _)).symm⟩
  | cons a rest ih =>
    intro s hs hall
    obtain ⟨hinv, hflag⟩ := hstep s a hs hall.1
    obtain ⟨hinv', hflag'⟩ := ih hinv hall.2
    refine ⟨hinv', hflag'.trans ?_⟩
    rw [hflag, or_assoc]
    rfl

/-! ### Runs against a clock -/

/-- The machine together with the last time a label carried. -/
def clocked (time : α → Nat) (step : σ → α → σ) (x : Nat × σ) (a : α) : Nat × σ :=
  (time a, step x.2 a)

/-- The condition of a step, and that the clock does not run backwards. -/
def Forward (time : α → Nat) (ok : σ → α → Prop) (x : Nat × σ) (a : α) : Prop :=
  x.1 ≤ time a ∧ ok x.2 a

instance Forward.decidable (time : α → Nat) (ok : σ → α → Prop) [∀ s a, Decidable (ok s a)]
    (x : Nat × σ) (a : α) : Decidable (Forward time ok x a) :=
  inferInstanceAs (Decidable (x.1 ≤ time a ∧ ok x.2 a))

end Run
