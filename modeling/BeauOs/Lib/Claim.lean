/-
Flags that stand for exclusive claims.

A resource has a flag, and holders may hold it.  The books balance if a flag is set exactly
while somebody holds the resource, and nobody else does.  A holder takes a free resource,
passes it on or gives it back; each of these keeps the balance, and so does everything that
touches neither flags nor holders.
-/
import Mathlib.Logic.Basic

namespace Claim

variable {κ ρ : Type*} {flag flag' : ρ → Prop} {holds holds' : κ → ρ → Prop}

/-- A flag is set exactly while one holder holds the resource. -/
structure Balanced (flag : ρ → Prop) (holds : κ → ρ → Prop) : Prop where
  held : ∀ r, flag r ↔ ∃ k, holds k r
  unique : ∀ r k k', holds k r → holds k' r → k = k'

namespace Balanced

variable (h : Balanced flag holds)

include h

theorem congr (hflag : ∀ r, flag' r ↔ flag r) (hholds : ∀ k r, holds' k r ↔ holds k r) :
    Balanced flag' holds' where
  held r := by
    rw [hflag, h.held]
    exact exists_congr fun k => (hholds k r).symm
  unique r k k' hk hk' := h.unique r k k' ((hholds k r).mp hk) ((hholds k' r).mp hk')

theorem acquire {k : κ} {r : ρ} (hfree : ¬ flag r) (hflag : ∀ r', flag' r' ↔ flag r' ∨ r' = r)
    (hother : ∀ k' r', k' ≠ k → (holds' k' r' ↔ holds k' r'))
    (hself : ∀ r', holds' k r' ↔ holds k r' ∨ r' = r) : Balanced flag' holds' := by
  have hnone : ∀ k', ¬ holds k' r := fun k' hk' => hfree ((h.held r).mpr ⟨k', hk'⟩)
  have hholds : ∀ k' r', holds' k' r' ↔ holds k' r' ∨ k' = k ∧ r' = r := by
    intro k' r'
    by_cases heq : k' = k
    · simp [heq, hself]
    · simp [heq, hother k' r' heq]
  refine ⟨fun r' => ?_, fun r' k₁ k₂ h₁ h₂ => ?_⟩
  · simp only [hflag, h.held, hholds, exists_or, exists_eq_left]
  · rcases (hholds k₁ r').mp h₁ with h₁ | ⟨rfl, rfl⟩ <;>
      rcases (hholds k₂ r').mp h₂ with h₂ | ⟨rfl, heq⟩
    · exact h.unique r' k₁ k₂ h₁ h₂
    · exact absurd (heq ▸ h₁) (hnone k₁)
    · exact absurd h₂ (hnone k₂)
    · rfl

theorem release {k : κ} {r : ρ} (hk : holds k r) (hflag : ∀ r', flag' r' ↔ flag r' ∧ r' ≠ r)
    (hother : ∀ k' r', k' ≠ k → (holds' k' r' ↔ holds k' r'))
    (hself : ∀ r', holds' k r' ↔ holds k r' ∧ r' ≠ r) : Balanced flag' holds' := by
  -- nobody but `k` holds `r`, so nobody does any more
  have hholds : ∀ k' r', holds' k' r' ↔ holds k' r' ∧ r' ≠ r := by
    intro k' r'
    by_cases heq : k' = k
    · rw [heq, hself]
    · rw [hother k' r' heq]
      refine ⟨fun hk' => ⟨hk', ?_⟩, And.left⟩
      rintro rfl
      exact heq (h.unique r' k' k hk' hk)
  refine ⟨fun r' => ?_, fun r' k₁ k₂ h₁ h₂ => ?_⟩
  · simp only [hflag, h.held, hholds, exists_and_right]
  · exact h.unique r' k₁ k₂ ((hholds k₁ r').mp h₁).1 ((hholds k₂ r').mp h₂).1

/-- The holder passes the resource on: it gives it back, and another takes it. -/
theorem handOver {k₀ k : κ} {r : ρ} (hk : holds k₀ r) (hne : k ≠ k₀)
    (hflag : ∀ r', flag' r' ↔ flag r')
    (hother : ∀ k' r', k' ≠ k₀ → k' ≠ k → (holds' k' r' ↔ holds k' r'))
    (hfrom : ∀ r', holds' k₀ r' ↔ holds k₀ r' ∧ r' ≠ r)
    (hto : ∀ r', holds' k r' ↔ holds k r' ∨ r' = r) : Balanced flag' holds' := by
  classical
  have hfree : Balanced (fun r' => flag r' ∧ r' ≠ r)
      (fun k' r' => if k' = k₀ then holds k₀ r' ∧ r' ≠ r else holds k' r') :=
    h.release hk (fun _ => Iff.rfl) (fun k' r' hk' => by rw [if_neg hk'])
      fun r' => by rw [if_pos rfl]
  refine hfree.acquire (k := k) (r := r) (fun hr => hr.2 rfl) (fun r' => ?_) (fun k' r' hk' => ?_)
    fun r' => ?_
  · rw [hflag]
    refine ⟨fun hr => (em (r' = r)).symm.imp_left fun hne => ⟨hr, hne⟩, ?_⟩
    rintro (⟨hr, -⟩ | rfl)
    · exact hr
    · exact (h.held r').mpr ⟨k₀, hk⟩
  · split
    · next heq => rw [heq, hfrom]
    · next heq => exact hother k' r' heq hk'
  · rw [if_neg hne, hto]

end Balanced

end Claim
