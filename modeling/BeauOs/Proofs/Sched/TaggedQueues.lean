/-
A ready queue and a depleted queue whose members carry the name of their queue.

RTDS and BFP link every thread in at most one of two queues and record in the thread which
one it is; unlinking trusts the record.  `TagWf` says that the records are right.  It is
kept by unlinking a thread and by linking an unlinked one, which is all the two policies do.

`TagSpec` restates what `LinkSpec` asks of a policy in terms of the tags alone.
-/
import BeauOs.Lib.Queue
import BeauOs.Proofs.Sched.Linkage

namespace BeauOs.Sched

/-- Each queue holds exactly the threads tagged with it, each once. -/
structure TagWf (tag : Tid → ServerQueue) (ready depleted : List Tid) : Prop where
  ready : Queue.Links ready fun t => tag t = .ready
  depleted : Queue.Links depleted fun t => tag t = .depleted

/-- How often a thread is linked in the two queues together. -/
def tagLinks (ready depleted : List Tid) (t : Tid) : Nat := ready.count t + depleted.count t

namespace TagWf

variable {tag tag' : Tid → ServerQueue} {ready depleted : List Tid} {t : Tid}

theorem empty (h : ∀ t, tag t = .none) : TagWf tag [] [] where
  ready := Queue.Links.empty fun t e => by rw [h t] at e; cases e
  depleted := Queue.Links.empty fun t e => by rw [h t] at e; cases e

variable (h : TagWf tag ready depleted)

include h

theorem congr (ht : ∀ u, tag' u = tag u) : TagWf tag' ready depleted where
  ready := h.ready.congr fun u => by rw [ht]
  depleted := h.depleted.congr fun u => by rw [ht]

theorem unlink (ht : ∀ u, tag' u = if u = t then .none else tag u) :
    TagWf tag' (ready.erase t) (depleted.erase t) where
  ready := (h.ready.erase t).congr fun u => by
    rw [ht]
    by_cases hu : u = t <;> simp [hu]
  depleted := (h.depleted.erase t).congr fun u => by
    rw [ht]
    by_cases hu : u = t <;> simp [hu]

theorem linkReady (p : Tid → Bool) (hnone : tag t = .none)
    (ht : ∀ u, tag' u = if u = t then .ready else tag u) :
    TagWf tag' (Queue.insertBefore p t ready) depleted where
  ready := (h.ready.insertBefore p (by rw [hnone]; simp)).congr fun u => by
    rw [ht]
    by_cases hu : u = t <;> simp [hu]
  depleted := h.depleted.congr fun u => by
    rw [ht]
    by_cases hu : u = t <;> simp [hu, hnone]

theorem linkDepleted (p : Tid → Bool) (hnone : tag t = .none)
    (ht : ∀ u, tag' u = if u = t then .depleted else tag u) :
    TagWf tag' ready (Queue.insertBefore p t depleted) where
  ready := h.ready.congr fun u => by
    rw [ht]
    by_cases hu : u = t <;> simp [hu, hnone]
  depleted := (h.depleted.insertBefore p (by rw [hnone]; simp)).congr fun u => by
    rw [ht]
    by_cases hu : u = t <;> simp [hu]

theorem appendDepleted (hnone : tag t = .none)
    (ht : ∀ u, tag' u = if u = t then .depleted else tag u) :
    TagWf tag' ready (depleted ++ [t]) where
  ready := h.ready.congr fun u => by
    rw [ht]
    by_cases hu : u = t <;> simp [hu, hnone]
  depleted := (h.depleted.append (by rw [hnone]; simp)).congr fun u => by
    rw [ht]
    by_cases hu : u = t <;> simp [hu]

theorem links_eq (t : Tid) : tagLinks ready depleted t = if tag t = .none then 0 else 1 := by
  unfold tagLinks
  cases ht : tag t with
  | none => rw [h.ready.count_eq_zero (by simp [ht]), h.depleted.count_eq_zero (by simp [ht])]; rfl
  | ready => rw [h.ready.count_eq_one ht, h.depleted.count_eq_zero (by simp [ht])]; rfl
  | depleted => rw [h.ready.count_eq_zero (by simp [ht]), h.depleted.count_eq_one ht]; rfl

theorem links_ne_zero (t : Tid) : tagLinks ready depleted t ≠ 0 ↔ tag t ≠ .none := by
  rw [h.links_eq]
  by_cases ht : tag t = .none <;> simp [ht]

theorem links_congr {ready' depleted' : List Tid}
    (h' : TagWf tag' ready' depleted') (ht : tag' t = tag t) :
    tagLinks ready' depleted' t = tagLinks ready depleted t := by
  rw [h'.links_eq, h.links_eq, ht]

theorem links_le_one (t : Tid) : tagLinks ready depleted t ≤ 1 := by
  rw [h.links_eq]
  split <;> omega

end TagWf

/-! ### Policies with tagged queues -/

/-- Where a policy keeps the tag of a thread and the two queues. -/
structure TagView (D P : Type) where
  queue : D → ServerQueue
  ready : P → List Tid
  depleted : P → List Tid

namespace TagView

variable {D P : Type} (v : TagView D P)

def tag (p : PolicyState D P) (t : Tid) : ServerQueue := v.queue (p.data t)

def links (priv : P) (t : Tid) : Nat := tagLinks (v.ready priv) (v.depleted priv) t

def QueueWf (data : Tid → D) (priv : P) : Prop :=
  TagWf (fun t => v.queue (data t)) (v.ready priv) (v.depleted priv)

def Wf (p : PolicyState D P) : Prop := v.QueueWf p.data p.priv

def LinkedFit (ctl : SchedControl) (p : PolicyState D P) : Prop :=
  ∀ u, v.tag p u ≠ .none → ctl.isActive u = true ∧ (ctl.thread u).beBlocking = false

/-- The current thread does not run as active while it is about to block. -/
def CurrFit (ctl : SchedControl) : Prop :=
  ctl.isActive ctl.currObj = true → (ctl.thread ctl.currObj).beBlocking = false

/-- Linked before, or the current thread with a claim to be linked. -/
def Eligible (ctl : SchedControl) (p : PolicyState D P) (u : Tid) : Prop :=
  v.tag p u ≠ .none ∨ (u = ctl.currObj ∧ ctl.isActive u = true)

variable {v} {p q : PolicyState D P} {t u : Tid} {ctl : SchedControl}

theorem links_ne_zero (h : v.Wf p) (t : Tid) : v.links p.priv t ≠ 0 ↔ v.tag p t ≠ .none :=
  TagWf.links_ne_zero h t

theorem links_congr (h : v.Wf p) (hq : v.Wf q) (ht : v.tag q t = v.tag p t) :
    v.links q.priv t = v.links p.priv t := TagWf.links_congr h hq ht

theorem tag_of_data (hd : q.data = p.data) (u : Tid) : v.tag q u = v.tag p u := by
  unfold tag
  rw [hd]

theorem tag_updData {f : D → D} (hf : ∀ d, v.queue (f d) = v.queue d) (u : Tid) :
    v.tag (p.updData t f) u = v.tag p u := by
  unfold tag
  by_cases hu : u = t
  · rw [hu, PolicyState.updData_self, hf]
  · rw [PolicyState.updData_of_ne _ _ hu]

/-! What a function does to the tags: nothing, or one thread gets a new one. -/

/-- The queues are in order and no tag has changed. -/
structure Keeps (v : TagView D P) (p q : PolicyState D P) : Prop where
  wf : v.Wf q
  tag : ∀ u, v.tag q u = v.tag p u

/-- The queues are in order and `t` alone is tagged anew. -/
structure Retags (v : TagView D P) (t : Tid) (x : ServerQueue) (p q : PolicyState D P) : Prop where
  wf : v.Wf q
  tag : ∀ u, v.tag q u = if u = t then x else v.tag p u

variable {r : PolicyState D P} {x y : ServerQueue}

theorem Keeps.refl (h : v.Wf p) : v.Keeps p p := ⟨h, fun _ => rfl⟩

theorem Keeps.of_eq (h : v.Wf p) (hd : q.data = p.data) (hr : v.ready q.priv = v.ready p.priv)
    (hdep : v.depleted q.priv = v.depleted p.priv) : v.Keeps p q := by
  refine ⟨?_, tag_of_data hd⟩
  unfold Wf QueueWf
  rw [hd, hr, hdep]
  exact h

theorem Keeps.updData (h : v.Keeps p q) {f : D → D} (hf : ∀ d, v.queue (f d) = v.queue d)
    (t : Tid) : v.Keeps p (q.updData t f) :=
  ⟨TagWf.congr h.wf fun u => tag_updData hf u, fun u => (tag_updData hf u).trans (h.tag u)⟩

theorem wf_updData (h : v.Wf p) {f : D → D} (hf : ∀ d, v.queue (f d) = v.queue d) :
    v.Wf (p.updData t f) := ((Keeps.refl h).updData hf t).wf

theorem Retags.self (h : v.Retags t x p q) : v.tag q t = x := (h.tag t).trans (if_pos rfl)

theorem Retags.of_ne (h : v.Retags t x p q) (hu : u ≠ t) : v.tag q u = v.tag p u :=
  (h.tag u).trans (if_neg hu)

/-- The thread has the tag already. -/
theorem Retags.refl (h : v.Wf p) (ht : v.tag p t = x) : v.Retags t x p p := by
  refine ⟨h, fun u => ?_⟩
  by_cases hu : u = t
  · rw [if_pos hu, hu]
    exact ht
  · rw [if_neg hu]

theorem Keeps.retags (h : v.Keeps p q) (h' : v.Retags t x q r) : v.Retags t x p r :=
  ⟨h'.wf, fun u => (h'.tag u).trans (by rw [h.tag])⟩

theorem Retags.keeps (h : v.Retags t x p q) (h' : v.Keeps q r) : v.Retags t x p r :=
  ⟨h'.wf, fun u => (h'.tag u).trans (h.tag u)⟩

theorem Retags.retags (h : v.Retags t x p q) (h' : v.Retags t y q r) : v.Retags t y p r := by
  refine ⟨h'.wf, fun u => ?_⟩
  by_cases hu : u = t
  · rw [if_pos hu, hu]
    exact h'.self
  · rw [if_neg hu, h'.of_ne hu, h.of_ne hu]

/-- The tag of a thread is written, and the queues follow. -/
theorem Retags.of_updData {f : D → D} (hf : ∀ d, v.queue (f d) = x)
    (hdata : q.data = (p.updData t f).data)
    (hwf : (∀ u, v.tag q u = if u = t then x else v.tag p u) → v.Wf q) : v.Retags t x p q := by
  have htag : ∀ u, v.tag q u = if u = t then x else v.tag p u := by
    intro u
    rw [tag_of_data hdata]
    unfold TagView.tag
    by_cases hu : u = t
    · rw [hu, PolicyState.updData_self, if_pos rfl, hf]
    · rw [PolicyState.updData_of_ne _ _ hu, if_neg hu]
  exact ⟨hwf htag, htag⟩

theorem linkedFit (h : v.Wf p) (hact : ∀ u, v.links p.priv u ≠ 0 → ctl.isActive u = true)
    (hnb : ActiveNotBlocking ctl v.links p.priv) : v.LinkedFit ctl p := by
  intro u hu
  have hl := (links_ne_zero h u).mpr hu
  exact ⟨hact u hl, hnb u (.inl hl) (hact u hl)⟩

theorem LinkedFit.idle (hfit : v.LinkedFit ctl p) : v.tag p ctl.idle = .none := by
  by_contra hne
  exact (SchedControl.isActive_iff.mp (hfit _ hne).1).1 rfl

theorem LinkedFit.eligible (hfit : v.LinkedFit ctl p) (hcurr : CurrFit ctl)
    (hq : ∀ u, v.tag q u ≠ .none → v.Eligible ctl p u) : v.LinkedFit ctl q := by
  intro u hu
  rcases hq u hu with hold | ⟨rfl, hact⟩
  · exact hfit u hold
  · exact ⟨hact, hcurr hact⟩

end TagView

/-- What the hooks of a policy with tagged queues do to the tags. -/
structure TagSpec {D P : Type} (sch : AcrnScheduler D P) (v : TagView D P)
    (Relinks : Nat → (Tid → D) → P → Prop) : Prop where
  wake : ∀ (env : Env) (ctl : SchedControl) (t : Tid) (p : PolicyState D P), v.Wf p →
    let p' := sch.callWake env ctl t p
    v.Wf p' ∧ v.tag p' t ≠ .none ∧ ∀ u, u ≠ t → v.tag p' u = v.tag p u
  sleep : ∀ (env : Env) (ctl : SchedControl) (t : Tid) (p : PolicyState D P), v.Wf p →
    let p' := sch.callSleep env ctl t p
    v.Wf p' ∧ ∀ u, v.tag p' u = if u = t then .none else v.tag p u
  prioritize : ∀ (now : Nat) (ctl : SchedControl) (t : Tid) (p : PolicyState D P), v.Wf p →
    let p' := sch.callPrioritize now ctl t p
    v.Wf p' ∧ (∀ u, u ≠ t → v.tag p' u = v.tag p u) ∧
      (v.tag p t ≠ .none → v.tag p' t ≠ .none) ∧
      (t = ctl.currObj → v.tag p' t = v.tag p t)
  prioritize_relinks : ∀ (now : Nat) (ctl : SchedControl) (t : Tid) (p : PolicyState D P),
    Relinks now p.data p.priv →
    let p' := sch.callPrioritize now ctl t p
    Relinks now p'.data p'.priv
  timer : ∀ (now : Nat) (ctl : SchedControl) (p : PolicyState D P), v.Wf p →
    v.LinkedFit ctl p → TagView.CurrFit ctl →
    let p' := (sch.timerHandler now ctl p).1
    v.Wf p' ∧ (∀ u, v.tag p' u ≠ .none → v.Eligible ctl p u) ∧
      (Relinks now p.data p.priv → ∀ u, v.tag p u ≠ .none → v.tag p' u ≠ .none)
  /-- `pick_next` is a refresh, to some `q`, and unlinking the thread it returns. -/
  pickNext : ∀ (now : Nat) (ctl : SchedControl) (p : PolicyState D P), v.Wf p →
    v.LinkedFit ctl p → TagView.CurrFit ctl →
    let next := (sch.pickNext now ctl p).1
    let p' := (sch.pickNext now ctl p).2
    ∃ q, (∀ u, v.tag q u ≠ .none → v.Eligible ctl p u) ∧
      (Relinks now p.data p.priv → ∀ u, v.Eligible ctl p u → v.tag q u ≠ .none) ∧
      v.Wf p' ∧ (next ≠ ctl.idle → v.tag q next ≠ .none) ∧
      ∀ u, v.tag p' u = if u = next then .none else v.tag q u

section TagSpecLinks

variable {D P : Type} {sch : AcrnScheduler D P} {v : TagView D P}
  {Relinks : Nat → (Tid → D) → P → Prop} {p : PolicyState D P} {ctl : SchedControl}

theorem TagView.eligible_iff (h : v.Wf p) (u : Tid) :
    v.Eligible ctl p u ↔ v.links p.priv u ≠ 0 ∨ (u = ctl.currObj ∧ ctl.isActive u = true) := by
  unfold Eligible
  rw [links_ne_zero h]

theorem TagSpec.pickNext_links (spec : TagSpec sch v Relinks) (now : Nat) (h : v.Wf p)
    (hfit : v.LinkedFit ctl p) (hcurr : TagView.CurrFit ctl) :
    let next := (sch.pickNext now ctl p).1
    let p' := (sch.pickNext now ctl p).2
    v.Wf p' ∧ (next ≠ ctl.idle → v.Eligible ctl p next) ∧
      (∀ u, v.links p'.priv u ≠ 0 → v.Eligible ctl p u) ∧
      (Relinks now p.data p.priv → ∀ u, u ≠ next → v.Eligible ctl p u →
        v.links p'.priv u ≠ 0) := by
  obtain ⟨q, hfrom, hkeep, hwf, hnext, htag⟩ := spec.pickNext now ctl p h hfit hcurr
  refine ⟨hwf, fun hne => hfrom _ (hnext hne), ?_, ?_⟩
  · intro u hu
    have hne := (TagView.links_ne_zero hwf u).mp hu
    rw [htag u] at hne
    by_cases hun : u = (sch.pickNext now ctl p).1
    · exact absurd (if_pos hun) hne
    · rw [if_neg hun] at hne
      exact hfrom u hne
  · intro hrel u hun hold
    rw [TagView.links_ne_zero hwf, htag u, if_neg hun]
    exact hkeep hrel u hold

theorem TagSpec.linkSpec (spec : TagSpec sch v Relinks) :
    LinkSpec sch v.links v.QueueWf Relinks where
  le_one h t := TagWf.links_le_one h t
  wake env ctl t p h _ := by
    obtain ⟨hwf, hlink, hother⟩ := spec.wake env ctl t p h
    refine ⟨hwf, ?_, fun u hu => TagView.links_congr h hwf (hother u hu)⟩
    exact (TagWf.links_eq hwf t).trans (if_neg hlink)
  sleep env ctl t p h := by
    obtain ⟨hwf, htag⟩ := spec.sleep env ctl t p h
    refine ⟨hwf, ?_, fun u hu => TagView.links_congr h hwf ((htag u).trans (if_neg hu))⟩
    exact (TagWf.links_eq hwf t).trans (if_pos ((htag t).trans (if_pos rfl)))
  prioritize now ctl t p h := by
    obtain ⟨hwf, hother, hkeep, hcur⟩ := spec.prioritize now ctl t p h
    refine ⟨hwf, fun u hu => TagView.links_congr h hwf (hother u hu), ?_,
      fun e => TagView.links_congr h hwf (hcur e)⟩
    intro hl
    exact (TagView.links_ne_zero hwf t).mpr (hkeep ((TagView.links_ne_zero h t).mp hl))
  prioritize_relinks := spec.prioritize_relinks
  timer now ctl p h hact hnb := by
    obtain ⟨hwf, hfrom, hkeep⟩ :=
      spec.timer now ctl p h (TagView.linkedFit h hact hnb) (hnb _ (.inr rfl))
    refine ⟨hwf, fun u hu => ?_, fun hrel u hu => ?_⟩
    · exact (TagView.eligible_iff h u).mp (hfrom u ((TagView.links_ne_zero hwf u).mp hu))
    · exact (TagView.links_ne_zero hwf u).mpr
        (hkeep hrel u ((TagView.links_ne_zero h u).mp hu))
  pickNext now ctl p h hact hnb := by
    have hlinks := spec.pickNext_links now h (TagView.linkedFit h hact hnb) (hnb _ (.inr rfl))
    simp only [TagView.eligible_iff (p := p) h] at hlinks
    exact hlinks

end TagSpecLinks

end BeauOs.Sched
