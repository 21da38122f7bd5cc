/-
The thread states the framework keeps.

On every pCPU exactly the current thread is RUNNING, only the current thread can be about
to block, and idle is never blocked.  `CtlInv` says so, and every entry point of the
framework keeps it whatever the policy's hooks do, because a hook cannot touch the thread
objects; all it can do is name the next thread, which has to be one of this pCPU's.

Most entry points change flags only.  `SameView` is what such a step leaves alone, and
everything below that speaks about thread states is stable under it.
-/
import BeauOs.Sched.Framework

namespace BeauOs.Sched

open SchedControl

namespace SchedControl

def Local (ctl : SchedControl) (t : Tid) : Prop := (ctl.thread t).pcpuId = ctl.pcpuId

instance (ctl : SchedControl) (t : Tid) : Decidable (ctl.Local t) :=
  inferInstanceAs (Decidable ((ctl.thread t).pcpuId = ctl.pcpuId))

theorem isActive_iff {ctl : SchedControl} {t : Tid} :
    ctl.isActive t = true ↔ t ≠ ctl.idle ∧
      ((t = ctl.currObj ∧ (ctl.thread t).beBlocking = false) ∨
        (ctl.thread t).status = .runnable) := by
  simp [isActive, isIdleThread, isCurrent, @eq_comm _ ctl.currObj t]

theorem updThread_local {ctl : SchedControl} {t u : Tid} {f : ThreadObject → ThreadObject}
    (hp : ∀ o, (f o).pcpuId = o.pcpuId) : (ctl.updThread t f).Local u ↔ ctl.Local u := by
  unfold Local
  by_cases hu : u = t
  · rw [hu, updThread_self, hp]
    rfl
  · rw [ctl.updThread_of_ne f hu]
    rfl

end SchedControl

/-- The thread states of a pCPU fit together. -/
structure CtlInv (ctl : SchedControl) : Prop where
  idle_local : ctl.Local ctl.idle
  curr_local : ctl.Local ctl.currObj
  running : ∀ t, ctl.Local t → ((ctl.thread t).status = .running ↔ t = ctl.currObj)
  blocking : ∀ t, ctl.Local t → (ctl.thread t).beBlocking = true → t = ctl.currObj
  idle_blocking : (ctl.thread ctl.idle).beBlocking = false
  idle_status : (ctl.thread ctl.idle).status ≠ .blocked
  idle_priority : (ctl.thread ctl.idle).priorityPending = false
  registered : ∀ t, ctl.Local t → (ctl.thread t).status ≠ .blocked → t ∈ ctl.threadList
  registry_nodup : ctl.threadList.Nodup

namespace CtlInv

variable {ctl : SchedControl} {t : Tid}

variable (h : CtlInv ctl)

include h

theorem curr_running : (ctl.thread ctl.currObj).status = .running :=
  (h.running _ h.curr_local).mpr rfl

theorem runnable_of_ne (hlocal : ctl.Local t) (hne : t ≠ ctl.currObj)
    (hst : (ctl.thread t).status ≠ .blocked) : (ctl.thread t).status = .runnable := by
  have hrun : (ctl.thread t).status ≠ .running := fun e => hne ((h.running t hlocal).mp e)
  cases hs : (ctl.thread t).status with
  | running => exact absurd hs hrun
  | runnable => rfl
  | blocked => exact absurd hs hst

/-- The current thread is active exactly if it is neither idle nor about to block. -/
theorem curr_active_iff :
    ctl.isActive ctl.currObj = true ↔
      ctl.currObj ≠ ctl.idle ∧ (ctl.thread ctl.currObj).beBlocking = false := by
  rw [isActive_iff, h.curr_running]
  simp

theorem not_active_of_blocked (hlocal : ctl.Local t) (hst : (ctl.thread t).status = .blocked) :
    ctl.isActive t = false := by
  rw [Bool.eq_false_iff]
  intro hact
  obtain ⟨-, ⟨hcur, -⟩ | hrun⟩ := isActive_iff.mp hact
  · rw [(h.running t hlocal).mpr hcur] at hst
    cases hst
  · rw [hst] at hrun
    cases hrun

theorem not_active_of_blocking (hlocal : ctl.Local t) (hb : (ctl.thread t).beBlocking = true) :
    ctl.isActive t = false := by
  obtain rfl := h.blocking t hlocal hb
  rw [Bool.eq_false_iff, Ne, h.curr_active_iff]
  rintro ⟨-, hnb⟩
  rw [hb] at hnb
  cases hnb

end CtlInv

/-! ### Steps that leave the thread states alone -/

/-- The two control blocks agree on everything a thread's state depends on. -/
structure SameView (ctl ctl' : SchedControl) : Prop where
  pcpuId : ctl'.pcpuId = ctl.pcpuId
  currObj : ctl'.currObj = ctl.currObj
  idle : ctl'.idle = ctl.idle
  threadList : ctl'.threadList = ctl.threadList
  threadPcpu : ∀ t, (ctl'.thread t).pcpuId = (ctl.thread t).pcpuId
  status : ∀ t, (ctl'.thread t).status = (ctl.thread t).status
  beBlocking : ∀ t, (ctl'.thread t).beBlocking = (ctl.thread t).beBlocking
  idle_priority : (ctl.thread ctl.idle).priorityPending = false →
    (ctl'.thread ctl.idle).priorityPending = false

namespace SameView

variable {ctl ctl' ctl'' : SchedControl}

/-- The thread objects and the fields that name threads are the same. -/
theorem of_eq (hp : ctl'.pcpuId = ctl.pcpuId) (hc : ctl'.currObj = ctl.currObj)
    (hi : ctl'.idle = ctl.idle) (hl : ctl'.threadList = ctl.threadList)
    (ht : ctl'.thread = ctl.thread) : SameView ctl ctl' :=
  ⟨hp, hc, hi, hl, fun _ => by rw [ht], fun _ => by rw [ht], fun _ => by rw [ht],
    fun h => by rw [ht]; exact h⟩

theorem refl (ctl : SchedControl) : SameView ctl ctl := of_eq rfl rfl rfl rfl rfl

theorem trans (h₁ : SameView ctl ctl') (h₂ : SameView ctl' ctl'') : SameView ctl ctl'' where
  pcpuId := h₂.pcpuId.trans h₁.pcpuId
  currObj := h₂.currObj.trans h₁.currObj
  idle := h₂.idle.trans h₁.idle
  threadList := h₂.threadList.trans h₁.threadList
  threadPcpu t := (h₂.threadPcpu t).trans (h₁.threadPcpu t)
  status t := (h₂.status t).trans (h₁.status t)
  beBlocking t := (h₂.beBlocking t).trans (h₁.beBlocking t)
  idle_priority h := by
    have h₁' := h₁.idle_priority h
    rw [← h₁.idle] at h₁' ⊢
    exact h₂.idle_priority h₁'

/-- Changing flags of one thread; idle's priority flag may only be cleared. -/
theorem updThread (t : Tid) {f : ThreadObject → ThreadObject}
    (hp : ∀ o, (f o).pcpuId = o.pcpuId) (hs : ∀ o, (f o).status = o.status)
    (hb : ∀ o, (f o).beBlocking = o.beBlocking)
    (hprio : t ≠ ctl.idle ∨
      ∀ o : ThreadObject, o.priorityPending = false → (f o).priorityPending = false) :
    SameView ctl (ctl.updThread t f) := by
  have hthread : ∀ u, (ctl.updThread t f).thread u = f (ctl.thread u) ∧ u = t ∨
      (ctl.updThread t f).thread u = ctl.thread u := by
    intro u
    by_cases hu : u = t
    · subst hu
      exact .inl ⟨ctl.updThread_self u f, rfl⟩
    · exact .inr (ctl.updThread_of_ne f hu)
  refine ⟨rfl, rfl, rfl, rfl, ?_, ?_, ?_, ?_⟩
  · intro u
    rcases hthread u with ⟨h, -⟩ | h <;> rw [h]
    exact hp _
  · intro u
    rcases hthread u with ⟨h, -⟩ | h <;> rw [h]
    exact hs _
  · intro u
    rcases hthread u with ⟨h, -⟩ | h <;> rw [h]
    exact hb _
  · intro hidle
    rcases hthread ctl.idle with ⟨h, hu⟩ | h <;> rw [h]
    · rcases hprio with hne | hkeep
      · exact absurd hu.symm hne
      · exact hkeep _ hidle
    · exact hidle

theorem local_iff (h : SameView ctl ctl') {t : Tid} : ctl'.Local t ↔ ctl.Local t := by
  unfold SchedControl.Local
  rw [h.threadPcpu, h.pcpuId]

theorem isActive (h : SameView ctl ctl') (t : Tid) : ctl'.isActive t = ctl.isActive t := by
  unfold SchedControl.isActive isIdleThread isCurrent
  rw [h.idle, h.currObj, h.status, h.beBlocking]

theorem ctlInv (h : SameView ctl ctl') (hinv : CtlInv ctl) : CtlInv ctl' where
  idle_local := by rw [h.idle, h.local_iff]; exact hinv.idle_local
  curr_local := by rw [h.currObj, h.local_iff]; exact hinv.curr_local
  running t ht := by rw [h.status, h.currObj]; exact hinv.running t (h.local_iff.mp ht)
  blocking t ht hb := by
    rw [h.beBlocking] at hb
    rw [h.currObj]
    exact hinv.blocking t (h.local_iff.mp ht) hb
  idle_blocking := by rw [h.idle, h.beBlocking]; exact hinv.idle_blocking
  idle_status := by rw [h.idle, h.status]; exact hinv.idle_status
  idle_priority := by rw [h.idle]; exact h.idle_priority hinv.idle_priority
  registered t ht hst := by
    rw [h.status] at hst
    rw [h.threadList]
    exact hinv.registered t (h.local_iff.mp ht) hst
  registry_nodup := by rw [h.threadList]; exact hinv.registry_nodup

end SameView

/-! ### Steps that change one thread -/

/-- A change of one thread's state that respects who is current. -/
theorem CtlInv.updThread {ctl : SchedControl} (h : CtlInv ctl) {t : Tid} (hne : t ≠ ctl.idle)
    {f : ThreadObject → ThreadObject}
    (hp : ∀ o, (f o).pcpuId = o.pcpuId)
    (hrun : (f (ctl.thread t)).status = .running ↔ t = ctl.currObj)
    (hb : (f (ctl.thread t)).beBlocking = true → t = ctl.currObj)
    (hreg : t ∈ ctl.threadList) : CtlInv (ctl.updThread t f) := by
  have hother : ∀ u, u ≠ t → (ctl.updThread t f).thread u = ctl.thread u :=
    fun u hu => ctl.updThread_of_ne f hu
  have hlocal : ∀ u, (ctl.updThread t f).Local u ↔ ctl.Local u :=
    fun _ => updThread_local hp
  refine ⟨(hlocal _).mpr h.idle_local, (hlocal _).mpr h.curr_local, ?_, ?_, ?_, ?_, ?_, ?_,
    h.registry_nodup⟩
  · intro u hu
    by_cases hut : u = t
    · subst hut
      rw [ctl.updThread_self]
      exact hrun
    · rw [hother u hut]
      exact h.running u ((hlocal u).mp hu)
  · intro u hu hub
    by_cases hut : u = t
    · subst hut
      rw [ctl.updThread_self] at hub
      exact hb hub
    · rw [hother u hut] at hub
      exact h.blocking u ((hlocal u).mp hu) hub
  · show ((ctl.updThread t f).thread ctl.idle).beBlocking = false
    rw [hother _ hne.symm]
    exact h.idle_blocking
  · show ((ctl.updThread t f).thread ctl.idle).status ≠ .blocked
    rw [hother _ hne.symm]
    exact h.idle_status
  · show ((ctl.updThread t f).thread ctl.idle).priorityPending = false
    rw [hother _ hne.symm]
    exact h.idle_priority
  · intro u hu hst
    by_cases hut : u = t
    · exact hut ▸ hreg
    · rw [hother u hut] at hst
      exact h.registered u ((hlocal u).mp hu) hst

theorem isActive_updThread {ctl : SchedControl} {t u : Tid} (f : ThreadObject → ThreadObject)
    (h : u ≠ t) : (ctl.updThread t f).isActive u = ctl.isActive u := by
  unfold isActive
  rw [ctl.updThread_of_ne f h]
  rfl

/-! ### The context switch -/

section Switch

variable {ctl : SchedControl} {now : Nat} {next : Tid}

theorem switchTo_curr (h : ctl.currObj = next) : switchTo ctl now next = ctl := by
  unfold switchTo
  exact if_neg (not_not.mpr h)

@[simp] theorem switchTo_idle : (switchTo ctl now next).idle = ctl.idle := by
  unfold switchTo
  dsimp only
  split <;> rfl

@[simp] theorem switchTo_pcpuId : (switchTo ctl now next).pcpuId = ctl.pcpuId := by
  unfold switchTo
  dsimp only
  split <;> rfl

@[simp] theorem switchTo_threadList : (switchTo ctl now next).threadList = ctl.threadList := by
  unfold switchTo
  dsimp only
  split <;> rfl

@[simp] theorem switchTo_currObj : (switchTo ctl now next).currObj = next := by
  by_cases h : ctl.currObj = next
  · rw [switchTo_curr h, h]
  · unfold switchTo
    rw [if_pos h]

theorem switchTo_thread (h : ctl.currObj ≠ next) :
    (switchTo ctl now next).thread =
      Function.update
        (Function.update ctl.thread ctl.currObj
          { ctl.thread ctl.currObj with
            latency := (ctl.thread ctl.currObj).latency.markNotRunning now
              (!(ctl.thread ctl.currObj).beBlocking)
            status := if (ctl.thread ctl.currObj).beBlocking then .blocked else .runnable
            beBlocking := false })
        next
        { ctl.thread next with
          latency := (ctl.thread next).latency.markRunning ctl.tickrate now
          status := .running } := by
  unfold switchTo
  rw [if_pos h]
  simp only [updThread, Function.update_of_ne (Ne.symm h)]

theorem switchTo_next (h : ctl.currObj ≠ next) :
    (switchTo ctl now next).thread next =
      { ctl.thread next with
        latency := (ctl.thread next).latency.markRunning ctl.tickrate now, status := .running } := by
  rw [switchTo_thread h, Function.update_self]

theorem switchTo_prev (h : ctl.currObj ≠ next) :
    (switchTo ctl now next).thread ctl.currObj =
      { ctl.thread ctl.currObj with
        latency := (ctl.thread ctl.currObj).latency.markNotRunning now
          (!(ctl.thread ctl.currObj).beBlocking)
        status := if (ctl.thread ctl.currObj).beBlocking then .blocked else .runnable
        beBlocking := false } := by
  rw [switchTo_thread h, Function.update_of_ne h, Function.update_self]

theorem switchTo_other {t : Tid} (hprev : t ≠ ctl.currObj) (hnext : t ≠ next) :
    (switchTo ctl now next).thread t = ctl.thread t := by
  by_cases h : ctl.currObj = next
  · rw [switchTo_curr h]
  · rw [switchTo_thread h, Function.update_of_ne hnext, Function.update_of_ne hprev]

theorem switchTo_local {t : Tid} : (switchTo ctl now next).Local t ↔ ctl.Local t := by
  unfold SchedControl.Local
  rw [switchTo_pcpuId]
  by_cases h : ctl.currObj = next
  · rw [switchTo_curr h]
  by_cases hnext : t = next
  · rw [hnext, switchTo_next h]
  by_cases hprev : t = ctl.currObj
  · rw [hprev, switchTo_prev h]
  · rw [switchTo_other hprev hnext]

/-- **A context switch to a thread of this pCPU keeps the thread states in order.** -/
theorem CtlInv.switchTo (hinv : CtlInv ctl) (hlocal : ctl.Local next)
    (hst : (ctl.thread next).status ≠ .blocked) : CtlInv (switchTo ctl now next) := by
  by_cases h : ctl.currObj = next
  · rw [switchTo_curr h]
    exact hinv
  have hnb : (ctl.thread next).beBlocking = false := by
    rw [Bool.eq_false_iff]
    exact fun hb => h (hinv.blocking next hlocal hb).symm
  refine ⟨?_, ?_, ?_, ?_, ?_, ?_, ?_, ?_, by rw [switchTo_threadList]; exact hinv.registry_nodup⟩
  · rw [switchTo_local, switchTo_idle]
    exact hinv.idle_local
  · rw [switchTo_local, switchTo_currObj]
    exact hlocal
  · intro t ht
    rw [switchTo_currObj]
    by_cases hnext : t = next
    · simp [hnext, switchTo_next h]
    by_cases hprev : t = ctl.currObj
    · rw [hprev, switchTo_prev h]
      simp only [h, iff_false]
      split <;> simp
    · rw [switchTo_other hprev hnext, hinv.running t (switchTo_local.mp ht)]
      simp [hprev, hnext]
  · intro t ht hb
    rw [switchTo_currObj]
    by_cases hnext : t = next
    · exact hnext
    by_cases hprev : t = ctl.currObj
    · rw [hprev, switchTo_prev h] at hb
      cases hb
    · rw [switchTo_other hprev hnext] at hb
      exact absurd (hinv.blocking t (switchTo_local.mp ht) hb) hprev
  · rw [switchTo_idle]
    by_cases hnext : ctl.idle = next
    · rw [hnext, switchTo_next h]
      exact hnb
    by_cases hprev : ctl.idle = ctl.currObj
    · rw [hprev, switchTo_prev h]
    · rw [switchTo_other hprev hnext]
      exact hinv.idle_blocking
  · rw [switchTo_idle]
    by_cases hnext : ctl.idle = next
    · rw [hnext, switchTo_next h]
      simp
    by_cases hprev : ctl.idle = ctl.currObj
    · have hidle := hinv.idle_blocking
      rw [hprev] at hidle ⊢
      rw [switchTo_prev h]
      simp [hidle]
    · rw [switchTo_other hprev hnext]
      exact hinv.idle_status
  · rw [switchTo_idle]
    by_cases hnext : ctl.idle = next
    · rw [hnext, switchTo_next h, ← hnext]
      exact hinv.idle_priority
    by_cases hprev : ctl.idle = ctl.currObj
    · rw [hprev, switchTo_prev h, ← hprev]
      exact hinv.idle_priority
    · rw [switchTo_other hprev hnext]
      exact hinv.idle_priority
  · intro t ht hst'
    rw [switchTo_threadList]
    by_cases hnext : t = next
    · rw [hnext]
      exact hinv.registered next hlocal hst
    by_cases hprev : t = ctl.currObj
    · rw [hprev]
      exact hinv.registered _ hinv.curr_local (by rw [hinv.curr_running]; simp)
    · rw [switchTo_other hprev hnext] at hst'
      exact hinv.registered t (switchTo_local.mp ht) hst'

/-- A context switch changes who runs, never who is active. -/
theorem isActive_switchTo (hinv : CtlInv ctl) (hlocal : ctl.Local next)
    (hst : (ctl.thread next).status ≠ .blocked) (t : Tid) :
    (switchTo ctl now next).isActive t = ctl.isActive t := by
  by_cases h : ctl.currObj = next
  · rw [switchTo_curr h]
  rw [Bool.eq_iff_iff, isActive_iff, isActive_iff, switchTo_idle,
    switchTo_currObj]
  by_cases hnext : t = next
  · subst hnext
    have hnb : (ctl.thread t).beBlocking = false := by
      rw [Bool.eq_false_iff]
      exact fun hb => h (hinv.blocking t hlocal hb).symm
    rw [switchTo_next h, hinv.runnable_of_ne hlocal (Ne.symm h) hst]
    simp [hnb]
  by_cases hprev : t = ctl.currObj
  · subst hprev
    rw [switchTo_prev h, hinv.curr_running]
    cases (ctl.thread ctl.currObj).beBlocking <;> simp [h]
  · rw [switchTo_other hprev hnext]
    simp [hprev, hnext]

end Switch

end BeauOs.Sched
