/-
Which window of the major frame `arinc653_advance` finds.

The windows lie one after the other from the start of the frame, and frames follow each
other without gaps.  So the window at a time is a function of the offset into the frame
(`windowAt`), and the frame a time belongs to starts at the last point of a grid
(`frameOf`).  The code keeps an index and the end of the current window instead and steps
them forward; `OnGrid` is what ties the two together, and it is kept as long as the clock
does not run backwards.
-/
import Mathlib.Algebra.Order.Group.Nat
import Mathlib.Data.List.Basic
import BeauOs.Lib.Run
import BeauOs.Sched.Arinc653
import BeauOs.Proofs.Sched.Steps

namespace BeauOs.Sched

/-- The entry whose window contains the offset; `none` in the idle tail. -/
def windowAt : List ArincEntry → Nat → Option ArincEntry
  | [], _ => none
  | e :: rest, offset =>
    if offset < e.runtimeTicks then some e else windowAt rest (offset - e.runtimeTicks)

/-- The length of the windows of a list of entries together. -/
def totalRuntime (entries : List ArincEntry) : Nat := (entries.map (·.runtimeTicks)).sum

/-- The end of the first `n` windows, from the start of the frame. -/
def windowsEnd (entries : List ArincEntry) (n : Nat) : Nat := totalRuntime (entries.take n)

theorem windowsEnd_zero (entries : List ArincEntry) : windowsEnd entries 0 = 0 := rfl

theorem windowsEnd_cons (e : ArincEntry) (rest : List ArincEntry) (n : Nat) :
    windowsEnd (e :: rest) (n + 1) = e.runtimeTicks + windowsEnd rest n := by
  simp [windowsEnd, totalRuntime]

theorem windowsEnd_succ {entries : List ArincEntry} {n : Nat} (h : n < entries.length) :
    windowsEnd entries (n + 1) = windowsEnd entries n + entries[n].runtimeTicks := by
  unfold windowsEnd totalRuntime
  rw [List.take_succ_eq_append_getElem h, List.map_append, List.sum_append]
  simp

theorem windowsEnd_le_total (entries : List ArincEntry) (n : Nat) :
    windowsEnd entries n ≤ totalRuntime entries := by
  induction entries generalizing n with
  | nil => simp [windowsEnd]
  | cons e rest ih =>
    cases n with
    | zero => simp [windowsEnd, totalRuntime]
    | succ n =>
      have hle := ih n
      rw [windowsEnd_cons]
      simp only [totalRuntime, List.map_cons, List.sum_cons] at hle ⊢
      omega

/-- Window `i` of the table contains the offset; the index past the last window is the idle tail. -/
structure WindowIs (entries : List ArincEntry) (offset i : Nat) : Prop where
  index_le : i ≤ entries.length
  started : windowsEnd entries i ≤ offset
  not_over : i < entries.length → offset < windowsEnd entries (i + 1)

theorem windowAt_eq {entries : List ArincEntry} {i offset : Nat} (h : WindowIs entries offset i) :
    windowAt entries offset = entries[i]? := by
  obtain ⟨hi, hstart, hend⟩ := h
  induction entries generalizing i offset with
  | nil => simp [windowAt]
  | cons e rest ih =>
    unfold windowAt
    cases i with
    | zero =>
      have hlt := hend (by simp)
      rw [windowsEnd_cons, windowsEnd_zero] at hlt
      rw [if_pos (by omega)]
      rfl
    | succ i =>
      rw [windowsEnd_cons] at hstart
      rw [if_neg (by omega), List.getElem?_cons_succ]
      refine ih (by simpa using hi) (by omega) fun hlt => ?_
      have hlt' := hend (by simpa using hlt)
      rw [windowsEnd_cons] at hlt'
      omega

namespace ArincControl

variable {c : ArincControl} {now τ : Nat}

/-- The start of the frame that contains `now`, on the grid through the recorded start. -/
def frameOf (c : ArincControl) (now : Nat) : Nat :=
  now - (now - c.frameStartTicks) % c.majorFrameTicks

/-- A table `set_schedule` accepts. -/
structure TableOk (c : ArincControl) : Prop where
  major_pos : 0 < c.majorFrameTicks
  fits : totalRuntime c.entries ≤ c.majorFrameTicks
  bounded : c.entries.length ≤ arincMaxEntries

/-- The index and the end of its window agree with the start of the frame, at time `τ`. -/
structure InFrame (c : ArincControl) (τ : Nat) : Prop where
  next_major : c.nextMajorFrameTicks = c.frameStartTicks + c.majorFrameTicks
  no_wrap : c.frameStartTicks + c.majorFrameTicks ≤ uint64Max
  index_le : c.schedIndex ≤ c.entries.length
  next_switch : c.schedIndex < c.entries.length →
    c.nextSwitchTicks = c.frameStartTicks + windowsEnd c.entries (c.schedIndex + 1)
  passed : c.frameStartTicks + windowsEnd c.entries c.schedIndex ≤ τ

/-- The last frame that could be recorded is over, and the next one does not fit any more. -/
structure PastLastFrame (c : ArincControl) : Prop where
  next_major_pos : 0 < c.nextMajorFrameTicks
  next_major : c.nextMajorFrameTicks ≤ c.frameStartTicks
  grid : (c.frameStartTicks - c.nextMajorFrameTicks) % c.majorFrameTicks = 0

/-- What holds of the frame of a pCPU after the clock has shown `τ`. -/
structure OnGrid (c : ArincControl) (τ : Nat) : Prop where
  table : c.TableOk
  started : c.frameStartTicks ≤ τ
  frame : c.InFrame τ ∨ c.PastLastFrame

theorem InFrame.mono {τ' : Nat} (h : c.InFrame τ) (hle : τ ≤ τ') : c.InFrame τ' :=
  ⟨h.next_major, h.no_wrap, h.index_le, h.next_switch, h.passed.trans hle⟩

theorem OnGrid.mono {τ' : Nat} (h : c.OnGrid τ) (hle : τ ≤ τ') : c.OnGrid τ' :=
  ⟨h.table, h.started.trans hle, h.frame.imp_left fun hf => hf.mono hle⟩

/-! ### Finding the frame -/

theorem runtimeAt_eq {i : Nat} (h : i < c.entries.length) :
    c.runtimeAt i = c.entries[i].runtimeTicks := by
  unfold runtimeAt
  rw [List.getElem?_eq_getElem h]

/-- The first window of a frame that starts at `start`. -/
theorem add64_runtime_zero (ht : c.TableOk) (hne : c.entries ≠ []) {start : Nat}
    (hfit : start + c.majorFrameTicks ≤ uint64Max) :
    add64 start (c.runtimeAt 0) = start + windowsEnd c.entries 1 := by
  have hpos : 0 < c.entries.length := List.length_pos_iff.mpr hne
  have hend : windowsEnd c.entries 1 = c.runtimeAt 0 := by
    rw [windowsEnd_succ hpos, windowsEnd_zero, runtimeAt_eq hpos, Nat.zero_add]
  have hle := windowsEnd_le_total c.entries 1
  have hfits := ht.fits
  rw [add64_eq (by omega), hend]

theorem startFrame_eq (ht : c.TableOk) (hne : c.entries ≠ [])
    (hfit : now + c.majorFrameTicks ≤ uint64Max) :
    (c.startFrame now).2 = true ∧ (c.startFrame now).1.entries = c.entries ∧
      (c.startFrame now).1.TableOk ∧ (c.startFrame now).1.frameStartTicks = now ∧
      (c.startFrame now).1.suspended = c.suspended ∧
      (c.startFrame now).1.InFrame now := by
  have hlen : c.entries.length ≠ 0 := fun e => hne (List.length_eq_zero_iff.mp e)
  unfold startFrame
  rw [if_pos ⟨hlen, ht.major_pos.ne', by omega⟩]
  refine ⟨rfl, rfl, ⟨ht.major_pos, ht.fits, ht.bounded⟩, rfl, rfl, rfl, hfit, Nat.zero_le _, ?_, ?_⟩
  · intro _
    exact add64_runtime_zero ht hne hfit
  · exact Nat.le_refl _

/-- Seeking the frame of `now` finds the frame on the grid, if it can still be recorded. -/
theorem seekFrame_spec (h : c.OnGrid τ) (hne : c.entries ≠ []) (hle : τ ≤ now) :
    (c.seekFrame now).1.entries = c.entries ∧ (c.seekFrame now).1.TableOk ∧
      (c.seekFrame now).1.majorFrameTicks = c.majorFrameTicks ∧
      (c.seekFrame now).1.suspended = c.suspended ∧
      (c.seekFrame now).1.frameStartTicks = c.frameOf now ∧
      if c.frameOf now + c.majorFrameTicks ≤ uint64Max then
        (c.seekFrame now).2 = true ∧ (c.seekFrame now).1.InFrame now
      else (c.seekFrame now).2 = false ∧ (c.seekFrame now).1.PastLastFrame := by
  have hpos := h.table.major_pos
  have hstart := h.started.trans hle
  have hnext : c.nextMajorFrameTicks ≠ 0 := by
    rcases h.frame with hf | hp
    · rw [hf.next_major]
      omega
    · exact hp.next_major_pos.ne'
  unfold seekFrame
  rw [if_neg (by omega)]
  by_cases hover : now ≥ c.nextMajorFrameTicks
  · rw [if_pos hover]
    -- the old frame boundary and the old start lie on the same grid
    have hmod : (now - c.nextMajorFrameTicks) % c.majorFrameTicks =
        (now - c.frameStartTicks) % c.majorFrameTicks := by
      rcases h.frame with hf | hp
      · have hsplit : now - c.frameStartTicks =
            now - c.nextMajorFrameTicks + c.majorFrameTicks := by
          have hn := hf.next_major
          omega
        rw [hsplit, Nat.add_mod_right]
      · have hsplit : now - c.nextMajorFrameTicks =
            (now - c.frameStartTicks) + (c.frameStartTicks - c.nextMajorFrameTicks) := by
          have hn := hp.next_major
          omega
        rw [hsplit, Nat.add_mod, hp.grid, Nat.add_zero, Nat.mod_mod]
    have hframe : now - (now - c.nextMajorFrameTicks) % c.majorFrameTicks = c.frameOf now := by
      unfold frameOf
      rw [hmod]
    have hrem : (now - c.nextMajorFrameTicks) % c.majorFrameTicks ≤
        now - c.nextMajorFrameTicks := Nat.mod_le _ _
    dsimp only
    rw [hframe]
    by_cases hfit : c.frameOf now + c.majorFrameTicks ≤ uint64Max
    · rw [if_pos hfit, if_pos (by omega)]
      refine ⟨rfl, ⟨hpos, h.table.fits, h.table.bounded⟩, rfl, rfl, rfl, rfl, rfl, hfit,
        Nat.zero_le _, fun _ => ?_, ?_⟩
      · exact add64_runtime_zero h.table hne hfit
      · show c.frameOf now + 0 ≤ now
        unfold frameOf
        omega
    · rw [if_neg hfit, if_neg (by omega)]
      refine ⟨rfl, ⟨hpos, h.table.fits, h.table.bounded⟩, rfl, rfl, rfl, rfl,
        Nat.pos_of_ne_zero hnext, ?_, ?_⟩
      · show c.nextMajorFrameTicks ≤ c.frameOf now
        omega
      · show (c.frameOf now - c.nextMajorFrameTicks) % c.majorFrameTicks = 0
        have hsub : c.frameOf now - c.nextMajorFrameTicks =
            now - c.nextMajorFrameTicks - (now - c.nextMajorFrameTicks) % c.majorFrameTicks := by
          omega
        rw [hsub]
        exact Nat.mod_eq_zero_of_dvd (Nat.dvd_sub_mod _)
  · rw [if_neg hover]
    rw [ge_iff_le, not_le] at hover
    -- still inside the recorded frame
    rcases h.frame with hf | hp
    · have hframe : c.frameOf now = c.frameStartTicks := by
        have hn := hf.next_major
        unfold frameOf
        rw [Nat.mod_eq_of_lt (by omega)]
        omega
      rw [hframe, if_pos hf.no_wrap]
      exact ⟨rfl, h.table, rfl, rfl, rfl, rfl, hf.mono hle⟩
    · have hn := hp.next_major
      omega

/-! ### Stepping over the windows that have ended -/

/-- The loop stops in the window that contains `now`. -/
theorem skipWindows_spec (steps : Nat) (ht : c.TableOk) (hf : c.InFrame now)
    (hsteps : c.entries.length ≤ c.schedIndex + steps) :
    (skipWindows now steps c).entries = c.entries ∧ (skipWindows now steps c).TableOk ∧
      (skipWindows now steps c).majorFrameTicks = c.majorFrameTicks ∧
      (skipWindows now steps c).suspended = c.suspended ∧
      (skipWindows now steps c).frameStartTicks = c.frameStartTicks ∧
      (skipWindows now steps c).InFrame now ∧
      ((skipWindows now steps c).schedIndex < c.entries.length →
        now < (skipWindows now steps c).nextSwitchTicks) := by
  induction steps generalizing c with
  | zero => exact ⟨rfl, ht, rfl, rfl, rfl, hf, fun hlt => absurd hlt (Nat.not_lt.mpr hsteps)⟩
  | succ steps ih =>
    unfold skipWindows
    by_cases hcond : c.schedIndex < c.entries.length ∧ now ≥ c.nextSwitchTicks
    swap
    · rw [if_neg hcond]
      refine ⟨rfl, ht, rfl, rfl, rfl, hf, fun hlt => ?_⟩
      rw [not_and, ge_iff_le, not_le] at hcond
      exact hcond hlt
    rw [if_pos hcond]
    have hsw := hf.next_switch hcond.1
    refine ih ⟨ht.major_pos, ht.fits, ht.bounded⟩ ⟨hf.next_major, hf.no_wrap, hcond.1, ?_, ?_⟩ ?_
    · intro hlt
      dsimp only at hlt ⊢
      have hle := windowsEnd_le_total c.entries (c.schedIndex + 1 + 1)
      have hsucc := windowsEnd_succ hlt
      have hwrap := hf.no_wrap
      have hfits := ht.fits
      rw [if_pos hlt, runtimeAt_eq hlt, hsw, add64_eq (by omega)]
      omega
    · show c.frameStartTicks + windowsEnd c.entries (c.schedIndex + 1) ≤ now
      omega
    · show c.entries.length ≤ c.schedIndex + 1 + steps
      omega

/-! ### Advancing -/

/-- The owner of the window at `now`; nobody in an idle tail or past the last frame. -/
def ownerAt (c : ArincControl) (now : Nat) : Option Tid :=
  if c.frameOf now + c.majorFrameTicks ≤ uint64Max then
    (windowAt c.entries (now - c.frameOf now)).bind (·.obj)
  else none

/-- What advancing to `now` leaves if the frame of `now` can be recorded. -/
structure Advanced (c c' : ArincControl) (now : Nat) : Prop where
  entries : c'.entries = c.entries
  table : c'.TableOk
  major : c'.majorFrameTicks = c.majorFrameTicks
  suspended : c'.suspended = c.suspended
  frame_start : c'.frameStartTicks = c.frameOf now
  in_frame : c'.InFrame now
  before_switch : c'.schedIndex < c'.entries.length → now < c'.nextSwitchTicks

theorem advance_advanced (h : c.OnGrid τ) (hne : c.entries ≠ []) (hle : τ ≤ now)
    (hfit : c.frameOf now + c.majorFrameTicks ≤ uint64Max) :
    Advanced c (c.advance now).1 now ∧
      (c.advance now).2 = ((c.advance now).1.windowEnd, true) := by
  obtain ⟨hent, htab, hmaj, hsus, hfs, hseek⟩ := seekFrame_spec h hne hle
  have hlen : c.entries.length ≠ 0 := fun e => hne (List.length_eq_zero_iff.mp e)
  have hpos := h.table.major_pos
  rw [if_pos hfit] at hseek
  unfold advance
  rw [if_neg (by omega)]
  dsimp only
  generalize c.seekFrame now = r at hent htab hmaj hsus hfs hseek
  obtain ⟨c₁, valid⟩ := r
  obtain ⟨rfl, hin⟩ := hseek
  dsimp only at hent htab hmaj hsus hfs hin ⊢
  rw [if_pos rfl]
  have hb := htab.bounded
  obtain ⟨hent₂, htab₂, hmaj₂, hsus₂, hfs₂, hin₂, hlt₂⟩ :=
    skipWindows_spec arincMaxEntries htab hin (by omega)
  generalize skipWindows now arincMaxEntries c₁ = c₂ at hent₂ htab₂ hmaj₂ hsus₂ hfs₂ hin₂ hlt₂
  have hadv : Advanced c c₂ now := ⟨hent₂.trans hent, htab₂, hmaj₂.trans hmaj, hsus₂.trans hsus,
    hfs₂.trans hfs, hin₂, fun hlt => hlt₂ (hent₂ ▸ hlt)⟩
  refine ⟨hadv, Prod.ext rfl (decide_eq_true ?_)⟩
  show now < c₂.windowEnd
  unfold windowEnd
  split
  · rename_i hlt
    exact hadv.before_switch hlt
  -- in the idle tail, which ends with the frame
  have hmod := Nat.mod_lt (now - c.frameStartTicks) hpos
  rw [hadv.in_frame.next_major, hadv.frame_start, hadv.major]
  unfold frameOf
  omega

/-- The index lies on the window that contains the offset into the frame. -/
theorem Advanced.windowIs {c' : ArincControl} (h : Advanced c c' now) :
    WindowIs c.entries (now - c.frameOf now) c'.schedIndex := by
  have hp := h.in_frame.passed
  have hi := h.in_frame.index_le
  rw [h.entries] at hi
  rw [h.entries, h.frame_start] at hp
  refine ⟨hi, by omega, fun hlt => ?_⟩
  rw [← h.entries] at hlt
  have hs := h.before_switch hlt
  rw [h.in_frame.next_switch hlt, h.entries, h.frame_start] at hs
  omega

/-- **The code finds the window of the table.** -/
theorem advance_spec (h : c.OnGrid τ) (hne : c.entries ≠ []) (hle : τ ≤ now) :
    (c.advance now).1.entries = c.entries ∧ (c.advance now).1.suspended = c.suspended ∧
      (c.advance now).1.majorFrameTicks = c.majorFrameTicks ∧
      (c.advance now).1.frameStartTicks = c.frameOf now ∧ (c.advance now).1.OnGrid now ∧
      if c.frameOf now + c.majorFrameTicks ≤ uint64Max then
        (c.advance now).2.2 = true ∧
          (c.advance now).1.entries[(c.advance now).1.schedIndex]? =
            windowAt c.entries (now - c.frameOf now)
      else (c.advance now).2.2 = false := by
  have hfle : c.frameOf now ≤ now := Nat.sub_le _ _
  by_cases hfit : c.frameOf now + c.majorFrameTicks ≤ uint64Max
  · obtain ⟨hadv, hres⟩ := advance_advanced h hne hle hfit
    rw [if_pos hfit]
    refine ⟨hadv.entries, hadv.suspended, hadv.major, hadv.frame_start,
      ⟨hadv.table, ?_, .inl hadv.in_frame⟩, by rw [hres], ?_⟩
    · rw [hadv.frame_start]
      exact hfle
    · rw [hadv.entries]
      exact (windowAt_eq hadv.windowIs).symm
  · obtain ⟨hent, htab, hmaj, hsus, hfs, hseek⟩ := seekFrame_spec h hne hle
    have hlen : c.entries.length ≠ 0 := fun e => hne (List.length_eq_zero_iff.mp e)
    have hpos := h.table.major_pos
    rw [if_neg hfit] at hseek ⊢
    unfold advance
    rw [if_neg (by omega)]
    dsimp only
    generalize c.seekFrame now = r at hent htab hmaj hsus hfs hseek
    obtain ⟨c₁, valid⟩ := r
    obtain ⟨rfl, hpast⟩ := hseek
    exact ⟨hent, hsus, hmaj, hfs, ⟨htab, hfs.trans_le hfle, .inr hpast⟩, rfl⟩

end ArincControl

/-! ### Selecting the owner -/

/-- The thread a window's owner makes `pick_next` return. -/
def ownerOrIdle (ctl : SchedControl) (owner : Option Tid) : Tid :=
  match owner with
  | some t => if arincMayRun ctl t then t else ctl.idle
  | none => ctl.idle

theorem arincCandidate_eq (ctl : SchedControl) (c : ArincControl) :
    arincCandidate ctl c = ownerOrIdle ctl (c.entries[c.schedIndex]?.bind (·.obj)) := by
  unfold arincCandidate ownerOrIdle
  rcases c.entries[c.schedIndex]? with _ | ⟨vmId, vcpuId, runtime, _ | t⟩ <;> rfl

theorem ownerOrIdle_runs {ctl : SchedControl} (h : CtlInv ctl) (owner : Option Tid) :
    ctl.Local (ownerOrIdle ctl owner) ∧ (ctl.thread (ownerOrIdle ctl owner)).status ≠ .blocked := by
  unfold ownerOrIdle
  cases owner with
  | none => exact ⟨h.idle_local, h.idle_status⟩
  | some t =>
    dsimp only
    split
    · rename_i hrun
      unfold arincMayRun at hrun
      simp only [Bool.and_eq_true, decide_eq_true_eq] at hrun
      refine ⟨hrun.1.1.2, fun hb => ?_⟩
      have hst := hrun.2
      simp [ThreadObject.isRunnableOrRunning, hb] at hst
    · exact ⟨h.idle_local, h.idle_status⟩

theorem schedArincPickNext_eq (now : Nat) (ctl : SchedControl) (p : ArincState) :
    (schedArincPickNext now ctl p).1 =
      ownerOrIdle ctl (if !p.priv.suspended && (p.priv.advance now).2.2 then
        (p.priv.advance now).1.entries[(p.priv.advance now).1.schedIndex]?.bind (·.obj)
      else none) := by
  unfold schedArincPickNext
  dsimp only
  cases p.priv.suspended with
  | true => rfl
  | false =>
    cases (p.priv.advance now).2.2 with
    | true => exact arincCandidate_eq ctl _
    | false => rfl

theorem arincPicksRunnable : PicksRunnable schedArinc653 := by
  intro now ctl p h
  show ctl.Local (schedArincPickNext now ctl p).1 ∧
    (ctl.thread (schedArincPickNext now ctl p).1).status ≠ .blocked
  rw [schedArincPickNext_eq]
  exact ownerOrIdle_runs h _

/-- The frame of a pCPU, before the first schedule was set or with one. -/
def ArincControl.FrameInv (c : ArincControl) (τ : Nat) : Prop := c.entries = [] ∨ c.OnGrid τ

theorem ArincControl.FrameInv.mono {c : ArincControl} {τ τ' : Nat} (h : c.FrameInv τ)
    (hle : τ ≤ τ') : c.FrameInv τ' := h.imp_right fun hg => hg.mono hle

/-- The cached timer deadline is no part of the frame. -/
theorem ArincControl.OnGrid.setDeadline {c : ArincControl} {τ : Nat} (h : c.OnGrid τ)
    (deadline : Nat) : { c with timerDeadlineTicks := deadline }.OnGrid τ := by
  refine ⟨⟨h.table.major_pos, h.table.fits, h.table.bounded⟩, h.started,
    h.frame.imp (fun hf => ?_) fun hp => ?_⟩
  · exact ⟨hf.next_major, hf.no_wrap, hf.index_le, hf.next_switch, hf.passed⟩
  · exact ⟨hp.next_major_pos, hp.next_major, hp.grid⟩

theorem ArincControl.FrameInv.setDeadline {c : ArincControl} {τ : Nat} (h : c.FrameInv τ)
    (deadline : Nat) : { c with timerDeadlineTicks := deadline }.FrameInv τ :=
  h.imp_right fun hg => hg.setDeadline deadline

theorem arincProgramLocalTimer_priv (deadline : Nat) (p : ArincState) :
    (arincProgramLocalTimer deadline p).priv = { p.priv with timerDeadlineTicks := deadline } := by
  unfold arincProgramLocalTimer
  split
  · rename_i hsame
    rw [hsame.1]
  · rfl

/-- `pick_next` returns the owner of the window at `now`. -/
theorem schedArincPickNext_owner {p : ArincState} {τ now : Nat} (h : p.priv.FrameInv τ)
    (hle : τ ≤ now) (ctl : SchedControl) :
    (schedArincPickNext now ctl p).1 =
      ownerOrIdle ctl (if p.priv.suspended then none else p.priv.ownerAt now) := by
  rw [schedArincPickNext_eq]
  unfold ArincControl.ownerAt
  by_cases hne : p.priv.entries = []
  · have hadv : (p.priv.advance now).2.2 = false := by
      unfold ArincControl.advance
      rw [if_pos (.inl (List.length_eq_zero_iff.mpr hne))]
    rw [hadv, hne]
    cases p.priv.suspended <;> simp [windowAt]
  · obtain ⟨-, -, -, -, -, hadv⟩ := ArincControl.advance_spec (h.resolve_left hne) hne hle
    cases p.priv.suspended with
    | true => rfl
    | false =>
      by_cases hfit : p.priv.frameOf now + p.priv.majorFrameTicks ≤ uint64Max
      · rw [if_pos hfit] at hadv
        simp [hadv.1, hadv.2, hfit]
      · rw [if_neg hfit] at hadv
        simp [hadv, hfit]

theorem ArincControl.FrameInv.pickNext {p : ArincState} {τ now : Nat} (h : p.priv.FrameInv τ)
    (hle : τ ≤ now) (ctl : SchedControl) :
    (schedArincPickNext now ctl p).2.priv.FrameInv now := by
  have htimer : ∀ deadline (q : ArincState), q.priv.FrameInv now →
      (arincProgramLocalTimer deadline q).priv.FrameInv now := by
    intro deadline q hq
    rw [arincProgramLocalTimer_priv]
    exact hq.setDeadline deadline
  unfold schedArincPickNext
  dsimp only
  split
  · exact htimer _ _ (h.mono hle)
  refine htimer _ _ ?_
  by_cases hne : p.priv.entries = []
  · have hadv : (p.priv.advance now).1 = p.priv := by
      unfold ArincControl.advance
      rw [if_pos (.inl (List.length_eq_zero_iff.mpr hne))]
    refine .inl ?_
    show (p.priv.advance now).1.entries = []
    rw [hadv]
    exact hne
  · exact .inr (ArincControl.advance_spec (h.resolve_left hne) hne hle).2.2.2.2.1

/-! ### Setting the schedule -/

/-- Rounding each window down keeps their sum within the rounded frame. -/
theorem arincValidateEntries_total {khz maxVcpus majorFrameUs : Nat} :
    ∀ {entries : List ArincEntryConfig} {total : Nat},
      arincValidateEntries khz maxVcpus majorFrameUs entries total = true →
      total ≤ majorFrameUs →
      total + (entries.map (·.runtimeUs)).sum ≤ majorFrameUs := by
  intro entries
  induction entries with
  | nil => exact fun _ hle => by simpa using hle
  | cons e rest ih =>
    intro total hvalid _
    unfold arincValidateEntries at hvalid
    simp only [Bool.and_eq_true, decide_eq_true_eq] at hvalid
    have hrest := ih hvalid.2 hvalid.1.2
    simp only [List.map_cons, List.sum_cons]
    omega

theorem totalRuntime_ofConfig_le (khz : Nat) (entries : List ArincEntryConfig) :
    totalRuntime (entries.map (ArincEntry.ofConfig khz)) ≤
      usToTicks khz (entries.map (·.runtimeUs)).sum := by
  induction entries with
  | nil => simp [totalRuntime]
  | cons e rest ih =>
    have hsplit : usToTicks khz e.runtimeUs + usToTicks khz (rest.map (·.runtimeUs)).sum ≤
        usToTicks khz (e.runtimeUs + (rest.map (·.runtimeUs)).sum) := by
      unfold usToTicks
      rw [Nat.add_mul]
      omega
    simp only [totalRuntime, List.map_cons, List.sum_cons] at ih ⊢
    show usToTicks khz e.runtimeUs + _ ≤ _
    omega

theorem totalRuntime_resolveEntries (ctl : SchedControl) (c : ArincControl) :
    totalRuntime (c.resolveEntries ctl).entries = totalRuntime c.entries := by
  unfold totalRuntime ArincControl.resolveEntries
  rw [List.map_map]
  rfl

theorem arincValidateConfig_major {khz maxVcpus : Nat} {config : ArincConfig}
    (h : arincValidateConfig khz maxVcpus config = true) : 0 < usToTicks khz config.majorFrameUs := by
  unfold arincValidateConfig at h
  simp only [Bool.and_eq_true, decide_eq_true_eq] at h
  exact Nat.pos_of_ne_zero h.1.2

/-- What an accepted schedule leaves: the table of the configuration and a frame from `now` on. -/
structure ScheduleSet (config : ArincConfig) (now khz : Nat) (c : ArincControl) : Prop where
  nonempty : c.entries ≠ []
  runtimes : c.entries.map (·.runtimeTicks) = config.entries.map fun e => usToTicks khz e.runtimeUs
  major : c.majorFrameTicks = usToTicks khz config.majorFrameUs
  frame_start : c.frameStartTicks = now
  on_grid : c.OnGrid now

variable {s : Pcpu Unit ArincControl}

theorem schedArincSetSchedule_set {now maxVcpus : Nat}
    {config : ArincConfig} (hvalid : arincValidateConfig s.ctl.tickrate maxVcpus config = true)
    (hfit : now + usToTicks s.ctl.tickrate config.majorFrameUs ≤ uint64Max) :
    let out := schedArincSetSchedule maxVcpus now config s
    out.2 = true ∧ SameView s.ctl out.1.ctl ∧
      ScheduleSet config now s.ctl.tickrate out.1.pol.priv ∧
      out.1.pol.priv.suspended = s.pol.priv.suspended := by
  unfold schedArincSetSchedule
  dsimp only
  rw [if_neg (by simpa using hvalid), if_neg (by omega)]
  unfold arincValidateConfig at hvalid
  simp only [Bool.and_eq_true, decide_eq_true_eq] at hvalid
  obtain ⟨⟨⟨⟨-, hlen⟩, hmax⟩, hmajor⟩, hentries⟩ := hvalid
  -- the table as it is written, with its owners looked up
  generalize hc : ({ s.pol.priv with
    majorFrameTicks := usToTicks s.ctl.tickrate config.majorFrameUs
    entries := config.entries.map (ArincEntry.ofConfig s.ctl.tickrate) } : ArincControl) = c
  have hm : (c.resolveEntries s.ctl).majorFrameTicks =
      usToTicks s.ctl.tickrate config.majorFrameUs := by
    rw [← hc]
    rfl
  have hsus : (c.resolveEntries s.ctl).suspended = s.pol.priv.suspended := by
    rw [← hc]
    rfl
  have hruns : (c.resolveEntries s.ctl).entries.map (·.runtimeTicks) =
      config.entries.map fun e => usToTicks s.ctl.tickrate e.runtimeUs := by
    rw [← hc]
    unfold ArincControl.resolveEntries
    rw [List.map_map, List.map_map]
    rfl
  have htotal := arincValidateEntries_total hentries (Nat.zero_le _)
  have htable : (c.resolveEntries s.ctl).TableOk := by
    refine ⟨?_, ?_, ?_⟩
    · rw [hm]
      exact Nat.pos_of_ne_zero hmajor
    · rw [totalRuntime_resolveEntries, ← hc]
      refine (totalRuntime_ofConfig_le _ _).trans ?_
      exact Nat.div_le_div_right (Nat.mul_le_mul_right _ (by simpa using htotal))
    · rw [← hc]
      simpa [ArincControl.resolveEntries] using hmax
  have hne : (c.resolveEntries s.ctl).entries ≠ [] := by
    rw [← hc]
    intro e
    exact hlen (by simpa [ArincControl.resolveEntries] using e)
  generalize c.resolveEntries s.ctl = c₁ at hm hsus hruns htable hne
  obtain ⟨hok, hent, htab, hstart, hsus', hin⟩ :=
    @ArincControl.startFrame_eq c₁ now htable hne (by rw [hm]; exact hfit)
  have hmajor' : (c₁.startFrame now).1.majorFrameTicks = c₁.majorFrameTicks := by
    unfold ArincControl.startFrame
    split <;> rfl
  rw [hok]
  refine ⟨rfl, SameView.of_eq rfl rfl rfl rfl rfl, ⟨?_, ?_, hmajor'.trans hm, hstart,
    ⟨htab, hstart.le, .inl hin⟩⟩, hsus'.trans hsus⟩
  · show (c₁.startFrame now).1.entries ≠ []
    rw [hent]
    exact hne
  · show (c₁.startFrame now).1.entries.map _ = _
    rw [hent]
    exact hruns

/-- An accepted schedule starts a frame; a refused one changes nothing. -/
theorem schedArincSetSchedule_inv {τ now : Nat}
    (h : s.pol.priv.FrameInv τ) (hle : τ ≤ now) (maxVcpus : Nat) (config : ArincConfig) :
    SameView s.ctl (schedArincSetSchedule maxVcpus now config s).1.ctl ∧
      (schedArincSetSchedule maxVcpus now config s).1.pol.priv.FrameInv now := by
  by_cases hvalid : arincValidateConfig s.ctl.tickrate maxVcpus config = true
  swap
  · unfold schedArincSetSchedule
    rw [if_pos (by simpa using hvalid)]
    exact ⟨SameView.refl _, h.mono hle⟩
  by_cases hlate : usToTicks s.ctl.tickrate config.majorFrameUs > uint64Max - now
  · unfold schedArincSetSchedule
    dsimp only
    rw [if_neg (by simpa using hvalid), if_pos hlate]
    exact ⟨SameView.refl _, h.mono hle⟩
  · have hpos := arincValidateConfig_major hvalid
    obtain ⟨-, hview, hset, -⟩ := @schedArincSetSchedule_set s now maxVcpus config hvalid (by omega)
    exact ⟨hview, .inr hset.on_grid⟩

/-! ### Runs -/

/-- Thread states and frame of a pCPU whose clock has shown `x.1`. -/
structure ArincInv (x : Nat × Pcpu Unit ArincControl) : Prop where
  ctl : CtlInv x.2.ctl
  frame : x.2.pol.priv.FrameInv x.1

/-- Of the calls into the scheduler only the timer and `schedule()` reach the policy. -/
theorem ArincControl.FrameInv.step {τ : Nat}
    (h : s.pol.priv.FrameInv τ) (call : Env × Op) (hvalid : call.2.Valid s.ctl)
    (hle : τ ≤ call.1.now) : (step schedArinc653 s call).pol.priv.FrameInv call.1.now := by
  have hkind := step_kind schedArinc653 s call hvalid
  generalize BeauOs.Sched.step schedArinc653 s call = s' at hkind ⊢
  cases hkind with
  | view | sleep => exact h.mono hle
  | wake _ _ hwake =>
    rw [wakeThreadLocked_pol (s := ⟨_, s.pol⟩) schedArinc653 _ hwake]
    exact h.mono hle
  | timer =>
    obtain ⟨-, ⟨-, hpriv⟩ | ⟨ctl, -, -, hpriv⟩⟩ := timerCallback_cases schedArinc653 _ s
    · rw [hpriv]
      exact h.mono hle
    · rw [hpriv]
      exact (h.mono hle).setDeadline 0
  | @schedule env suspend reset =>
    have hpol : (consumePriorities schedArinc653 env.now s).pol.priv.FrameInv τ := by
      rw [consumePriorities_pol rfl]
      exact h
    show (selectNext schedArinc653 env.now suspend reset
      (consumePriorities schedArinc653 env.now s)).2.priv.FrameInv env.now
    unfold selectNext
    split
    · exact hpol.mono hle
    · exact hpol.pickNext hle _

def callTime {α : Type} (call : Env × α) : Nat := call.1.now

/-- Calls a pCPU may see: admitted by the framework, at times that do not run backwards. -/
abbrev ArincForward (x : Nat × Pcpu Unit ArincControl) (call : Env × ArincOp) : Prop :=
  Run.Forward callTime (fun s c => c.2.Valid s.ctl) x call

theorem ArincInv.step {x : Nat × Pcpu Unit ArincControl} (h : ArincInv x) (maxVcpus : Nat)
    (call : Env × ArincOp) (hok : ArincForward x call) :
    ArincInv (Run.clocked callTime (arincStep maxVcpus) x call) := by
  obtain ⟨env, op⟩ := call
  obtain ⟨hle, hvalid⟩ := hok
  cases op with
  | call op =>
    exact ⟨h.ctl.step arincPicksRunnable (env, op) hvalid, h.frame.step (env, op) hvalid hle⟩
  | setSchedule config =>
    obtain ⟨hview, hframe⟩ := schedArincSetSchedule_inv h.frame hle maxVcpus config
    exact ⟨hview.ctlInv h.ctl, hframe⟩

end BeauOs.Sched
