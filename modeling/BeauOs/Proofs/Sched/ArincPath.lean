/-
The window `arinc653_advance` finds does not depend on the advances before it.

The schedule is set at some time `start`, and from then on the frame is advanced at times
that do not run backwards, however late or often.  Frames stay on the grid through `start`
(`Anchored`), so the offset into the frame is `(now - start) % major`, and the window that
contains an offset is unique.  Both the index and the deadline are therefore functions of
`now` alone.

The one limit is the end of the 64-bit clock: a frame whose end cannot be written down is not
started, and then no window is selected.
-/
import BeauOs.Proofs.Sched.ArincWindows
import BeauOs.Proofs.Sched.NoLostThread

namespace BeauOs.Sched

/-! ### Offsets and windows -/

theorem windowsEnd_mono (entries : List ArincEntry) {i j : Nat} (h : i ≤ j) :
    windowsEnd entries i ≤ windowsEnd entries j := by
  induction j with
  | zero =>
    obtain rfl : i = 0 := by omega
    exact Nat.le_refl _
  | succ j ih =>
    by_cases hij : i = j + 1
    · rw [hij]
    refine (ih (by omega)).trans ?_
    by_cases hlt : j < entries.length
    · rw [windowsEnd_succ hlt]
      exact Nat.le_add_right _ _
    · unfold windowsEnd
      rw [List.take_of_length_le (by omega), List.take_of_length_le (by omega)]

/-- Every offset lies in one window or in the tail. -/
theorem WindowIs.unique {entries : List ArincEntry} {offset i j : Nat}
    (hi : WindowIs entries offset i) (hj : WindowIs entries offset j) : i = j := by
  have hlt : ∀ {a b : Nat}, WindowIs entries offset a → WindowIs entries offset b → ¬a < b := by
    intro a b ha hb hab
    have hnot := ha.not_over (Nat.lt_of_lt_of_le hab hb.index_le)
    have hmono := windowsEnd_mono entries (i := a + 1) (j := b) hab
    have hstart := hb.started
    omega
  have h₁ := hlt hi hj
  have h₂ := hlt hj hi
  omega

namespace ArincControl

variable {c c' : ArincControl} {start now τ : Nat}

/-! ### The number of rounds -/

/-- The rounds the loop of `arinc653_advance` takes. -/
def skipRounds (now : Nat) : Nat → ArincControl → Nat
  | 0, _ => 0
  | steps + 1, c =>
    if c.schedIndex < c.entries.length ∧ now ≥ c.nextSwitchTicks then
      let index := c.schedIndex + 1
      1 + skipRounds now steps
        { c with
          schedIndex := index
          nextSwitchTicks :=
            if index < c.entries.length then add64 c.nextSwitchTicks (c.runtimeAt index)
            else c.nextSwitchTicks }
    else 0

/-- The rounds of one call of `arinc653_advance`. -/
def advanceRounds (c : ArincControl) (now : Nat) : Nat :=
  if c.entries.length = 0 ∨ c.majorFrameTicks = 0 then 0
  else if (c.seekFrame now).2 then skipRounds now arincMaxEntries (c.seekFrame now).1 else 0

/-- Each round moves the index on by one, and the index stops at the number of windows. -/
theorem skipRounds_le (now steps : Nat) (hle : c.schedIndex ≤ c.entries.length) :
    c.schedIndex + skipRounds now steps c ≤ c.entries.length := by
  induction steps generalizing c with
  | zero => exact hle
  | succ steps ih =>
    unfold skipRounds
    split
    · rename_i hcond
      have hrest := @ih { c with
        schedIndex := c.schedIndex + 1
        nextSwitchTicks :=
          if c.schedIndex + 1 < c.entries.length then
            add64 c.nextSwitchTicks (c.runtimeAt (c.schedIndex + 1))
          else c.nextSwitchTicks } hcond.1
      dsimp only at hrest ⊢
      omega
    · exact hle

theorem advanceRounds_le (h : c.OnGrid τ) (hne : c.entries ≠ []) (hle : τ ≤ now) :
    c.advanceRounds now ≤ c.entries.length := by
  obtain ⟨hent, -, -, -, -, hseek⟩ := seekFrame_spec h hne hle
  unfold advanceRounds
  split
  · exact Nat.zero_le _
  split
  swap
  · exact Nat.zero_le _
  rename_i hvalid
  split at hseek
  · have hrounds := skipRounds_le now arincMaxEntries hseek.2.index_le
    rw [hent] at hrounds
    omega
  · rw [hseek.1] at hvalid
    cases hvalid

/-! ### The grid through the start -/

/-- The recorded frame start lies on the grid through `start`. -/
structure Anchored (c : ArincControl) (start : Nat) : Prop where
  le : start ≤ c.frameStartTicks
  grid : (c.frameStartTicks - start) % c.majorFrameTicks = 0

/-- The frame of `now` is the one of the grid through `start`. -/
theorem Anchored.frameOf_eq (h : c.Anchored start) (hle : c.frameStartTicks ≤ now) :
    c.frameOf now = now - (now - start) % c.majorFrameTicks := by
  have hst := h.le
  have hsplit : now - start = (now - c.frameStartTicks) + (c.frameStartTicks - start) := by omega
  unfold frameOf
  rw [hsplit, Nat.add_mod, h.grid, Nat.add_zero, Nat.mod_mod]

/-- A frame start that was found by seeking stays on the grid. -/
theorem Anchored.seek (h : c.Anchored start) (hle : c.frameStartTicks ≤ now)
    (hmajor : c'.majorFrameTicks = c.majorFrameTicks) (hframe : c'.frameStartTicks = c.frameOf now) :
    c'.Anchored start := by
  have hst := h.le
  have hmod : (now - start) % c.majorFrameTicks ≤ now - start := Nat.mod_le _ _
  have heq := h.frameOf_eq hle
  refine ⟨by omega, ?_⟩
  have hsub : c'.frameStartTicks - start = now - start - (now - start) % c.majorFrameTicks := by
    omega
  rw [hmajor, hsub]
  exact Nat.mod_eq_zero_of_dvd (Nat.dvd_sub_mod _)

/-- What holds after any number of advances, the last of them at `τ`. -/
structure OnPath (c₀ : ArincControl) (start : Nat) (c : ArincControl) (τ : Nat) : Prop where
  entries : c.entries = c₀.entries
  major : c.majorFrameTicks = c₀.majorFrameTicks
  suspended : c.suspended = c₀.suspended
  on_grid : c.OnGrid τ
  anchored : c.Anchored start

variable {c₀ : ArincControl}

theorem OnPath.advance (h : OnPath c₀ start c τ) (hne : c₀.entries ≠ []) (hle : τ ≤ now) :
    OnPath c₀ start (c.advance now).1 now := by
  have hne' : c.entries ≠ [] := h.entries ▸ hne
  obtain ⟨hent, hsus, hmaj, hfs, hgrid, -⟩ := advance_spec h.on_grid hne' hle
  exact ⟨hent.trans h.entries, hmaj.trans h.major, hsus.trans h.suspended, hgrid,
    h.anchored.seek (h.on_grid.started.trans hle) hmaj hfs⟩

/-- The index and the result of an advance are functions of the table, the start and `now`. -/
theorem OnPath.result (h : OnPath c₀ start c τ) (hne : c₀.entries ≠ []) (hle : τ ≤ now)
    (hfit : now - (now - start) % c₀.majorFrameTicks + c₀.majorFrameTicks ≤ uint64Max) :
    let i := (c.advance now).1.schedIndex
    let offset := (now - start) % c₀.majorFrameTicks
    WindowIs c₀.entries offset i ∧ (c.advance now).1.entries = c₀.entries ∧
      (c.advance now).2 = (now - offset +
        (if i < c₀.entries.length then windowsEnd c₀.entries (i + 1) else c₀.majorFrameTicks),
        true) := by
  have hne' : c.entries ≠ [] := h.entries ▸ hne
  have hframe := h.anchored.frameOf_eq (h.on_grid.started.trans hle)
  rw [h.major] at hframe
  obtain ⟨hadv, hres⟩ := advance_advanced h.on_grid hne' hle (by rw [hframe, h.major]; exact hfit)
  have hwin := hadv.windowIs
  have hmod : (now - start) % c₀.majorFrameTicks ≤ now - start := Nat.mod_le _ _
  rw [h.entries, hframe, show now - (now - (now - start) % c₀.majorFrameTicks) =
    (now - start) % c₀.majorFrameTicks by omega] at hwin
  refine ⟨hwin, hadv.entries.trans h.entries, ?_⟩
  rw [hres]
  refine Prod.ext ?_ rfl
  show windowEnd _ = _
  unfold windowEnd
  rw [hadv.entries, h.entries]
  split
  · rename_i hlt
    rw [hadv.in_frame.next_switch (by rw [hadv.entries, h.entries]; exact hlt), hadv.frame_start,
      hadv.entries, h.entries, hframe]
  · rw [hadv.in_frame.next_major, hadv.frame_start, hadv.major, h.major, hframe]

theorem OnPath.setDeadline (h : OnPath c₀ start c τ) (deadline : Nat) :
    OnPath c₀ start { c with timerDeadlineTicks := deadline } τ :=
  ⟨h.entries, h.major, h.suspended, h.on_grid.setDeadline deadline, ⟨h.anchored.le, h.anchored.grid⟩⟩

theorem OnPath.mono {τ' : Nat} (h : OnPath c₀ start c τ) (hle : τ ≤ τ') : OnPath c₀ start c τ' :=
  { h with on_grid := h.on_grid.mono hle }

/-- **One call of `pick_next`**, at whatever time and with whatever thread states. -/
theorem OnPath.pickNext {p : ArincState} (h : OnPath c₀ start p.priv τ) (hne : c₀.entries ≠ [])
    (hle : τ ≤ now) (ctl : SchedControl) :
    OnPath c₀ start (schedArincPickNext now ctl p).2.priv now := by
  unfold schedArincPickNext
  dsimp only
  split
  · rw [arincProgramLocalTimer_priv]
    exact (h.mono hle).setDeadline _
  · rw [arincProgramLocalTimer_priv]
    exact (h.advance hne hle).setDeadline _

end ArincControl

/-! ### The window at a time -/

/-- The policy after `pick_next` was called at each of the times in turn. -/
def arincPicks (p : ArincState) (picks : List (Nat × SchedControl)) : ArincState :=
  Run.exec (fun p pick => (schedArincPickNext pick.1 pick.2 p).2) p picks

/-- **Every path.**  The last pick of the path lies at some time `τ` before `now`. -/
theorem ArincControl.OnPath.picks {c₀ : ArincControl} {start now : Nat} (hne : c₀.entries ≠ []) :
    ∀ {picks : List (Nat × SchedControl)} {p : ArincState} {τ : Nat}, OnPath c₀ start p.priv τ →
      (τ :: (picks.map (·.1) ++ [now])).Pairwise (· ≤ ·) →
      ∃ τ', OnPath c₀ start (arincPicks p picks).priv τ' ∧ τ' ≤ now := by
  intro picks
  induction picks with
  | nil =>
    intro p τ h hmono
    exact ⟨τ, h, (List.pairwise_cons.mp hmono).1 now (by simp)⟩
  | cons pick rest ih =>
    intro p τ h hmono
    obtain ⟨hle, hrest⟩ := List.pairwise_cons.mp hmono
    exact ih (h.pickNext hne (hle pick.1 (by simp)) pick.2) hrest

theorem ScheduleSet.onPath {config : ArincConfig} {now khz : Nat} {c : ArincControl}
    (h : ScheduleSet config now khz c) : ArincControl.OnPath c now c now :=
  ⟨rfl, rfl, rfl, h.on_grid, h.frame_start.ge, by rw [h.frame_start, Nat.sub_self, Nat.zero_mod]⟩

theorem WindowIs.lt_deadline {entries : List ArincEntry} {now offset major i : Nat}
    (h : WindowIs entries offset i) (hoff : offset < major) (hle : offset ≤ now) :
    now < now - offset + (if i < entries.length then windowsEnd entries (i + 1) else major) := by
  split
  · rename_i hlt
    have hnot := h.not_over hlt
    omega
  · omega

/-- **The window is a function of the time.**  A valid schedule is set at `start`; `pick_next` is
called at times that do not run backwards, and then the frame is advanced to `now`.  As long as the
frame of `now` can be written down, the index found is that of the one window that contains
`(now - start) % major` (the number of windows stands for the idle tail), the deadline lies ahead,
both are what a single advance from `start` gives, the loop takes at most one round per window,
and `pick_next` returns the owner of that window. -/
theorem arinc_window_path_independent {s : Pcpu Unit ArincControl} {maxVcpus start now : Nat}
    {config : ArincConfig} {picks : List (Nat × SchedControl)}
    (hvalid : arincValidateConfig s.ctl.tickrate maxVcpus config = true)
    (hmono : (start :: (picks.map (·.1) ++ [now])).Pairwise (· ≤ ·))
    (hfit : now - (now - start) % usToTicks s.ctl.tickrate config.majorFrameUs +
      usToTicks s.ctl.tickrate config.majorFrameUs ≤ uint64Max) :
    let set := schedArincSetSchedule maxVcpus start config s
    let c := set.1.pol.priv
    let p := arincPicks set.1.pol picks
    let found := p.priv.advance now
    let offset := (now - start) % usToTicks s.ctl.tickrate config.majorFrameUs
    set.2 = true ∧
      c.entries.map (·.runtimeTicks) =
        config.entries.map (fun e => usToTicks s.ctl.tickrate e.runtimeUs) ∧
      (∀ i, WindowIs c.entries offset i ↔ i = found.1.schedIndex) ∧
      found.2.2 = true ∧ now < found.2.1 ∧
      (found.1.schedIndex, found.2) = ((c.advance now).1.schedIndex, (c.advance now).2) ∧
      p.priv.advanceRounds now ≤ config.entries.length ∧
      ∀ ctl, (schedArincPickNext now ctl p).1 =
        ownerOrIdle ctl (if s.pol.priv.suspended then none
          else c.entries[found.1.schedIndex]?.bind (·.obj)) := by
  have hpos := arincValidateConfig_major hvalid
  have hstart : start ≤ now := (List.pairwise_cons.mp hmono).1 now (by simp)
  have hmod : (now - start) % usToTicks s.ctl.tickrate config.majorFrameUs ≤ now - start :=
    Nat.mod_le _ _
  obtain ⟨hset, -, hsched, hsus⟩ := @schedArincSetSchedule_set s start maxVcpus config hvalid
    (by omega)
  dsimp only
  generalize (schedArincSetSchedule maxVcpus start config s).1.pol = p₀ at hsched hsus ⊢
  obtain ⟨τ, hpath, hle⟩ := hsched.onPath.picks hsched.nonempty hmono
  rw [← hsched.major] at hfit hpos hmod ⊢
  obtain ⟨hwin, hent, hres⟩ := hpath.result hsched.nonempty hle hfit
  obtain ⟨hwin₀, -, hres₀⟩ := hsched.onPath.result hsched.nonempty hstart hfit
  have hlen : p₀.priv.entries.length = config.entries.length := by
    have h := congrArg List.length hsched.runtimes
    simpa using h
  have hne : (arincPicks p₀ picks).priv.entries ≠ [] := hpath.entries ▸ hsched.nonempty
  refine ⟨hset, hsched.runtimes, fun i => ⟨fun hi => hi.unique hwin, fun hi => hi ▸ hwin⟩, ?_, ?_,
    ?_, ?_, fun ctl => ?_⟩
  · rw [hres]
  · rw [hres]
    exact hwin.lt_deadline (Nat.mod_lt _ hpos) (by omega)
  · rw [hres, hres₀, hwin.unique hwin₀]
  · rw [← hlen, ← hpath.entries]
    exact ArincControl.advanceRounds_le hpath.on_grid hne hle
  · rw [schedArincPickNext_eq, hres, hent, hpath.suspended, hsus]
    cases s.pol.priv.suspended <;> rfl

/-- One pCPU with one vCPU that waits to run, before a schedule is set. -/
def arincReady : Pcpu Unit ArincControl :=
  Run.exec (step schedArinc653) ((BootConfig.single ()).boot (ArincControl.init [1]))
    [(⟨1, true⟩, .wake 1)]

/-- Three of ten microseconds, then four for a vCPU that does not exist, then idle time. -/
def twoWindows : ArincConfig := ⟨10, [⟨0, 0, 3⟩, ⟨0, 1, 4⟩]⟩

/-- A pick in the first window, a second one at the same time and one some frames later. -/
def latePicks : List (Nat × SchedControl) :=
  [(6, arincReady.ctl), (6, arincReady.ctl), (47, arincReady.ctl)]

/-- The frame was set at 5, so that time 56 lies in the first window of the sixth frame. -/
theorem arinc_window_path_independent_late :
    let set := schedArincSetSchedule 4 5 twoWindows arincReady
    (∀ i, WindowIs set.1.pol.priv.entries 1 i ↔
      i = ((arincPicks set.1.pol latePicks).priv.advance 56).1.schedIndex) ∧
    (schedArincPickNext 56 arincReady.ctl (arincPicks set.1.pol latePicks)).1 = 1 := by
  obtain ⟨-, -, hwin, -, -, -, -, hpick⟩ := @arinc_window_path_independent arincReady 4 5 56
    twoWindows latePicks (by decide) (by decide) (by decide)
  refine ⟨hwin, (hpick arincReady.ctl).trans ?_⟩
  decide +kernel

/--
At the end of the clock there is no window: a frame set fifteen ticks before the end is
followed by one that would end after it, and twelve ticks on nobody runs although the offset
lies in the window of a vCPU that can.
-/
theorem arinc_no_window_at_clock_end :
    let start := uint64Max - 15
    let now := uint64Max - 3
    let set := schedArincSetSchedule 4 start twoWindows arincReady
    arincValidateConfig arincReady.ctl.tickrate 4 twoWindows = true ∧ set.2 = true ∧
      WindowIs set.1.pol.priv.entries
        ((now - start) % usToTicks arincReady.ctl.tickrate twoWindows.majorFrameUs) 0 ∧
      ownerOrIdle arincReady.ctl (set.1.pol.priv.entries[0]?.bind (·.obj)) = 1 ∧
      (set.1.pol.priv.advance now).2.2 = false ∧
      (schedArincPickNext now arincReady.ctl set.1.pol).1 = arincReady.ctl.idle := by
  refine ⟨by decide +kernel, by decide +kernel, ⟨by decide +kernel, by decide +kernel, ?_⟩,
    by decide +kernel, by decide +kernel, by decide +kernel⟩
  exact fun _ => by decide +kernel

end BeauOs.Sched
