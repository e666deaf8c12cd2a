import BasicCompiler.Proofs.Viewer.OffendingLine

/-!
# Sessions of the viewer

Keys are pressed, offsets are set and frames are drawn, in any order. `Follows` says what no event
takes back, `Reaction` what comes of a key and `Redrawn` what a frame shows and leaves. Read
`session_sound` first: whatever has happened since a source was opened, the viewer still shows that
source and its result, it does what a key asks for, and a frame brings the offsets back to the last
page and shows a full page from there, so that drawing again changes nothing.
-/

namespace BasicCompiler.Viewer

/-! ## Events -/

/-- What can happen to a viewer: a key is pressed, an offset is set, or a frame is drawn. -/
inductive Event where
  | key (key : Key)
  | scroll (pane : Focus) (scroll : UInt64)
  | draw (size : Size)

/-- The viewer after an event. -/
def afterEvent (viewer : Viewer) : Event → Viewer
  | .key key => viewer.press key
  | .scroll pane scroll => viewer.scrollTo pane scroll.toNat
  | .draw size => (viewer.draw size).2

/-- The viewer after some events in a row. -/
def afterEvents (viewer : Viewer) (events : List Event) : Viewer :=
  events.foldl afterEvent viewer

/-- What becomes of a viewer when a key asks for something, or for nothing. One thing changes at most
and all else stays. Scrolling moves the pane that has the focus, and stops at both ends of the range
of offsets. -/
inductive Reaction (viewer : Viewer) : Option Command → Viewer → Prop where
  | none : Reaction viewer none viewer
  | quit : Reaction viewer (some .quit) { viewer with quit := true }
  | focus : Reaction viewer (some .switchFocus) { viewer with focus := viewer.focus.other }
  | up (count : Nat) : Reaction viewer (some (.scrollUp count))
      (viewer.scrollTo viewer.focus (viewer.scroll viewer.focus - count))
  | down (count : Nat) : Reaction viewer (some (.scrollDown count))
      (viewer.scrollTo viewer.focus (min (viewer.scroll viewer.focus + count) maxScroll))
  | home : Reaction viewer (some .scrollHome) (viewer.scrollTo viewer.focus 0)

/-- A viewer does what a key asks for. -/
theorem reaction_press (viewer : Viewer) (key : Key) :
    viewer.Reaction key.command? (viewer.press key) := by
  unfold press
  cases key.command? with
  | none => exact .none
  | some command =>
    cases command with
    | quit => exact .quit
    | switchFocus => exact .focus
    | scrollUp count => exact .up count
    | scrollDown count => exact .down count
    | scrollHome => exact .home

/-! ## What lasts -/

/-- The viewer `later` shows the same source, the same result and the same message about it, and it
has not forgotten that it was asked to quit. -/
structure Follows (viewer later : Viewer) : Prop where
  source_eq : later.source = viewer.source
  output?_eq : later.output? = viewer.output?
  diagnostic?_eq : later.diagnostic? = viewer.diagnostic?
  statusMessage_eq : later.statusMessage = viewer.statusMessage
  quit : viewer.quit = true → later.quit = true

theorem Follows.refl (viewer : Viewer) : viewer.Follows viewer :=
  ⟨rfl, rfl, rfl, rfl, id⟩

theorem Follows.trans {a b c : Viewer} (h : a.Follows b) (h' : b.Follows c) : a.Follows c :=
  ⟨h'.source_eq.trans h.source_eq, h'.output?_eq.trans h.output?_eq,
    h'.diagnostic?_eq.trans h.diagnostic?_eq, h'.statusMessage_eq.trans h.statusMessage_eq,
    fun hquit => h'.quit (h.quit hquit)⟩

/-- Offsets are no part of what is shown. -/
theorem follows_scrollTo (viewer : Viewer) (pane : Focus) (scroll : Nat) :
    viewer.Follows (viewer.scrollTo pane scroll) := by
  cases pane <;> exact ⟨rfl, rfl, rfl, rfl, id⟩

/-- Whatever a key asks for, what is shown stays. -/
theorem Reaction.follows {viewer later : Viewer} {command? : Option Command}
    (h : viewer.Reaction command? later) : viewer.Follows later := by
  cases h with
  | none => exact .refl viewer
  | quit => exact ⟨rfl, rfl, rfl, rfl, fun _ => rfl⟩
  | focus => exact ⟨rfl, rfl, rfl, rfl, id⟩
  | up | down | home => exact follows_scrollTo viewer _ _

/-- Whatever happens, what is shown stays. -/
theorem follows_afterEvent (viewer : Viewer) (event : Event) :
    viewer.Follows (viewer.afterEvent event) := by
  cases event with
  | key key => exact (viewer.reaction_press key).follows
  | scroll => exact follows_scrollTo viewer _ _
  | draw => exact ⟨rfl, rfl, rfl, rfl, id⟩

/-- However much happens, what is shown stays. -/
theorem follows_afterEvents (viewer : Viewer) (events : List Event) :
    viewer.Follows (viewer.afterEvents events) := by
  induction events generalizing viewer with
  | nil => exact .refl viewer
  | cons event events ih => exact (viewer.follows_afterEvent event).trans (ih _)

/-- A source is opened with either generated C or a diagnostic. -/
theorem isSome_output?_ne_ofSource (source : String) :
    (ofSource source).output?.isSome ≠ (ofSource source).diagnostic?.isSome := by
  rw [ofSource]
  cases compile source with
  | ok => exact Bool.noConfusion
  | error => exact Bool.noConfusion

/-! ## Offsets in range -/

/-- Both offsets are at most the largest one. -/
structure InRange (viewer : Viewer) : Prop where
  source_le : viewer.sourceScroll ≤ maxScroll
  output_le : viewer.outputScroll ≤ maxScroll

/-- The offset of a pane is one of the two. -/
theorem InRange.scroll_le {viewer : Viewer} (h : viewer.InRange) (pane : Focus) :
    viewer.scroll pane ≤ maxScroll := by
  cases pane with
  | source => exact h.source_le
  | output => exact h.output_le

/-- An offset in range can be set. -/
theorem InRange.scrollTo {viewer : Viewer} (h : viewer.InRange) (pane : Focus) {scroll : Nat}
    (hscroll : scroll ≤ maxScroll) : (viewer.scrollTo pane scroll).InRange := by
  cases pane with
  | source => exact ⟨hscroll, h.output_le⟩
  | output => exact ⟨h.source_le, hscroll⟩

/-- Nothing that a key asks for takes an offset out of range. -/
theorem Reaction.inRange {viewer later : Viewer} {command? : Option Command}
    (h : viewer.Reaction command? later) (hrange : viewer.InRange) : later.InRange := by
  cases h with
  | none => exact hrange
  | quit | focus => exact ⟨hrange.source_le, hrange.output_le⟩
  | up count => exact hrange.scrollTo _ (Nat.le_trans (Nat.sub_le _ count) (hrange.scroll_le _))
  | down count => exact hrange.scrollTo _ (Nat.min_le_right _ _)
  | home => exact hrange.scrollTo _ (Nat.zero_le _)

/-- A clamped offset is not beyond the one that was clamped. -/
theorem clampScroll_le (count height scroll : Nat) : clampScroll count height scroll ≤ scroll :=
  Nat.min_le_left _ _

/-- No event takes an offset out of range. -/
theorem InRange.afterEvent {viewer : Viewer} (h : viewer.InRange) (event : Event) :
    (viewer.afterEvent event).InRange := by
  cases event with
  | key key => exact (viewer.reaction_press key).inRange h
  | scroll pane scroll => exact h.scrollTo pane (Nat.le_sub_one_of_lt scroll.toNat_lt_size)
  | draw size =>
    refine ⟨Nat.le_trans (clampScroll_le _ _ _) h.source_le, ?_⟩
    show clampOutput viewer.output? _ viewer.outputScroll ≤ maxScroll
    cases viewer.output? with
    | none => exact h.output_le
    | some text => exact Nat.le_trans (clampScroll_le _ _ _) h.output_le

/-- However much happens, no offset gets out of range. -/
theorem InRange.afterEvents {viewer : Viewer} (h : viewer.InRange) (events : List Event) :
    (viewer.afterEvents events).InRange := by
  induction events generalizing viewer with
  | nil => exact h
  | cons event events ih => exact ih (h.afterEvent event)

/-- A source whose lines can be counted is opened in range. -/
theorem inRange_ofSource {source : String} (h : (Text.lines source).length ≤ maxScroll) :
    (ofSource source).InRange := by
  rw [ofSource]
  cases hcompiled : compile source with
  | ok text => exact ⟨Nat.zero_le _, Nat.zero_le _⟩
  | error diagnostic =>
    refine ⟨?_, Nat.zero_le _⟩
    obtain ⟨-, hline, -⟩ := line_bounds_of_error hcompiled
    show openingScroll diagnostic.location.line ≤ maxScroll
    rw [openingScroll, leadingLines]
    omega

/-! ## Drawing -/

/-- The lines `shown` are `count` of the lines, one after the other from the offset on. -/
structure Consecutive {α : Type} (lines shown : List α) (offset count : Nat) : Prop where
  length_eq : shown.length = count
  getElem?_eq : ∀ i < count, shown[i]? = lines[offset + i]?

/-- From an offset that is not beyond the last page, a page shows consecutive lines until it is full
or all of them are shown. -/
theorem consecutive_page {α : Type} (lines : List α) (height scroll : Nat) :
    Consecutive lines (page lines height (clampScroll lines.length height scroll))
      (clampScroll lines.length height scroll) (min (pageHeight height) lines.length) := by
  constructor
  · rw [page, List.length_take, List.length_drop, clampScroll]
    omega
  · intro i hi
    rw [getElem?_page, if_pos (by omega)]

/-- Numbering the lines of a source does not add to them. -/
@[simp] theorem length_numberedLines (source : String) :
    (numberedLines source).length = (Text.lines source).length := by
  simp [numberedLines]

/-- The number of lines that a pane shows on a screen: the status bar takes a row and the borders
two, and a pane that is too low counts as showing one. -/
def visibleLines (size : Size) : Nat :=
  max 1 (size.height - 1 - 2)

/-- The left part of a screen is the source pane: consecutive lines of the source from the offset
on, each with its number, as many as can be shown. -/
def ShowsSource (viewer : Viewer) (size : Size) (left : Screen) : Prop :=
  ∃ shown, Consecutive (numberedLines viewer.source) shown viewer.sourceScroll
      (min (visibleLines size) (Text.lines viewer.source).length) ∧
    left = bordered " Source " (viewer.focus = .source) .plain
      (shown.map fun (number, line) => sourceLine viewer.errorLine? number line)
      ((size.width + 1) / 2) (size.height - 1)

/-- The right part of a screen is the output pane: consecutive lines of the generated C from the
offset on, as many as can be shown, or the remark that there are none. -/
def ShowsOutput (viewer : Viewer) (size : Size) (right : Screen) : Prop :=
  match viewer.output? with
  | some text =>
    ∃ shown, Consecutive (Text.lines text) shown viewer.outputScroll
        (min (visibleLines size) (Text.lines text).length) ∧
      right = bordered " Generated C " (viewer.focus = .output) .plain
        (shown.map OutputText.highlight) (size.width - (size.width + 1) / 2) (size.height - 1)
  | none =>
    right = bordered " Generated C " (viewer.focus = .output) (Style.colored Palette.comment)
      [[⟨"(no output)".toList, .plain⟩]] (size.width - (size.width + 1) / 2) (size.height - 1)

/-- What drawing a frame on a screen of the size shows and leaves. Of the viewer only the offsets
change: each is where it was or, if that is beyond it, at the last page, and an offset into nothing
stays where it was. The frame shows both panes at these offsets. -/
structure Redrawn (viewer : Viewer) (size : Size) (screen : Screen) (after : Viewer) : Prop where
  height_eq : screen.length = size.height
  after_eq : after = { viewer with
    sourceScroll :=
      min viewer.sourceScroll ((Text.lines viewer.source).length - visibleLines size)
    outputScroll :=
      match viewer.output? with
      | some text => min viewer.outputScroll ((Text.lines text).length - visibleLines size)
      | none => viewer.outputScroll }
  shows : ∃ left right bar, screen = left.beside right ++ bar ∧
    after.ShowsSource size left ∧ after.ShowsOutput size right

section

variable (viewer : Viewer) (size : Size)

/-- The offsets of a viewer with clamped offsets. -/
theorem clamped_eq :
    viewer.clamped (size.height - 1) = { viewer with
      sourceScroll :=
        min viewer.sourceScroll ((Text.lines viewer.source).length - visibleLines size)
      outputScroll :=
        match viewer.output? with
        | some text => min viewer.outputScroll ((Text.lines text).length - visibleLines size)
        | none => viewer.outputScroll } :=
  rfl

/-- At a clamped offset the source pane shows consecutive lines. -/
theorem showsSource_clamped :
    (viewer.clamped (size.height - 1)).ShowsSource size
      (sourcePane viewer.source viewer.errorLine? (viewer.focus = .source)
        (viewer.clamped (size.height - 1)).sourceScroll ((size.width + 1) / 2)
        (size.height - 1)) := by
  have hpage := consecutive_page (numberedLines viewer.source) (size.height - 1)
    viewer.sourceScroll
  rw [length_numberedLines] at hpage
  exact ⟨_, hpage, rfl⟩

/-- At a clamped offset the output pane shows consecutive lines, if there are any. -/
theorem showsOutput_clamped :
    (viewer.clamped (size.height - 1)).ShowsOutput size
      (outputPane viewer.output? (viewer.focus = .output)
        (viewer.clamped (size.height - 1)).outputScroll (size.width - (size.width + 1) / 2)
        (size.height - 1)) := by
  have hsame : (viewer.clamped (size.height - 1)).output? = viewer.output? := rfl
  rw [ShowsOutput, hsame, clamped]
  cases viewer.output? with
  | none => rfl
  | some text => exact ⟨_, consecutive_page (Text.lines text) (size.height - 1) _, rfl⟩

/-- Drawing a frame does what `Redrawn` says on the screen that is made. -/
theorem redrawn_draw : viewer.Redrawn size.limited (viewer.draw size).1 (viewer.draw size).2 where
  height_eq := length_draw viewer size
  after_eq := clamped_eq viewer size.limited
  shows := ⟨_, _, _, rfl, showsSource_clamped viewer size.limited,
    showsOutput_clamped viewer size.limited⟩

/-- An offset that is not beyond the last page is left alone. -/
@[simp] theorem clampScroll_clampScroll (count height scroll : Nat) :
    clampScroll count height (clampScroll count height scroll) =
      clampScroll count height scroll := by
  simp [clampScroll]

/-- Offsets that have been clamped are left alone. -/
theorem clamped_clamped (height : Nat) :
    (viewer.clamped height).clamped height = viewer.clamped height := by
  have hsame : (viewer.clamped height).output? = viewer.output? := rfl
  rw [clamped, hsame, clamped]
  cases viewer.output? <;> simp [clampSource, clampOutput]

/-- Drawing again at the same size changes neither the frame nor the viewer. -/
theorem draw_draw : (viewer.draw size).2.draw size = viewer.draw size := by
  rw [draw, draw, clamped_clamped]

end

/-! ## Whole sessions -/

/-- Whatever happens after a source was opened, the viewer shows that source and its result: either
the generated C or a diagnostic, and the message about it. Once it was asked to quit it stays asked.
It does what a key asks for, and so a key changes at most one of the focus, the offset of the pane
that has it, and whether to quit. Drawing a frame brings the offsets back to the last page and shows
consecutive lines from there, and drawing it again changes nothing. If the lines of the source can
be counted, no offset is ever beyond the largest one. -/
theorem session_sound (source : String) (events : List Event) :
    let opened := ofSource source
    let viewer := opened.afterEvents events
    viewer.output?.isSome ≠ viewer.diagnostic?.isSome ∧
      viewer.source = source ∧ viewer.output? = opened.output? ∧
      viewer.diagnostic? = opened.diagnostic? ∧ viewer.statusMessage = opened.statusMessage ∧
      (∀ more, viewer.quit = true → (viewer.afterEvents more).quit = true) ∧
      (∀ key, viewer.Reaction key.command? (viewer.press key)) ∧
      (∀ size, viewer.Redrawn size.limited (viewer.draw size).1 (viewer.draw size).2 ∧
        (viewer.draw size).2.draw size = viewer.draw size) ∧
      ((Text.lines source).length ≤ maxScroll → viewer.InRange) := by
  intro opened viewer
  have hfollows := opened.follows_afterEvents events
  have hone : viewer.output?.isSome ≠ viewer.diagnostic?.isSome := by
    rw [hfollows.output?_eq, hfollows.diagnostic?_eq]
    exact isSome_output?_ne_ofSource source
  exact ⟨hone, hfollows.source_eq.trans (source_ofSource source), hfollows.output?_eq,
    hfollows.diagnostic?_eq, hfollows.statusMessage_eq,
    fun more => (viewer.follows_afterEvents more).quit, viewer.reaction_press,
    fun size => ⟨viewer.redrawn_draw size, viewer.draw_draw size⟩,
    fun hcount => (inRange_ofSource hcount).afterEvents events⟩

/-- The largest offset stays the largest when the page key asks for more, and a frame with room for
two lines brings it back. -/
example :
    let viewer := (ofSource "PRINT 1\nPRINT 2\nPRINT 3\n").afterEvents
      [.scroll .source (-1), .key .pageDown]
    viewer.sourceScroll = maxScroll ∧ (viewer.draw ⟨40, 5⟩).2.sourceScroll = 1 := by
  decide +kernel

end BasicCompiler.Viewer
