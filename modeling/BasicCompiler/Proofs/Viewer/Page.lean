import BasicCompiler.Viewer.Basic

/-!
# Pages and frames

Which lines a pane shows, and in which rows they stand. A text has a line for every line feed and
one for what is left behind the last of them (`Text.length_linesOf`), a page is a window of
consecutive lines (`getElem?_page`), and `sourceLines` are the lines that the source pane is given.
Read `getElem?_bordered_succ` and `length_draw` first: each line stands in its row between the
borders, and a frame has as many rows as its size says.
-/

namespace BasicCompiler

/-! ## The lines of a text -/

namespace Text

/-- Only the empty text has no lines. -/
theorem linesOf_eq_nil_iff {cs : List Char} : linesOf cs = [] ↔ cs = [] := by
  fun_cases linesOf cs <;> simp_all

/-- A text has a line for every line feed, and one more if it ends with another character. -/
theorem length_linesOf (cs : List Char) :
    (linesOf cs).length = cs.count '\n' + (cs.getLast?.any (· != '\n')).toNat := by
  fun_induction linesOf cs with
  | case1 => rfl
  | case2 rest ih =>
    cases rest with
    | nil => rfl
    | cons d rest =>
      rw [List.length_cons, ih, List.count_cons_self, List.getLast?_cons_cons]
      omega
  | case3 rest ih =>
    cases rest with
    | nil => rfl
    | cons d rest =>
      have hreturn : '\r' ≠ '\n' := by decide
      rw [List.length_cons, ih, List.count_cons_of_ne hreturn, List.count_cons_self,
        List.getLast?_cons_cons, List.getLast?_cons_cons]
      omega
  | case4 c rest feed _ hlines =>
    obtain rfl := linesOf_eq_nil_iff.mp hlines
    have hkeep : (c != '\n') = true := bne_iff_ne.mpr feed
    rw [List.count_cons_of_ne feed, List.getLast?_singleton, Option.any_some, hkeep]
    rfl
  | case5 c rest feed _ line more hlines ih =>
    cases rest with
    | nil => cases hlines
    | cons d rest =>
      rw [List.count_cons_of_ne feed, List.getLast?_cons_cons, ← ih, hlines]
      rfl

end Text

namespace Viewer

/-! ## Pages -/

/-- A page shows consecutive lines from its offset on. -/
theorem getElem?_page {α : Type} (lines : List α) (height scroll i : Nat) :
    (page lines height scroll)[i]? =
      if i < pageHeight height then lines[scroll + i]? else none := by
  simp [page, List.getElem?_take]

/-- The number of a line is its place in the source. -/
theorem getElem?_numberedLines (source : String) (i : Nat) :
    (numberedLines source)[i]? = (Text.lines source)[i]?.map fun line => (i + 1, line) := by
  simp [numberedLines, Function.comp_def, Nat.add_comm]

/-- The lines that the source pane is given to show. -/
def sourceLines (source : String) (errorLine : Option Nat) (height scroll : Nat) :
    List (List Span) :=
  (page (numberedLines source) height scroll).map fun (number, line) =>
    sourceLine errorLine number line

/-- The source pane shows the lines that it is given. -/
theorem sourcePane_eq (source : String) (errorLine : Option Nat) (focused : Bool)
    (scroll width height : Nat) :
    sourcePane source errorLine focused scroll width height =
      bordered " Source " focused .plain (sourceLines source errorLine height scroll) width
        height :=
  rfl

/-- The source pane is given consecutive lines of the source with their own numbers. -/
theorem getElem?_sourceLines (source : String) (errorLine : Option Nat) (height scroll i : Nat) :
    (sourceLines source errorLine height scroll)[i]? =
      if i < pageHeight height then
        (Text.lines source)[scroll + i]?.map (sourceLine errorLine (scroll + i + 1))
      else none := by
  rw [sourceLines, List.getElem?_map, getElem?_page, getElem?_numberedLines]
  split
  · rw [Option.map_map]
    rfl
  · rfl

/-! ## Rows -/

section

variable (width : Nat) (base : Style) (lines : List (List Span))

/-- A screen of lines has the height it is given. -/
@[simp] theorem length_ofLines (height : Nat) :
    (Screen.ofLines width height base lines).length = height := by
  simp only [Screen.ofLines, List.length_append, List.length_map, List.length_take,
    List.length_replicate]
  omega

/-- The rows of a screen of lines are the lines, and empty ones below them. -/
theorem getElem?_ofLines {height i : Nat} (h : i < height) :
    (Screen.ofLines width height base lines)[i]? =
      some (Row.left width base (lines[i]?.getD [])) := by
  have hlength : ((lines.take height).map (Row.left width base)).length =
      min height lines.length := by
    rw [List.length_map, List.length_take]
  rw [Screen.ofLines]
  rcases Nat.lt_or_ge i lines.length with hi | hi
  · rw [List.getElem?_append_left (by omega), List.getElem?_map, List.getElem?_take_of_lt h,
      List.getElem?_eq_getElem hi]
    rfl
  · rw [List.getElem?_append_right (by omega), List.getElem?_replicate, if_pos (by omega),
      List.getElem?_eq_none hi]
    rfl

variable (title : String) (focused : Bool)

/-- A bordered pane has the height it is given. -/
@[simp] theorem length_bordered (height : Nat) :
    (bordered title focused base lines width height).length = height := by
  match height with
  | 0 | 1 => rfl
  | inner + 2 => simp [bordered]

/-- The first and the last row of a bordered pane are horizontal lines. -/
theorem exists_titledLine_of_bordered {height i : Nat} {row : Row} (hi : i = 0 ∨ i + 1 = height)
    (h : (bordered title focused base lines width height)[i]? = some row) :
    ∃ first last title', row = borderRow width ((borderStyle focused).applyTo base) first last
      (titledLine ((borderStyle focused).applyTo base) title') := by
  match height with
  | 0 => cases h
  | 1 =>
    obtain rfl : i = 0 := by omega
    cases h
    exact ⟨_, _, _, rfl⟩
  | inner + 2 =>
    rcases hi with rfl | hi
    · cases h
      exact ⟨_, _, _, rfl⟩
    · obtain rfl := Nat.succ.inj hi
      simp only [bordered, List.cons_append, List.getElem?_cons_succ] at h
      rw [List.getElem?_append_right (by simp), List.length_map, length_ofLines,
        Nat.sub_self] at h
      cases h
      exact ⟨_, _, _, rfl⟩

/-- The lines of a bordered pane stand in the rows between its first and its last one. -/
theorem getElem?_bordered_succ {height i : Nat} (h : i < height - 2) :
    (bordered title focused base lines width height)[i + 1]? =
      some (borderRow width ((borderStyle focused).applyTo base) '│' '│' fun _ =>
        Row.left (width - 2) base (lines[i]?.getD [])) := by
  match height with
  | 0 | 1 => cases h
  | inner + 2 =>
    have hrow : i < inner := h
    simp only [bordered, List.cons_append, List.getElem?_cons_succ]
    rw [List.getElem?_append_left (by simpa using hrow), List.getElem?_map,
      getElem?_ofLines _ _ _ hrow]
    rfl

end

/-! ## Frames -/

/-- Where both screens have a row, the screens side by side have the two in one. -/
theorem Screen.getElem?_beside {left right : Screen} {i : Nat} {row row' : Row}
    (h : left[i]? = some row) (h' : right[i]? = some row') :
    (left.beside right)[i]? = some (row ++ row') := by
  rw [Screen.beside, List.getElem?_zipWith, h, h']

/-- The source pane has the height it is given. -/
@[simp] theorem length_sourcePane (source : String) (errorLine : Option Nat) (focused : Bool)
    (scroll width height : Nat) :
    (sourcePane source errorLine focused scroll width height).length = height :=
  length_bordered ..

/-- The output pane has the height it is given. -/
@[simp] theorem length_outputPane (output : Option String) (focused : Bool)
    (scroll width height : Nat) :
    (outputPane output focused scroll width height).length = height := by
  cases output <;> exact length_bordered ..

/-- The status bar has the height it is given. -/
@[simp] theorem StatusBar.length_draw (message : String) (isError : Bool) (width height : Nat) :
    (StatusBar.draw message isError width height).length = height := by
  cases height <;> simp [StatusBar.draw]

/-- A frame has the height it is given. -/
@[simp] theorem length_frame (viewer : Viewer) (width height : Nat) :
    (viewer.frame width height).length = height := by
  simp only [frame, Screen.beside, List.length_append, List.length_zipWith, length_sourcePane,
    length_outputPane, StatusBar.length_draw, Nat.min_self]
  omega

/-- The frame that is drawn has the height of the screen. -/
@[simp] theorem length_draw (viewer : Viewer) (size : Size) :
    (viewer.draw size).1.length = size.limited.height :=
  length_frame ..

/-- Below its first row, a frame shows the lines that the source pane is given, each in its row. -/
theorem exists_getElem?_frame (viewer : Viewer) (width : Nat) {height i : Nat}
    (h : i < height - 1 - 2) :
    ∃ behind, (viewer.frame width height)[i + 1]? =
      some (borderRow ((width + 1) / 2) ((borderStyle (viewer.focus = .source)).applyTo .plain)
        '│' '│' (fun _ => Row.left ((width + 1) / 2 - 2) .plain
          ((sourceLines viewer.source viewer.errorLine? (height - 1)
            viewer.sourceScroll)[i]?.getD [])) ++ behind) := by
  have hrow : i + 1 < height - 1 := by omega
  obtain ⟨behind, hbehind⟩ : ∃ behind, (outputPane viewer.output? (viewer.focus = .output)
      viewer.outputScroll (width - (width + 1) / 2) (height - 1))[i + 1]? = some behind :=
    ⟨_, List.getElem?_eq_getElem (by simpa using hrow)⟩
  refine ⟨behind, ?_⟩
  rw [frame, List.getElem?_append_left (by simpa [Screen.beside] using hrow)]
  exact Screen.getElem?_beside (getElem?_bordered_succ _ _ _ _ _ h) hbehind

end Viewer

end BasicCompiler
