import BasicCompiler.Proofs.OpenBlocks
import BasicCompiler.Proofs.Viewer.Page

/-!
# The offending line

Which lines of the source pane have the colour of errors. The line of an error is counted over the
line feeds of the source, and the pane shows the lines between them. Read `offending_line_shown_iff`
first: the two agree, and exactly one line is marked, all of it, unless a block is left open at the
end of a source whose last line is complete. `offending_line_in_view` says that the line, if there
is one, is on the first page that the viewer shows.
-/

namespace BasicCompiler

namespace Viewer

/-! ## The colour of errors -/

/-- The style gives characters, or the ground behind them, the colour of errors. -/
def Style.InErrorColor (style : Style) : Prop :=
  style.foreground = some Palette.error ∨ style.background = some Palette.error

/-- The colours of a style can be compared. -/
instance (style : Style) : Decidable style.InErrorColor :=
  inferInstanceAs (Decidable (_ ∨ _))

/-- Some cell of the row has the colour of errors. -/
def Row.Marked (row : Row) : Prop :=
  ∃ cell ∈ row, cell.style.InErrorColor

/-- Some cell of the row with the number has the colour of errors. -/
def Screen.Marked (screen : Screen) (i : Nat) : Prop :=
  ∃ row, screen[i]? = some row ∧ row.Marked

/-- A style of a single colour has the colour of errors only if it is that colour. -/
theorem not_inErrorColor_colored {color : Color} (h : color ≠ Palette.error) :
    ¬ (Style.colored color).InErrorColor := by
  simpa [Style.InErrorColor, Style.colored] using h

/-- No word is highlighted in the colour of errors. -/
theorem not_inErrorColor_wordStyle (word : List Char) :
    ¬ (SourceText.wordStyle word).InErrorColor := by
  unfold SourceText.wordStyle
  repeat' split
  all_goals decide

/-- Nothing in a source is highlighted in the colour of errors. -/
theorem not_inErrorColor_highlighter (c : Char) (cs : List Char) :
    ¬ (SourceText.highlighter c cs).1.InErrorColor := by
  unfold SourceText.highlighter
  repeat' split
  · exact not_inErrorColor_colored (by decide)
  · exact not_inErrorColor_colored (by decide)
  · exact not_inErrorColor_wordStyle _
  · exact not_inErrorColor_colored (by decide)

/-- What is true of every style that a highlighter gives is true of the styles of its spans. -/
theorem Highlighter.style_of_mem_spans {highlighter : Highlighter} {P : Style → Prop}
    (h : ∀ c cs, P (highlighter c cs).1) (line : List Char) :
    ∀ span ∈ highlighter.spans line, P span.style := by
  fun_induction Highlighter.spans highlighter line with
  | case1 => simp
  | case2 c cs style length heq ih =>
    have hstyle := h c cs
    rw [heq] at hstyle
    exact List.forall_mem_cons.mpr ⟨hstyle, ih⟩

/-- The offending line is its number in the colour of errors and its text in a look of its own. -/
theorem sourceLine_offending (number : Nat) (line : List Char) :
    sourceLine (some number) number line =
      [⟨lineNumber number, (Style.colored Palette.error).emphasized⟩, ⟨line, errorStyle⟩] :=
  if_pos rfl

/-- A line that is not the offending one has nothing in the colour of errors. -/
theorem not_inErrorColor_of_mem_sourceLine {errorLine : Option Nat} {number : Nat}
    (h : errorLine ≠ some number) (line : List Char) :
    ∀ span ∈ sourceLine errorLine number line, ¬ span.style.InErrorColor := by
  rw [sourceLine, if_neg h]
  refine List.forall_mem_cons.mpr ⟨not_inErrorColor_colored (by decide), ?_⟩
  exact Highlighter.style_of_mem_spans (P := fun style => ¬ style.InErrorColor)
    not_inErrorColor_highlighter line

/-! ## Marked rows -/

/-- The border of a pane does not have the colour of errors. -/
theorem not_inErrorColor_borderStyle (focused : Bool) :
    ¬ ((borderStyle focused).applyTo .plain).InErrorColor := by
  cases focused <;> decide

/-- A row between borders is marked if it has room for what is in it and that is marked. -/
theorem marked_borderRow_iff {style : Style} (h : ¬ style.InErrorColor) (width : Nat)
    (first last : Char) (middle : Nat → Row) :
    (borderRow width style first last middle).Marked ↔
      2 ≤ width ∧ (middle (width - 2)).Marked := by
  match width with
  | 0 => simp [borderRow, Row.Marked]
  | 1 => simp [borderRow, Row.Marked, h]
  | inner + 2 => simp [borderRow, Row.Marked, h, or_and_right, exists_or]

/-- A horizontal border is not marked. -/
theorem not_marked_titledLine {style : Style} (h : ¬ style.InErrorColor) (title : String)
    (width : Nat) : ¬ (titledLine style title width).Marked := by
  rintro ⟨cell, hmem, hcolor⟩
  have hstyle : cell.style = style := by
    rw [titledLine] at hmem
    rcases List.mem_append.mp hmem with hmem | hmem
    · obtain ⟨_, -, rfl⟩ := List.mem_map.mp hmem
      rfl
    · rw [List.eq_of_mem_replicate hmem]
  exact h (hstyle ▸ hcolor)

/-- A row of spans none of which has the colour of errors is not marked. -/
theorem not_marked_left {spans : List Span} (h : ∀ span ∈ spans, ¬ span.style.InErrorColor)
    (width : Nat) : ¬ (Row.left width .plain spans).Marked := by
  rintro ⟨cell, hmem, hcolor⟩
  rcases List.mem_append.mp hmem with hmem | hmem
  · obtain ⟨span, hspan, hcell⟩ := List.mem_flatMap.mp (List.mem_of_mem_take hmem)
    obtain ⟨_, -, rfl⟩ := List.mem_map.mp hcell
    rw [Style.applyTo_plain] at hcolor
    exact h span hspan hcolor
  · rw [List.eq_of_mem_replicate hmem] at hcolor
    exact absurd hcolor (by decide)

/-- The number of a line stands in one row. -/
theorem lineFeed_notMem_lineNumber (number : Nat) : '\n' ∉ lineNumber number := by
  have hdigits : '\n' ∉ Nat.toDigits 10 number := fun hmem =>
    absurd (Nat.isDigit_of_mem_toDigits (by decide) (by decide) hmem) (by decide)
  simpa [lineNumber, List.mem_replicate] using hdigits

/-- The number of a line has at least one cell. -/
theorem exists_cells_lineNumber (number : Nat) (style : Style) :
    ∃ c cells, Span.cells .plain ⟨lineNumber number, style⟩ = ⟨c, style⟩ :: cells := by
  rw [Span.cells_of_line .plain _ (lineFeed_notMem_lineNumber number), Style.applyTo_plain]
  obtain ⟨c, cs, htext⟩ : ∃ c cs, lineNumber number = c :: cs :=
    List.exists_cons_of_ne_nil (by simp [lineNumber])
  exact ⟨c, cs.map fun c => ⟨c, style⟩, congrArg (List.map fun c => (⟨c, style⟩ : Cell)) htext⟩

/-- In a row with room for a cell, a line of source is marked if it is the offending one. -/
theorem marked_sourceLine_iff {width : Nat} (hwidth : 0 < width) (errorLine : Option Nat)
    (number : Nat) (line : List Char) :
    (Row.left width .plain (sourceLine errorLine number line)).Marked ↔
      errorLine = some number := by
  refine ⟨fun hmarked => Classical.byContradiction fun hother => ?_, fun hsame => ?_⟩
  · exact not_marked_left (not_inErrorColor_of_mem_sourceLine hother line) width hmarked
  · -- The first cell of the row is the first one of the number.
    obtain ⟨c, cells, hnumber⟩ :=
      exists_cells_lineNumber number (Style.colored Palette.error).emphasized
    obtain ⟨width, rfl⟩ := Nat.exists_eq_add_one.mpr hwidth
    rw [hsame, sourceLine_offending]
    refine ⟨⟨c, (Style.colored Palette.error).emphasized⟩, ?_, .inl rfl⟩
    simp [Row.left, Row.fitted, hnumber]

/-- A row of a screen is marked if it has a marked cell. -/
theorem Screen.marked_iff {screen : Screen} {i : Nat} {row : Row} (h : screen[i]? = some row) :
    screen.Marked i ↔ row.Marked := by
  simp [Screen.Marked, h]

/-- The rows of a pane that are marked are those of its marked lines. -/
theorem marked_bordered_iff {width : Nat} (hwidth : 2 ≤ width) (title : String) (focused : Bool)
    (lines : List (List Span)) (height i : Nat) :
    (bordered title focused .plain lines width height).Marked i ↔
      ∃ j < height - 2, i = j + 1 ∧ (Row.left (width - 2) .plain (lines[j]?.getD [])).Marked := by
  have hstyle := not_inErrorColor_borderStyle focused
  constructor
  · rintro ⟨row, hrow, hmarked⟩
    have hlt : i < height := by
      have hi := (List.getElem?_eq_some_iff.mp hrow).1
      rwa [length_bordered] at hi
    by_cases hborder : i = 0 ∨ i + 1 = height
    · obtain ⟨first, last, title', rfl⟩ := exists_titledLine_of_bordered _ _ _ _ _ hborder hrow
      exact absurd ((marked_borderRow_iff hstyle _ _ _ _).mp hmarked).2
        (not_marked_titledLine hstyle _ _)
    · obtain ⟨j, rfl⟩ : ∃ j, i = j + 1 := ⟨i - 1, by omega⟩
      have hj : j < height - 2 := by omega
      rw [getElem?_bordered_succ _ _ _ _ _ hj] at hrow
      cases hrow
      exact ⟨j, hj, rfl, ((marked_borderRow_iff hstyle _ _ _ _).mp hmarked).2⟩
  · rintro ⟨j, hj, rfl, hmarked⟩
    rw [Screen.marked_iff (getElem?_bordered_succ _ _ _ _ _ hj), marked_borderRow_iff hstyle]
    exact ⟨hwidth, hmarked⟩

/-- The row of the source pane that is marked is the one that the offending line is shown in. -/
theorem marked_sourcePane_iff {width : Nat} (hwidth : 3 ≤ width) (source : String) (line : Nat)
    (focused : Bool) (scroll height i : Nat) :
    (sourcePane source (some line) focused scroll width height).Marked i ↔
      1 ≤ i ∧ i ≤ height - 2 ∧ scroll + i = line ∧ line ≤ (Text.lines source).length := by
  have hroom : 0 < width - 2 := by omega
  have hpage : height - 2 ≤ pageHeight height := by
    rw [pageHeight]
    omega
  rw [sourcePane_eq, marked_bordered_iff (by omega)]
  constructor
  · rintro ⟨j, hj, rfl, hmarked⟩
    rw [getElem?_sourceLines, if_pos (Nat.lt_of_lt_of_le hj hpage)] at hmarked
    cases htext : (Text.lines source)[scroll + j]? with
    | none =>
      rw [htext] at hmarked
      exact absurd hmarked (not_marked_left (by simp) _)
    | some text =>
      rw [htext] at hmarked
      obtain rfl := Option.some.inj ((marked_sourceLine_iff hroom _ _ _).mp hmarked)
      have hlt := (List.getElem?_eq_some_iff.mp htext).1
      omega
  · rintro ⟨hi, hheight, rfl, hline⟩
    obtain ⟨j, rfl⟩ := Nat.exists_eq_add_one.mpr hi
    refine ⟨j, by omega, rfl, ?_⟩
    rw [getElem?_sourceLines, if_pos (by omega), List.getElem?_eq_getElem (by omega)]
    exact (marked_sourceLine_iff hroom _ _ _).mpr rfl

end Viewer

/-! ## The line of an error -/

section

variable {source : String} {diagnostic : Diagnostic}

/-- A source that is not compiled has a last character. -/
theorem exists_getLast?_of_error (h : compile source = .error diagnostic) :
    ∃ c, source.toList.getLast? = some c := by
  cases hlast : source.toList.getLast? with
  | some c => exact ⟨c, rfl⟩
  | none =>
    rw [List.getLast?_eq_none_iff, String.toList_eq_nil_iff] at hlast
    have hcompiled : (compile "").toBool = true := by decide +kernel
    rw [← hlast, h] at hcompiled
    cases hcompiled

/-- The line of an error is one of the lines of the source, or the one behind them if the last line
is complete and the error turns the end of the input away. -/
theorem line_bounds_of_error (h : compile source = .error diagnostic) :
    1 ≤ diagnostic.location.line ∧
      diagnostic.location.line ≤ (Text.lines source).length + 1 ∧
      (diagnostic.location.line ≤ (Text.lines source).length ↔
        ¬ (source.toList.getLast? = some '\n' ∧ diagnostic.MeetsEnd)) := by
  obtain ⟨front, rest, htext, hlocation, hend⟩ := exists_front_of_error h
  obtain ⟨c, hlast⟩ := exists_getLast?_of_error h
  have hline : diagnostic.location.line = 1 + front.count '\n' := congrArg Location.line hlocation
  have hcount : source.toList.count '\n' = front.count '\n' + rest.count '\n' := by
    rw [htext, List.count_append]
  have hlength : (Text.lines source).length =
      source.toList.count '\n' + (c != '\n').toNat := by
    rw [Text.lines, Text.length_linesOf, hlast, Option.any_some]
  rw [hline, hlength, hcount, hend, hlast, Option.some.injEq]
  by_cases hc : c = '\n'
  · subst hc
    -- What is left of the source is empty, or ends with a line feed of its own.
    have hrest : 1 ≤ rest.count '\n' ↔ rest ≠ [] := by
      refine ⟨fun hpos hempty => ?_, fun hne => ?_⟩
      · rw [hempty] at hpos
        cases hpos
      · have hends : EndsLine (front ++ rest) := by
          intro d hd
          rw [← htext, hlast] at hd
          exact (Option.some.inj hd).symm
        obtain ⟨d, others, rfl⟩ := List.exists_cons_of_ne_nil hne
        exact List.count_pos_iff.mpr hends.of_append.mem
    simp only [bne_self_eq_false, Bool.toNat_false, true_and, ← hrest]
    omega
  · have hkeep : (c != '\n').toNat = 1 := by simp [hc]
    simp only [hc, false_and, not_false_iff, iff_true, hkeep]
    omega

end

namespace Viewer

variable {source : String} {diagnostic : Diagnostic}

/-- The viewer has a diagnostic if the source is not compiled. -/
theorem diagnostic?_ofSource :
    (ofSource source).diagnostic? = some diagnostic ↔ compile source = .error diagnostic := by
  rw [ofSource]
  cases compile source <;> simp [ofResult]

/-- The offending line is the line of the diagnostic. -/
theorem errorLine?_eq {viewer : Viewer} (h : viewer.diagnostic? = some diagnostic) :
    viewer.errorLine? = some diagnostic.location.line := by
  rw [errorLine?, h]
  rfl

/-- A source is opened as it is. -/
theorem source_ofSource (source : String) : (ofSource source).source = source := by
  rw [ofSource]
  cases compile source <;> rfl

/-- A source is opened with the focus on its own pane. -/
theorem focus_ofSource (source : String) : (ofSource source).focus = .source := by
  rw [ofSource]
  cases compile source <;> rfl

/-- In a pane that is tall enough for all lines, the first line is on the page. -/
theorem clampSource_eq_zero {height : Nat} (h : (Text.lines source).length + 2 ≤ height)
    (scroll : Nat) : clampSource source height scroll = 0 := by
  rw [clampSource, clampScroll, pageHeight]
  omega

/-- In a pane that shows all lines of a source, the offending line stands in the row of its number:
the number in the colour of errors, and the text in the look of the offending line. -/
theorem getElem?_sourcePane_offending {line height : Nat} {text : List Char} (hpos : 1 ≤ line)
    (htext : (Text.lines source)[line - 1]? = some text) (hheight : line + 2 ≤ height)
    (focused : Bool) (width : Nat) :
    (sourcePane source (some line) focused 0 width height)[line]? =
      some (borderRow width (borderStyle focused) '│' '│' fun _ => Row.left (width - 2) .plain
        [⟨lineNumber line, (Style.colored Palette.error).emphasized⟩, ⟨text, errorStyle⟩]) := by
  obtain ⟨i, rfl⟩ := Nat.exists_eq_add_one.mpr hpos
  have hpage : i < pageHeight height := by
    rw [pageHeight]
    omega
  rw [Nat.add_sub_cancel] at htext
  have hline : (sourceLines source (some (i + 1)) height 0)[i]? =
      some [⟨lineNumber (i + 1), (Style.colored Palette.error).emphasized⟩,
        ⟨text, errorStyle⟩] := by
    rw [getElem?_sourceLines, if_pos hpage, Nat.zero_add, htext, Option.map_some,
      sourceLine_offending]
  rw [sourcePane_eq, getElem?_bordered_succ _ _ _ _ _ (by omega), hline, Style.applyTo_plain]
  rfl

/-- The line of an error lies between the first line of the source and the one behind the last. It
is behind the last one if the last line is complete and a block is left open, and only then. A pane
that is tall enough for all lines has one row with anything in the colour of errors, that of the
line of the error, or none if that is behind the last one; and in this row the number and the whole
line are marked. -/
theorem offending_line_shown_iff (h : (ofSource source).diagnostic? = some diagnostic) :
    let line := diagnostic.location.line
    let count := (Text.lines source).length
    1 ≤ line ∧ line ≤ count + 1 ∧
      (line ≤ count ↔ ¬ (source.toList.getLast? = some '\n' ∧
        ∃ block : Block, block ≠ .program ∧
          diagnostic = .unexpectedToken block.closing .endOfInput "" (.counted source.toList))) ∧
      ∀ focused scroll width height, 3 ≤ width → count + 2 ≤ height →
        let pane := sourcePane source (ofSource source).errorLine? focused
          (clampSource source height scroll) width height
        (∀ i, pane.Marked i ↔ i = line ∧ line ≤ count) ∧
          (line ≤ count → ∃ text, (Text.lines source)[line - 1]? = some text ∧
            pane[line]? = some (borderRow width (borderStyle focused) '│' '│' fun _ =>
              Row.left (width - 2) .plain
                [⟨lineNumber line, (Style.colored Palette.error).emphasized⟩,
                  ⟨text, errorStyle⟩])) := by
  intro line count
  have herror := diagnostic?_ofSource.mp h
  obtain ⟨hpos, hle, hiff⟩ := line_bounds_of_error herror
  refine ⟨hpos, hle, hiff.trans (not_congr (and_congr_right fun hlast => ?_)), ?_⟩
  · refine ⟨exists_openBlock herror hlast, ?_⟩
    rintro ⟨block, -, rfl⟩
    rfl
  · intro focused scroll width height hwidth hheight pane
    have hline : (ofSource source).errorLine? = some line := errorLine?_eq h
    have hpane : pane = sourcePane source (some line) focused 0 width height := by
      rw [← hline, ← clampSource_eq_zero hheight scroll]
    rw [hpane]
    refine ⟨fun i => ?_, fun hshown => ?_⟩
    · rw [marked_sourcePane_iff hwidth]
      omega
    · have htext := List.getElem?_eq_getElem (l := Text.lines source) (i := line - 1) (by omega)
      exact ⟨_, htext, getElem?_sourcePane_offending hpos htext (by omega) focused width⟩

/-- A variable without a value in the last line of a source is marked in that line, and the line is
marked as a whole. -/
theorem offending_line_shown_iff_last :
    let source := "LET y = 1\nPRINT x\n"
    let pane := sourcePane source (some 2) true 0 20 4
    (ofSource source).diagnostic? = some (.undeclaredVariable "x" ⟨2, 7⟩) ∧
      (∀ i, pane.Marked i ↔ i = 2) ∧
      pane[2]? = some (borderRow 20 (borderStyle true) '│' '│' fun _ => Row.left 18 .plain
        [⟨"   2 ".toList, (Style.colored Palette.error).emphasized⟩,
          ⟨"PRINT x".toList, errorStyle⟩]) := by
  intro source pane
  have h : (ofSource source).diagnostic? = some (.undeclaredVariable "x" ⟨2, 7⟩) := by
    decide +kernel
  have hline : (ofSource source).errorLine? = some 2 := errorLine?_eq h
  have htext : (Text.lines source)[1]? = some "PRINT x".toList := by decide +kernel
  have hnumber : lineNumber 2 = "   2 ".toList := by decide +kernel
  obtain ⟨-, -, -, hpane⟩ := offending_line_shown_iff h
  rw [hline] at hpane
  obtain ⟨hmarked, hrow⟩ := hpane true 0 20 4 (by decide) (by decide +kernel)
  obtain ⟨text, hthis, hspans⟩ := hrow (by decide +kernel)
  obtain rfl : "PRINT x".toList = text := Option.some.inj (htext.symm.trans hthis)
  rw [← hnumber]
  exact ⟨h, fun i => (hmarked i).trans (and_iff_left (by decide +kernel)), hspans⟩

/-- A loop that is left open at the end of the first line is reported in the second line, which the
source pane does not have. -/
theorem offending_line_not_shown :
    (ofSource "WHILE 1 == 1 REPEAT\n").diagnostic? =
        some (.unexpectedToken (.keyword .ENDWHILE) .endOfInput "" ⟨2, 1⟩) ∧
      (Text.lines "WHILE 1 == 1 REPEAT\n").length = 1 ∧
      ∀ i, ¬ (sourcePane "WHILE 1 == 1 REPEAT\n" (some 2) true 0 20 5).Marked i := by
  refine ⟨by decide +kernel, by decide +kernel, fun i ⟨row, hrow, cell, hcell, hcolor⟩ => ?_⟩
  have hnone : ∀ row ∈ sourcePane "WHILE 1 == 1 REPEAT\n" (some 2) true 0 20 5,
      ∀ cell ∈ row, ¬ cell.style.InErrorColor := by
    decide +kernel
  exact hnone row (List.mem_of_getElem? hrow) cell hcell hcolor

/-! ## The first page -/

/-- A source that is not compiled is opened some lines above the line of the error. -/
theorem sourceScroll_ofSource (h : compile source = .error diagnostic) :
    (ofSource source).sourceScroll = openingScroll diagnostic.location.line := by
  rw [ofSource, h]
  rfl

/-- If four lines fit on a page, the page at which a source is opened has the line of the error. -/
theorem clampScroll_openingScroll {line count height : Nat} (hpos : 1 ≤ line) (hline : line ≤ count)
    (hheight : 4 ≤ pageHeight height) :
    clampScroll count height (openingScroll line) < line ∧
      line ≤ clampScroll count height (openingScroll line) + pageHeight height := by
  rw [clampScroll, openingScroll, leadingLines]
  omega

/-- If four lines fit on a page, the page at which a source is opened has the offending line with
its own number, and nothing else on it has the colour of errors. -/
theorem exists_offending_line {line height : Nat} (hpos : 1 ≤ line)
    (hline : line ≤ (Text.lines source).length) (hheight : 4 ≤ pageHeight height) :
    ∃ i text, i < pageHeight height ∧ (Text.lines source)[line - 1]? = some text ∧
      (sourceLines source (some line) height
        (clampSource source height (openingScroll line)))[i]? =
          some [⟨lineNumber line, (Style.colored Palette.error).emphasized⟩, ⟨text, errorStyle⟩] ∧
      ∀ j spans, j ≠ i →
        (sourceLines source (some line) height
          (clampSource source height (openingScroll line)))[j]? = some spans →
            ∀ span ∈ spans, ¬ span.style.InErrorColor := by
  obtain ⟨hlt, hle⟩ := clampScroll_openingScroll hpos hline hheight
  rw [clampSource]
  generalize clampScroll (Text.lines source).length height (openingScroll line) = scroll at hlt hle
  have htext := List.getElem?_eq_getElem (l := Text.lines source) (i := line - 1) (by omega)
  refine ⟨line - 1 - scroll, _, by omega, htext, ?_, fun j spans hj hspans => ?_⟩
  · have hplace : scroll + (line - 1 - scroll) = line - 1 := by omega
    rw [getElem?_sourceLines, if_pos (by omega), hplace, htext, Nat.sub_add_cancel hpos,
      Option.map_some, sourceLine_offending]
  · have hother : some line ≠ some (scroll + j + 1) := by
      rw [ne_eq, Option.some.injEq]
      omega
    rw [getElem?_sourceLines] at hspans
    split at hspans
    · obtain ⟨text, -, rfl⟩ := Option.map_eq_some_iff.mp hspans
      exact not_inErrorColor_of_mem_sourceLine hother text
    · cases hspans

/-- If the line of an error is a line of the source, and the frame has at least seven rows, the
first frame shows it: the source pane is given the line, marked and with its own number, nothing
else that it is given is marked, and what it is given stands row by row in the frame. -/
theorem offending_line_in_view {size : Size} (h : compile source = .error diagnostic)
    (hline : diagnostic.location.line ≤ (Text.lines source).length)
    (hrows : 7 ≤ ((ofSource source).draw size).1.length) :
    let line := diagnostic.location.line
    let drawn := (ofSource source).draw size
    let paneHeight := drawn.1.length - 1
    let paneWidth := (size.limited.width + 1) / 2
    let given := sourceLines source drawn.2.errorLine? paneHeight drawn.2.sourceScroll
    (∃ i text, i < paneHeight - 2 ∧ (Text.lines source)[line - 1]? = some text ∧
      given[i]? = some [⟨lineNumber line, (Style.colored Palette.error).emphasized⟩,
        ⟨text, errorStyle⟩] ∧
      ∀ j spans, j ≠ i → given[j]? = some spans → ∀ span ∈ spans, ¬ span.style.InErrorColor) ∧
    ∀ i < paneHeight - 2, ∃ behind, drawn.1[i + 1]? =
      some (borderRow paneWidth (borderStyle true) '│' '│'
        (fun _ => Row.left (paneWidth - 2) .plain (given[i]?.getD [])) ++ behind) := by
  intro line drawn paneHeight paneWidth given
  have hheight : paneHeight = size.limited.height - 1 :=
    congrArg (· - 1) (length_draw (ofSource source) size)
  have hpage : pageHeight paneHeight = paneHeight - 2 ∧ 4 ≤ pageHeight paneHeight := by
    rw [length_draw] at hrows
    rw [pageHeight]
    omega
  have herrorLine : drawn.2.errorLine? = some line := errorLine?_eq (diagnostic?_ofSource.mpr h)
  have hscroll : drawn.2.sourceScroll = clampSource source paneHeight (openingScroll line) := by
    rw [← sourceScroll_ofSource h, hheight]
    show clampSource (ofSource source).source _ _ = _
    rw [source_ofSource]
  refine ⟨?_, fun i hi => ?_⟩
  · rw [← hpage.1]
    have hgiven : given = sourceLines source (some line) paneHeight
        (clampSource source paneHeight (openingScroll line)) := by
      rw [← herrorLine, ← hscroll]
    rw [hgiven]
    exact exists_offending_line (line_bounds_of_error h).1 hline hpage.2
  · rw [hheight] at hi
    obtain ⟨behind, hrow⟩ := exists_getElem?_frame drawn.2 size.limited.width hi
    have hfocus : drawn.2.focus = .source := focus_ofSource source
    have hsource : drawn.2.source = source := source_ofSource source
    rw [← hheight, Style.applyTo_plain, hfocus, hsource] at hrow
    exact ⟨behind, hrow⟩

/-- An error in the seventh of eight lines is in view in a frame of seven rows, which has room for
four lines. -/
theorem offending_line_in_view_scrolled :
    let source := "\n\n\n\n\n\nPRINT x\n\n"
    let drawn := (ofSource source).draw ⟨40, 7⟩
    compile source = .error (.undeclaredVariable "x" ⟨7, 7⟩) ∧ drawn.1.length = 7 ∧
      ∃ i text, i < 4 ∧ (Text.lines source)[6]? = some text ∧
        (sourceLines source drawn.2.errorLine? 6 drawn.2.sourceScroll)[i]? =
          some [⟨lineNumber 7, (Style.colored Palette.error).emphasized⟩, ⟨text, errorStyle⟩] := by
  intro source drawn
  have h : compile source = .error (.undeclaredVariable "x" ⟨7, 7⟩) := by decide +kernel
  have hrows : drawn.1.length = 7 := by
    rw [length_draw, Size.limited_of_cells_le (by decide)]
  obtain ⟨⟨i, text, hi, htext, hgiven, -⟩, -⟩ :=
    offending_line_in_view h (by decide +kernel) (Nat.le_of_eq hrows.symm)
  rw [hrows] at hi hgiven
  exact ⟨h, hrows, i, text, hi, htext, hgiven⟩

end Viewer

end BasicCompiler
