import BasicCompiler.Proofs.Lexing.Calls

/-!
# A source as a row of segments

A source that is read without a fault is a row of segments, each a token with what is passed over in
front of it, and what is passed over behind the last token. Read `Cursor.reads_iff_segments` first:
reading finds the segments, and wherever a source can be laid out in segments that fit, reading
gives their tokens.
-/

namespace BasicCompiler

/-- A token and what is passed over in front of it. -/
structure Segment where
  skipped : List Char
  token : Token

namespace Segment

/-- The characters of the segment. -/
def characters (segment : Segment) : List Char :=
  segment.skipped ++ segment.token.terminal.lexeme

/-- The text that consists of the segments, with `last` behind them. -/
def joined (segments : List Segment) (last : List Char) : List Char :=
  segments.flatMap characters ++ last

/-- The segment can stand at the place, in front of the rest: its token is of its class, not the end
of the input, placed where it begins and not extended by what stands behind it, and nothing but what
is passed over stands in front of it. -/
structure Fits (segment : Segment) (location : Location) (rest : List Char) : Prop where
  gap : FillsGap segment.skipped (segment.token.terminal.lexeme ++ rest)
  wellFormed : segment.token.terminal.WellFormed
  not_endOfInput : segment.token.kind ≠ .endOfInput
  endsBefore : segment.token.terminal.EndsBefore rest
  location_eq : segment.token.location = location.after segment.skipped

/-- Every segment fits where it stands, if the first one begins at the place. -/
def AllFit (location : Location) (segments : List Segment) (last : List Char) : Prop :=
  ∀ front segment behind, segments = front ++ segment :: behind →
    segment.Fits (location.after (front.flatMap characters)) (joined behind last)

section

variable {location : Location} {segment : Segment} {segments : List Segment} {last : List Char}

/-- The first segment stands in front of the others. -/
theorem joined_cons (segment : Segment) (segments : List Segment) (last : List Char) :
    joined (segment :: segments) last =
      segment.skipped ++ (segment.token.terminal.lexeme ++ joined segments last) := by
  simp [joined, characters]

/-- The segments fit if the first one does and the others fit behind it. -/
theorem allFit_cons :
    AllFit location (segment :: segments) last ↔
      segment.Fits location (joined segments last) ∧
        AllFit (location.after segment.characters) segments last := by
  constructor
  · intro h
    refine ⟨h [] segment segments rfl, fun front other behind hsegments => ?_⟩
    have hother := h (segment :: front) other behind (by rw [hsegments]; rfl)
    rwa [List.flatMap_cons, Location.after_append] at hother
  · rintro ⟨hfirst, hothers⟩ front other behind hsegments
    cases front with
    | nil =>
      obtain ⟨rfl, rfl⟩ := List.cons.inj hsegments
      exact hfirst
    | cons first front =>
      obtain ⟨rfl, hbehind⟩ := List.cons.inj hsegments
      rw [List.flatMap_cons, Location.after_append]
      exact hothers front other behind hbehind

/-- A segment that fits is read by one call, which stops behind it. -/
theorem Fits.called {cursor : Cursor} {rest : List Char} (h : segment.Fits cursor.location rest)
    (text : cursor.rest = segment.skipped ++ (segment.token.terminal.lexeme ++ rest)) :
    cursor.Called (.ok segment.token) ⟨cursor.location.after segment.characters, rest⟩ := by
  rw [characters, Location.after_append, ← h.location_eq]
  exact .token text h.gap h.wellFormed h.not_endOfInput h.endsBefore h.location_eq

end

end Segment

namespace Cursor

open Segment (joined AllFit)

/-- What is read without a fault lies in front of the cursor in segments. -/
theorem exists_segments_of_reads {cursor : Cursor} {tokens : List Token} (h : cursor.Reads tokens) :
    ∃ segments last, cursor.rest = joined segments last ∧
      AllFit cursor.location segments last ∧ FillsGap last [] ∧
      tokens = segments.map Segment.token ++
        [.endOfInput (cursor.location.after cursor.rest)] := by
  induction h with
  | finish h hkind =>
    cases next_eq_iff_called.mp h with
    | finish text gap =>
      refine ⟨[], _, text, ?_, gap, by rw [text]; rfl⟩
      intro front segment behind hsegments
      simp at hsegments
    | token _ _ _ hend => exact absurd hkind hend
  | @token cursor _ token _ h hkind _ ih =>
    obtain ⟨segments, last, hrest, hfit, hlast, rfl⟩ := ih
    cases next_eq_iff_called.mp h with
    | finish => exact absurd rfl hkind
    | @token skipped rest _ text gap hwell hend hends hlocation =>
      obtain rfl : rest = joined segments last := hrest
      have hplace : token.location.after token.terminal.lexeme =
          cursor.location.after (skipped ++ token.terminal.lexeme) := by
        rw [hlocation, Location.after_append]
      refine ⟨⟨skipped, token⟩ :: segments, last, ?_, ?_, hlast, ?_⟩
      · rw [text, Segment.joined_cons]
      · refine Segment.allFit_cons.mpr ⟨⟨gap, hwell, hend, hends, hlocation⟩, ?_⟩
        rw [hplace] at hfit
        exact hfit
      · rw [hplace, ← Location.after_append, List.append_assoc, ← text]
        rfl

/-- Segments that fit are read as their tokens. -/
theorem reads_of_segments {cursor : Cursor} {segments : List Segment} {last : List Char}
    (text : cursor.rest = joined segments last) (hfit : AllFit cursor.location segments last)
    (hlast : FillsGap last []) :
    cursor.Reads (segments.map Segment.token ++
      [.endOfInput (cursor.location.after cursor.rest)]) := by
  induction segments generalizing cursor with
  | nil =>
    have hcalled : cursor.Called _ _ := .finish text hlast
    rw [text]
    exact .finish hcalled.next_eq rfl
  | cons segment segments ih =>
    obtain ⟨hfirst, hothers⟩ := Segment.allFit_cons.mp hfit
    rw [Segment.joined_cons] at text
    have hreads := @ih ⟨_, _⟩ rfl hothers
    have hplace : cursor.location.after cursor.rest =
        (cursor.location.after segment.characters).after (joined segments last) := by
      rw [text, ← Location.after_append, Segment.characters, List.append_assoc]
    rw [hplace]
    exact .token (hfirst.called text).next_eq hfirst.not_endOfInput hreads

/-- A source is read without a fault exactly if it is a row of segments that fit, and it is read as
their tokens. A call gives a fault exactly if something malformed stands behind what it passes over,
and the fault says what is malformed. -/
theorem reads_iff_segments :
    (∀ (source : String) (tokens : List Token),
      (ofSource source).Reads tokens ↔
        ∃ segments last, source.toList = joined segments last ∧
          AllFit .start segments last ∧ FillsGap last [] ∧
          tokens = segments.map Segment.token ++
            [.endOfInput (Location.start.after source.toList)]) ∧
      ∀ (cursor : Cursor) (diagnostic : Diagnostic),
        cursor.next.1 = .error diagnostic ↔
          ∃ skipped taken rest fault, cursor.rest = skipped ++ (taken ++ rest) ∧
            FillsGap skipped (taken ++ rest) ∧ Malformed fault taken rest ∧
            diagnostic = .lexical fault (Lexeme.faultLocation fault
              (cursor.location.after skipped) ((cursor.location.after skipped).after taken)) := by
  refine ⟨fun source tokens => ⟨exists_segments_of_reads, ?_⟩, fun cursor diagnostic => ⟨?_, ?_⟩⟩
  · rintro ⟨segments, last, text, hfit, hlast, rfl⟩
    exact reads_of_segments text hfit hlast
  · intro h
    have hcalled : cursor.Called (.error diagnostic) cursor.next.2 := h ▸ called_next cursor
    generalize cursor.next.2 = after at hcalled
    cases hcalled with
    | fault text gap hfault => exact ⟨_, _, _, _, text, gap, hfault, rfl⟩
  · rintro ⟨skipped, taken, rest, fault, text, gap, hfault, rfl⟩
    have hcalled : cursor.Called _ _ := .fault text gap hfault
    rw [hcalled.next_eq]

end Cursor

end BasicCompiler
