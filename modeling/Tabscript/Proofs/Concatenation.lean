import Tabscript.Proofs.Places
import Tabscript.Proofs.Relocation

/-!
# Sources one after the other

A source that is a program can be put before any other source: the second one is read as it is read
alone, only further down. This takes three facts. A program ends with a line break, so no lexeme
reaches across the join and the column starts afresh (`lex_append`). A reading that ends well ends
between functions, ready for more (`Parse.functions_append`). And the readers only copy positions,
so tokens further down give the same tree further down (`Parse.functions_map_relocate`).

* `Position.down` moves a position some lines down, and `Program.positions` lists the positions
  that this concerns.
* `parse_lex_append` puts the three facts together.
-/

namespace Tabscript

open Grammar

/-! ## Positions further down -/

namespace Position

/-- The position some lines further down, in the same column. -/
def down (n : Nat) (p : Position) : Position := ⟨p.line + UInt32.ofNat n, p.column⟩

theorem toNat_line_down {n : Nat} {p : Position} (h : p.line.toNat + n < 2 ^ 32) :
    (p.down n).line.toNat = p.line.toNat + n := by
  rw [down, UInt32.toNat_add, UInt32.toNat_ofNat']
  omega

theorem advance_down (n : Nat) (p : Position) (c : Char) :
    (p.down n).advance c = (p.advance c).down n := by
  unfold advance
  split
  · rw [down, down, UInt32.add_assoc, UInt32.add_comm (UInt32.ofNat n), ← UInt32.add_assoc]
  · rfl

theorem after_down (n : Nat) (p : Position) (text : List Char) :
    (p.down n).after text = (p.after text).down n := by
  induction text generalizing p with
  | nil => rfl
  | cons c text ih => rw [after_cons, after_cons, advance_down, ih]

/-- Behind a text the line has grown by the line feeds in it. -/
theorem line_after (p : Position) (text : List Char) :
    (p.after text).line = p.line + UInt32.ofNat (text.count '\n') := by
  induction text generalizing p with
  | nil => exact (UInt32.add_zero _).symm
  | cons c text ih =>
    rw [after_cons, ih, advance]
    by_cases hc : c = '\n'
    · subst hc
      rw [if_pos rfl, List.count_cons_self, UInt32.ofNat_add, UInt32.add_assoc,
        UInt32.add_comm (UInt32.ofNat _)]
      rfl
    · rw [if_neg hc, List.count_cons_of_ne hc]

end Position

/-- The number of line breaks in a source. -/
def lineBreaks (source : String) : Nat := source.toList.count '\n'

/-- The text is empty or ends with a line break. -/
def EndsLine (text : List Char) : Prop := text = [] ∨ ∃ before, text = before ++ ['\n']

/-- Behind a text that ends a line a new line starts. -/
theorem start_after_of_endsLine {text : List Char} (h : EndsLine text) :
    Position.start.after text = Position.start.down (text.count '\n') := by
  have hline := Position.line_after .start text
  rcases h with rfl | ⟨before, rfl⟩
  · rfl
  · rw [Position.down, ← hline, Position.after_append]
    rfl

/-! ## Tokens further down -/

/-- The same lexemes from another position on, where `f` leads from each of their positions to the
new one. -/
theorem place_relocate {f : Position → Position} {p q : Position} {ls : List (List Char)}
    (h : ∀ text, text <+: ls.flatten → f (p.after text) = q.after text) :
    place q ls = (place p ls).map (Token.relocate f) := by
  induction ls generalizing p q with
  | nil => rfl
  | cons l ls ih =>
    have hrest : place (q.after l) ls = (place (p.after l) ls).map (Token.relocate f) := by
      refine ih fun text htext => ?_
      rw [← Position.after_append, ← Position.after_append]
      exact h (l ++ text) ((List.prefix_append_right_inj l).2 htext)
    have hfirst : f p = q := h [] List.nil_prefix
    rw [place, place, hrest, List.map_cons, Token.relocate, hfirst]

/-- Lexemes that are placed some lines further down become the same tokens, further down. -/
theorem place_down (n : Nat) (pos : Position) (ls : List (List Char)) :
    place (pos.down n) ls = (place pos ls).map (Token.relocate (.down n)) :=
  place_relocate fun text _ => (Position.after_down n pos text).symm

/-- The tokens of two sources between which no word goes on. -/
theorem lex_append_of_not_joins {s t : String}
    (h : ∀ a ∈ s.toList.getLast?, ∀ b ∈ t.toList.head?, joins a b = false) :
    lex (s ++ t) = lex s ++ place (Position.start.after s.toList) (lexemes t.toList) := by
  have hflatten : (lexemes s.toList).flatten = s.toList := (lexemes_eq_iff.1 rfl).1
  rw [lex, String.toList_append, lexemes_append h, place_append, hflatten, lex]

/-- The tokens of two sources, the first of which ends its last line. -/
theorem lex_append {s t : String} (h : EndsLine s.toList) :
    lex (s ++ t) = lex s ++ (lex t).map (Token.relocate (.down (lineBreaks s))) := by
  have hcut : ∀ a ∈ s.toList.getLast?, ∀ b ∈ t.toList.head?, joins a b = false := by
    intro a ha b _
    rcases h with h | ⟨before, h⟩
    · rw [h] at ha
      cases ha
    · rw [h, List.getLast?_concat, Option.mem_some_iff] at ha
      rw [← ha]
      rfl
  rw [lex_append_of_not_joins hcut, start_after_of_endsLine h, place_down]
  rfl

/-! ## Programs end their last line -/

/-- What ends its last line still does behind a line break. -/
theorem endsLine_append_line (before : List Token) {line : Token} {rest : List Token}
    (fits : Fits line) (kind : line.kind = .line) (h : EndsLine (textOf rest)) :
    EndsLine (textOf (before ++ line :: rest)) := by
  rw [Fits, kind] at fits
  rw [textOf_append, textOf_cons, eq_of_isKind fits (rfl : breakKind? '\n' = _)]
  rcases h with h | ⟨text, h⟩
  · exact .inr ⟨textOf before, by rw [h, List.append_nil]⟩
  · exact .inr ⟨textOf before ++ ['\n'] ++ text, by rw [h]; simp⟩

/-- The last token of a program ends a line. -/
theorem endsLine_of_isProgram {ts : List Token} {fs : List Function} (h : IsProgram ts fs)
    (fits : ∀ t ∈ ts, Fits t) : EndsLine (textOf ts) := by
  induction h with
  | nil => exact .inl rfl
  | @blank line ts fs kind _ ih =>
    have hrest := ih fun t ht => fits t (by simp [ht])
    exact endsLine_append_line [] (fits line (by simp)) kind hrest
  | @comment mark line inner ts fs kind inside ends _ ih =>
    have hrest := ih fun t ht => fits t (by simp [ht])
    exact endsLine_append_line (mark :: inner) (fits line (by simp)) ends hrest
  | @function name line header block ts body fs kind opens inside ends _ ih =>
    have hrest := ih fun t ht => fits t (by simp [ht])
    exact endsLine_append_line (name :: (header ++ block)) (fits line (by simp)) ends hrest

theorem endsLine_of_parse_lex {source : String} {p : Program}
    (h : Program.parse (lex source) = .ok p) : EndsLine source.toList := by
  obtain ⟨fs, hfs, -⟩ := Parse.bind_eq_ok_iff.1 h
  rw [← (lex_eq_iff.1 (rfl : lex source = lex source)).1]
  exact endsLine_of_isProgram (Parse.isProgram_of_functions hfs) fun t => fits_of_mem_lex

/-! ## Reading on -/

theorem Machine.State.eq_top_of_finish {s : State} {fs : List Function} (h : s.finish = .ok fs) :
    s = .top fs := by
  cases s with
  | top functions =>
    cases h
    rfl
  | _ => cases h

/-- After a program the functions of what follows are read as they are read alone. -/
theorem Parse.functions_append {ts : List Token} {fs : List Function} (h : functions ts = .ok fs)
    (us : List Token) :
    functions (ts ++ us) = functions us >>= fun more => .ok (fs ++ more) := by
  rw [Machine.functions_eq_run, Machine.State.run, bind_eq_ok_iff] at h
  obtain ⟨s, hs, hfinish⟩ := h
  obtain rfl := Machine.State.eq_top_of_finish hfinish
  rw [Machine.functions_eq_run, Machine.State.run_append, hs, ok_bind, Machine.State.run_top]

/-! ## Positions of trees and errors -/

/-- The positions in a program. -/
def Program.positions (p : Program) : List Position :=
  p.nodes.flatMap fun n => n.pos :: (n.name?.map Ident.pos).toList

/-- The positions in a syntax error. -/
def ParseError.positions : ParseError → List Position
  | unexpected t _ => [t.pos]
  | endOfInput _ => []

/-- Every position in a program is that of a token of its source. -/
theorem exists_mem_of_mem_positions {source : String} {p : Program}
    (h : Program.parse (lex source) = .ok p) {pos : Position} (hpos : pos ∈ p.positions) :
    ∃ t ∈ lex source, t.pos = pos := by
  obtain ⟨fs, hfs, h⟩ := Parse.bind_eq_ok_iff.1 h
  cases h
  have hmeets := meets_program (Parse.isProgram_of_functions hfs) fun t => fits_of_mem_lex
  obtain ⟨n, hn, hpos⟩ := List.mem_flatMap.1 hpos
  obtain ⟨before, t, after, hlex, hstarts⟩ := hmeets.exists_startsAt hn
  refine ⟨t, by rw [hlex]; simp, ?_⟩
  rcases List.mem_cons.1 hpos with rfl | hpos
  · exact hstarts.pos.symm
  · rw [Option.mem_toList, Option.map_eq_some_iff] at hpos
    obtain ⟨i, hi, rfl⟩ := hpos
    exact (hstarts.name i hi).symm

theorem exists_mem_of_mem_error_positions {ts : List Token} {e : ParseError}
    (h : Program.parse ts = .error e) {pos : Position} (hpos : pos ∈ e.positions) :
    ∃ t ∈ ts, t.pos = pos := by
  cases e with
  | unexpected t expected =>
    obtain ⟨before, after, rfl⟩ := exists_append_of_unexpected h
    exact ⟨t, by simp, (List.mem_singleton.1 hpos).symm⟩
  | endOfInput expected => exact absurd hpos List.not_mem_nil

/-- Lines and columns are no more than the characters before them allow. -/
theorem toNat_pos_le_of_mem_lex {t : String} (short : t.length < 2 ^ 32 - 1) {u : Token}
    (hu : u ∈ lex t) : u.pos.line.toNat ≤ t.length + 1 ∧ u.pos.column.toNat ≤ t.length + 1 := by
  obtain ⟨before, after, hlex⟩ := List.append_of_mem hu
  obtain ⟨hcovers, -, -, -, hplaces⟩ := lex_eq_iff.1 hlex
  have hbefore := length_textOf_le hcovers
  obtain ⟨hline, hcolumn⟩ := (eq_after_start_iff (by omega)).1 (hplaces before u after rfl)
  have hline_le := Position.lineAfter_le (textOf before)
  have hcolumn_le := Position.columnAfter_le (textOf before)
  omega

theorem lineBreaks_le (s : String) : lineBreaks s ≤ s.length := by
  rw [← String.length_toList]
  exact List.count_le_length

/-- The lines of the second of two sources can be counted on from those of the first. -/
theorem toNat_line_down_of_mem_lex {s t : String} (short : (s ++ t).length < 2 ^ 32 - 1)
    {u : Token} (hu : u ∈ lex t) :
    (u.pos.down (lineBreaks s)).line.toNat = u.pos.line.toNat + lineBreaks s := by
  rw [String.length_append] at short
  have hline := (toNat_pos_le_of_mem_lex (by omega) hu).1
  have hbreaks := lineBreaks_le s
  exact Position.toNat_line_down (by omega)

/-! ## Programs one after the other -/

/-- What is read from a program and a source behind it, by what is read from the source alone. -/
theorem parse_lex_append_eq {s : String} {p : Program} (h : Program.parse (lex s) = .ok p)
    (t : String) :
    Program.parse (lex (s ++ t)) = ((Program.parse (lex t)).map fun q =>
        ⟨p.functions ++ (q.relocate (.down (lineBreaks s))).functions⟩).mapError
      (ParseError.relocate (.down (lineBreaks s))) := by
  have ends := endsLine_of_parse_lex h
  obtain ⟨fs, hfs, hp⟩ := Parse.bind_eq_ok_iff.1 h
  cases hp
  rw [Program.parse, lex_append ends, Parse.functions_append hfs, Parse.functions_map_relocate,
    Program.parse]
  cases Parse.functions (lex t) <;> rfl

/-- **Sources concatenate.** A program `s` can be put before any source `t`. If `t` is a program,
the two together are the functions of `s` and then those of `t`, with every position of `t` as many
lines further down as `s` has line breaks. If it is not, they fail as `t` does, with the position of
the error as many lines further down. No line that is moved wraps around. A program is empty or ends
with a line break. -/
theorem parse_lex_append {s t : String} {p : Program} (short : (s ++ t).length < 2 ^ 32 - 1)
    (h : Program.parse (lex s) = .ok p) :
    (∀ q, Program.parse (lex t) = .ok q →
        Program.parse (lex (s ++ t)) =
            .ok ⟨p.functions ++ (q.relocate (.down (lineBreaks s))).functions⟩ ∧
          ∀ pos ∈ q.positions,
            (pos.down (lineBreaks s)).line.toNat = pos.line.toNat + lineBreaks s) ∧
      (∀ e, Program.parse (lex t) = .error e →
        Program.parse (lex (s ++ t)) = .error (e.relocate (.down (lineBreaks s))) ∧
          ∀ pos ∈ e.positions,
            (pos.down (lineBreaks s)).line.toNat = pos.line.toNat + lineBreaks s) ∧
      (s ≠ "" → ∃ before, s = before ++ "\n") := by
  have hread := parse_lex_append_eq h t
  refine ⟨fun q hq => ⟨?_, fun pos hpos => ?_⟩, fun e he => ⟨?_, fun pos hpos => ?_⟩, fun hs => ?_⟩
  · rw [hread, hq]
    rfl
  · obtain ⟨u, hu, rfl⟩ := exists_mem_of_mem_positions hq hpos
    exact toNat_line_down_of_mem_lex short hu
  · rw [hread, he]
    rfl
  · obtain ⟨u, hu, rfl⟩ := exists_mem_of_mem_error_positions he hpos
    exact toNat_line_down_of_mem_lex short hu
  · rcases endsLine_of_parse_lex h with hnil | ⟨before, hbefore⟩
    · exact absurd (String.toList_eq_nil_iff.1 hnil) hs
    · exact ⟨String.ofList before, String.toList_inj.1 (by rw [hbefore]; simp)⟩

/-- A comment, an empty line and a function before another function, and before a faulty one. -/
theorem parse_lex_append_commented :
    ("#é\n\nf() \x7b\n\x7d\n" ++ "g() \x7b\n\tprint true\n\x7d\n").length < 2 ^ 32 - 1 ∧
      Program.parse (lex ("#é\n\nf() \x7b\n\x7d\n" ++ "g() \x7b\n\tprint true\n\x7d\n")) =
        .ok ⟨[⟨⟨"f", ⟨3, 1⟩⟩, []⟩, ⟨⟨"g", ⟨5, 1⟩⟩, [.print (.bool true ⟨6, 8⟩)]⟩]⟩ ∧
      Program.parse (lex ("#é\n\nf() \x7b\n\x7d\n" ++ "g(\n")) =
        .error (.unexpected ⟨.line, "\n", ⟨5, 3⟩⟩ [.parenClose]) := by
  have hs : Program.parse (lex "#é\n\nf() \x7b\n\x7d\n") = .ok ⟨[⟨⟨"f", ⟨3, 1⟩⟩, []⟩]⟩ := by
    decide +kernel
  have ht : Program.parse (lex "g() \x7b\n\tprint true\n\x7d\n") =
      .ok ⟨[⟨⟨"g", ⟨1, 1⟩⟩, [.print (.bool true ⟨2, 8⟩)]⟩]⟩ := by decide +kernel
  have ht' : Program.parse (lex "g(\n") =
      .error (.unexpected ⟨.line, "\n", ⟨1, 3⟩⟩ [.parenClose]) := by decide +kernel
  exact ⟨by decide, ((parse_lex_append (by decide) hs).1 _ ht).1.trans (by decide +kernel),
    ((parse_lex_append (by decide) hs).2.1 _ ht').1.trans (by decide +kernel)⟩

end Tabscript
