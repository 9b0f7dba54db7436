import Tabscript.Proofs.Machine
import Tabscript.Token.Lexer

/-!
# Empty lines

Outside strings every line break ends a line, and the machine is then where a line can start:
between functions, or in a block. Such a state takes any number of line breaks without being
changed, so an empty line can be put wherever a line starts.

* `State.AtLineStart` are the states where a line can start, and `AtLineStart.step_line` says that
  line breaks leave them alone.
* `State.EndsLines` is the invariant: a line break that is still to come leads to such a state.
* `atLineStart_of_foldlM` says that a line break outside a string has led to such a state.
* `parse_insert_line` is the same about programs.
-/

namespace Tabscript

namespace Machine.State

/-! ## Line starts -/

/-- A line can start here: between functions, or in a block. -/
inductive AtLineStart : State → Prop
  | top (functions : List Function) : AtLineStart (.top functions)
  | block (b : Body) : AtLineStart (.lineStart b)

/-- A line break where a line can start is an empty line, and adds nothing. -/
theorem AtLineStart.step_line {s : State} (h : s.AtLineStart) {t : Token} (kind : t.kind = .line) :
    s.step t = .ok s := by
  cases h with
  | top functions => simp only [step, kind]
  | block b => rw [step, if_pos kind]

/-- The line breaks among the tokens that have to follow lead to where a line can start. -/
def EndsLines : State → Prop
  | expect kind next => (kind = .line → next.AtLineStart) ∧ next.EndsLines
  | _ => True

theorem AtLineStart.endsLines {s : State} (h : s.AtLineStart) : s.EndsLines := by
  cases h <;> exact trivial

theorem AtLineStart.endsLines_expect {s : State} (h : s.AtLineStart) (kind : TokenKind) :
    (State.expect kind s).EndsLines := ⟨fun _ => h, h.endsLines⟩

/-- A token of another kind. -/
theorem EndsLines.expect {s : State} (h : s.EndsLines) {kind : TokenKind} (other : kind ≠ .line) :
    (State.expect kind s).EndsLines := ⟨fun hkind => absurd hkind other, h⟩

/-- Tokens of other kinds, then a line break. -/
theorem AtLineStart.endsLines_expectAll {s : State} (h : s.AtLineStart) (kinds : List TokenKind)
    (others : .line ∉ kinds) : (expectAll (kinds ++ [.line]) s).EndsLines := by
  induction kinds with
  | nil => exact h.endsLines_expect .line
  | cons kind kinds ih =>
    rw [List.mem_cons, not_or] at others
    exact (ih others.2).expect (Ne.symm others.1)

/-! ## The invariant -/

theorem endsLines_exprStart (c : Context) : (exprStart c).EndsLines := trivial

theorem endsLines_close (b : Body) : b.close.EndsLines := by
  obtain ⟨functions, name, frames, stmts⟩ := b
  cases frames with
  | nil => exact (AtLineStart.top _).endsLines_expect .line
  | cons frame frames => exact (AtLineStart.block _).endsLines_expect .line

/-- An expression is followed by the end of its line, directly or behind the header of a block. -/
theorem endsLines_done (c : Context) (e : Expr) : (c.done e).EndsLines := by
  obtain ⟨role, b, pending⟩ := c
  cases role with
  | condition =>
    exact (AtLineStart.block _).endsLines_expectAll [.parenClose, .space, .braceOpen] (by decide)
  | eval => exact (AtLineStart.block _).endsLines_expect .line
  | print => exact (AtLineStart.block _).endsLines_expect .line
  | ret => exact (AtLineStart.block _).endsLines_expect .line

theorem endsLines_next (c : Context) (e : Expr) : (c.next e).EndsLines := (endsLines_done c e).2

theorem endsLines_ofWord (t : Token) (c : Context) : (ofWord t c).EndsLines := by
  unfold ofWord
  split
  · exact endsLines_done c _
  · trivial

theorem endsLines_ofStmtWord (t : Token) (b : Body) : (ofStmtWord t b).EndsLines := by
  unfold ofStmtWord
  split
  · exact ((endsLines_exprStart _).expect (by decide)).expect (by decide)
  · exact (endsLines_exprStart _).expect (by decide)
  · exact (endsLines_exprStart _).expect (by decide)
  · exact endsLines_ofWord t _

theorem endsLines_ofName (functions : List Function) (name : Ident) :
    (ofName functions name).EndsLines :=
  (AtLineStart.block _).endsLines_expectAll [.parenOpen, .parenClose, .space, .braceOpen]
    (by decide)

theorem take_eq_ok_iff {kind : TokenKind} {next s : State} {t : Token} :
    take kind next t = .ok s ↔ t.kind = kind ∧ next = s := by
  rw [take]
  split <;> simp_all

theorem endsLines_of_stepMargin {tabs : Nat} {b : Body} {t : Token} {s : State}
    (h : stepMargin tabs b t = .ok s) : s.EndsLines := by
  cases tabs with
  | zero =>
    rw [stepMargin] at h
    split at h <;> cases h
    · exact endsLines_close b
    · trivial
  | succ tabs =>
    obtain ⟨-, rfl⟩ := take_eq_ok_iff.1 h
    trivial

/-- Every token keeps the invariant. -/
theorem EndsLines.step {s s' : State} {t : Token} (h : s.EndsLines) (hstep : s.step t = .ok s') :
    s'.EndsLines := by
  cases s with
  | top functions =>
    rw [State.step] at hstep
    split at hstep <;> cases hstep
    · trivial
    · exact endsLines_ofName functions _
    · trivial
  | comment functions =>
    cases hstep
    split <;> trivial
  | expect kind next =>
    obtain ⟨-, rfl⟩ := take_eq_ok_iff.1 hstep
    exact h.2
  | lineStart b =>
    rw [State.step] at hstep
    split at hstep
    · cases hstep
      trivial
    · exact endsLines_of_stepMargin hstep
  | margin tabs b => exact endsLines_of_stepMargin hstep
  | stmtStart b =>
    obtain ⟨-, rfl⟩ := take_eq_ok_iff.1 hstep
    exact endsLines_ofStmtWord t b
  | exprStart c =>
    rw [State.step] at hstep
    split at hstep <;> cases hstep
    · exact endsLines_ofWord t c
    · exact endsLines_done c _
    · trivial
  | quote pos text c =>
    cases hstep
    split
    · exact endsLines_done c _
    · trivial
  | afterName name c =>
    rw [State.step] at hstep
    split at hstep
    · obtain ⟨-, rfl⟩ := take_eq_ok_iff.1 hstep
      exact endsLines_next c _
    · obtain ⟨-, rfl⟩ := take_eq_ok_iff.1 hstep
      exact endsLines_next c _
    · cases hstep
      exact (endsLines_done c _).expect (by decide)
    · cases hstep
      trivial
    · cases hstep
  | symbol name c =>
    obtain ⟨-, rfl⟩ := take_eq_ok_iff.1 hstep
    exact (endsLines_exprStart _).expect (by decide)

/-- So every run keeps it. -/
theorem EndsLines.foldlM {s s' : State} {ts : List Token} (h : s.EndsLines)
    (hrun : ts.foldlM State.step s = .ok s') : s'.EndsLines := by
  induction ts generalizing s with
  | nil =>
    cases hrun
    exact h
  | cons t ts ih =>
    rw [List.foldlM_cons, Parse.bind_eq_ok_iff] at hrun
    obtain ⟨next, hstep, hrun⟩ := hrun
    exact ih (h.step hstep) hrun

/-! ## Line breaks -/

/-- The machine is inside a string. -/
def InQuote (s : State) : Prop := ∃ pos text c, s = .quote pos text c

/-- A line break that is taken leads to where a line can start, unless it stands in a string. -/
theorem EndsLines.atLineStart_of_step {s s' : State} {t : Token} (h : s.EndsLines)
    (kind : t.kind = .line) (hstep : s.step t = .ok s') : s'.AtLineStart ∨ s'.InQuote := by
  cases s with
  | top functions =>
    rw [(AtLineStart.top functions).step_line kind] at hstep
    cases hstep
    exact .inl (.top functions)
  | comment functions =>
    rw [State.step, if_pos kind] at hstep
    cases hstep
    exact .inl (.top functions)
  | expect expected next =>
    obtain ⟨hkind, rfl⟩ := take_eq_ok_iff.1 hstep
    exact .inl (h.1 (hkind.symm.trans kind))
  | lineStart b =>
    rw [(AtLineStart.block b).step_line kind] at hstep
    cases hstep
    exact .inl (.block b)
  | margin tabs b =>
    cases tabs with
    | zero => simp only [State.step, stepMargin, kind, reduceCtorEq] at hstep
    | succ tabs =>
      obtain ⟨hkind, -⟩ := take_eq_ok_iff.1 hstep
      cases hkind.symm.trans kind
  | stmtStart b =>
    obtain ⟨hkind, -⟩ := take_eq_ok_iff.1 hstep
    cases hkind.symm.trans kind
  | exprStart c => simp only [State.step, kind, reduceCtorEq] at hstep
  | quote pos text c =>
    rw [State.step, if_neg (by rw [kind]; decide)] at hstep
    cases hstep
    exact .inr ⟨pos, _, c, rfl⟩
  | afterName name c =>
    simp only [State.step, kind] at hstep
    obtain ⟨hkind, rfl⟩ := take_eq_ok_iff.1 hstep
    exact .inl ((endsLines_done c _).1 (hkind.symm.trans kind))
  | symbol name c =>
    obtain ⟨hkind, -⟩ := take_eq_ok_iff.1 hstep
    cases hkind.symm.trans kind

/-- After tokens that are none or end with a line break a line can start, unless they end inside
a string. -/
theorem atLineStart_of_foldlM {ts : List Token} {s : State}
    (hrun : ts.foldlM State.step (.top []) = .ok s)
    (ends : ∀ last ∈ ts.getLast?, last.kind = .line) : s.AtLineStart ∨ s.InQuote := by
  rcases ts.eq_nil_or_concat with rfl | ⟨before, last, rfl⟩
  · cases hrun
    exact .inl (.top [])
  · rw [List.concat_eq_append] at ends hrun
    rw [List.foldlM_append, Parse.bind_eq_ok_iff] at hrun
    obtain ⟨previous, hbefore, hlast⟩ := hrun
    rw [List.foldlM_cons, Parse.bind_eq_ok_iff] at hlast
    obtain ⟨next, hstep, hnext⟩ := hlast
    cases hnext
    have hinvariant : previous.EndsLines := EndsLines.foldlM (s := .top []) trivial hbefore
    exact hinvariant.atLineStart_of_step (ends last List.getLast?_concat) hstep

end Machine.State

/-! ## Programs -/

open Machine

/-- **Empty lines never matter outside strings.** Where a line can start, after tokens that are none
or end with a line break and that do not end inside a string, one more line break changes neither
the program that is read nor the error. -/
theorem parse_insert_line {before after : List Token} {line : Token}
    (ends : ∀ last ∈ before.getLast?, last.kind = .line)
    (outside : Program.parse before ≠ .error (.endOfInput [.string])) (kind : line.kind = .line) :
    Program.parse (before ++ [line] ++ after) = Program.parse (before ++ after) := by
  have hrun : (State.top []).run (before ++ [line] ++ after) =
      (State.top []).run (before ++ after) := by
    rw [List.append_assoc, State.run_append, State.run_append, List.singleton_append]
    cases hbefore : before.foldlM State.step (.top []) with
    | error e => rfl
    | ok s =>
      rcases State.atLineStart_of_foldlM hbefore ends with hs | ⟨pos, text, c, rfl⟩
      · exact State.run_cons_of_step (hs.step_line kind) after
      · refine absurd ?_ outside
        rw [Program.parse, functions_eq_run, State.run, hbefore]
        rfl
  rw [Program.parse, Program.parse, functions_eq_run, functions_eq_run, hrun]

/-- An empty line after a nested closing brace, before a string that holds a line break itself. -/
theorem parse_insert_line_after_brace :
    (∀ last ∈ (lex "f() \x7b\n\tif (x) \x7b\n\t\x7d\n").getLast?, last.kind = .line) ∧
      Program.parse (lex "f() \x7b\n\tif (x) \x7b\n\t\x7d\n") ≠ .error (.endOfInput [.string]) ∧
      Program.parse (lex "f() \x7b\n\tif (x) \x7b\n\t\x7d\n" ++ [⟨.line, "", ⟨7, 7⟩⟩] ++
          lex "\tprint \"\n\"\n\x7d\n") =
        .ok ⟨[⟨⟨"f", ⟨1, 1⟩⟩, [.branch (.var ⟨"x", ⟨2, 6⟩⟩ ⟨2, 6⟩) [],
          .print (.string "\n" ⟨1, 8⟩)]⟩]⟩ := by
  have hends : ∀ last ∈ (lex "f() \x7b\n\tif (x) \x7b\n\t\x7d\n").getLast?, last.kind = .line := by
    decide +kernel
  have houtside : Program.parse (lex "f() \x7b\n\tif (x) \x7b\n\t\x7d\n") ≠
      .error (.endOfInput [.string]) := by decide +kernel
  exact ⟨hends, houtside, (parse_insert_line hends houtside rfl).trans (by decide +kernel)⟩

end Tabscript
