import Tabscript.Proofs.EmptyLines
import Tabscript.Proofs.ViablePrefix

/-!
# Indentation is exact

How many tabs a line starts with is no choice of the writer. Where a line can start, the machine and
the first token after the tabs fix their number: none between functions and on an empty line, the
depth of the block before its closing brace, and one more before a statement. So no line of a
program can gain or lose a tab.

* `leadingTabs` counts the tabs that tokens start with, and `afterTabs?` is the kind of the token
  after them.
* `State.tabsBefore` is the number that the machine asks for, and
  `AtLineStart.leadingTabs_eq` says that it accepts no other.
* `length_eq_of_isAccepted` compares two programs that differ in the tabs of one line.
-/

namespace Tabscript

/-! ## The tabs of a line -/

/-- The number of tabs that the tokens start with. -/
def leadingTabs (ts : List Token) : Nat := (ts.takeWhile (·.kind = .indent)).length

/-- The kind of the first token that is no tab. -/
def afterTabs? (ts : List Token) : Option TokenKind :=
  (ts.dropWhile (·.kind = .indent)).head?.map Token.kind

section

variable {t : Token} (ts : List Token)

theorem leadingTabs_cons_of_eq (h : t.kind = .indent) :
    leadingTabs (t :: ts) = leadingTabs ts + 1 := by
  rw [leadingTabs, List.takeWhile_cons_of_pos (by simpa using h), List.length_cons, leadingTabs]

theorem leadingTabs_cons_of_ne (h : t.kind ≠ .indent) : leadingTabs (t :: ts) = 0 := by
  rw [leadingTabs, List.takeWhile_cons_of_neg (by simpa using h), List.length_nil]

theorem afterTabs?_cons_of_eq (h : t.kind = .indent) : afterTabs? (t :: ts) = afterTabs? ts := by
  rw [afterTabs?, List.dropWhile_cons_of_pos (by simpa using h), afterTabs?]

theorem afterTabs?_cons_of_ne (h : t.kind ≠ .indent) : afterTabs? (t :: ts) = some t.kind := by
  rw [afterTabs?, List.dropWhile_cons_of_neg (by simpa using h)]
  rfl

/-- More tabs in front add to the number and leave the token after them alone. -/
theorem leadingTabs_append {tabs : List Token} (h : ∀ t ∈ tabs, t.kind = .indent) :
    leadingTabs (tabs ++ ts) = tabs.length + leadingTabs ts ∧
      afterTabs? (tabs ++ ts) = afterTabs? ts := by
  induction tabs with
  | nil => exact ⟨(Nat.zero_add _).symm, rfl⟩
  | cons t tabs ih =>
    have ht : t.kind = .indent := h t List.mem_cons_self
    obtain ⟨hnumber, hkind⟩ := ih fun u hu => h u (List.mem_cons_of_mem t hu)
    rw [List.cons_append, leadingTabs_cons_of_eq _ ht, afterTabs?_cons_of_eq _ ht, hnumber, hkind,
      List.length_cons]
    exact ⟨by omega, rfl⟩

end

namespace Machine.State

/-- The number of tabs that a line starts with, given the kind of the first token after them. -/
def tabsBefore : State → Option TokenKind → Nat
  | lineStart _, some .line => 0
  | lineStart b, some .braceClose => b.depth
  | lineStart b, _ => b.depth + 1
  | _, _ => 0

/-- A state that cannot be the last one takes a first token. -/
theorem exists_step_of_run {s : State} {ts : List Token} {functions : List Function}
    (hrun : s.run ts = .ok functions) (hs : s.finish = .error (.endOfInput s.expected)) :
    ∃ t rest s', ts = t :: rest ∧ s.step t = .ok s' ∧ s'.run rest = .ok functions := by
  cases ts with
  | nil => cases hs.symm.trans hrun
  | cons t rest =>
    rw [run_cons, Parse.bind_eq_ok_iff] at hrun
    obtain ⟨s', hstep, hrest⟩ := hrun
    exact ⟨t, rest, s', rfl, hstep, hrest⟩

/-- The tabs of a margin are followed by a closing brace, or by one more and a statement. -/
theorem leadingTabs_of_run_margin {tabs : Nat} {b : Body} {ts : List Token}
    {functions : List Function} (hrun : (margin tabs b).run ts = .ok functions) :
    afterTabs? ts = some .braceClose ∧ leadingTabs ts = tabs ∨
      afterTabs? ts = some .identifier ∧ leadingTabs ts = tabs + 1 := by
  induction tabs generalizing ts with
  | zero =>
    obtain ⟨t, rest, s, rfl, hstep, hrest⟩ := exists_step_of_run hrun rfl
    rw [step, stepMargin] at hstep
    split at hstep
    case h_1 hkind =>
      have hother : t.kind ≠ .indent := by rw [hkind]; decide
      exact .inl ⟨by rw [afterTabs?_cons_of_ne _ hother, hkind], leadingTabs_cons_of_ne _ hother⟩
    case h_2 hkind =>
      cases hstep
      obtain ⟨word, rest, s, rfl, hstep, -⟩ := exists_step_of_run hrest rfl
      obtain ⟨hword, -⟩ := take_eq_ok_iff.1 hstep
      have hother : word.kind ≠ .indent := by rw [hword]; decide
      rw [leadingTabs_cons_of_eq _ hkind, afterTabs?_cons_of_eq _ hkind,
        leadingTabs_cons_of_ne _ hother, afterTabs?_cons_of_ne _ hother, hword]
      exact .inr ⟨rfl, rfl⟩
    case h_3 => cases hstep
  | succ tabs ih =>
    obtain ⟨t, rest, s, rfl, hstep, hrest⟩ := exists_step_of_run hrun rfl
    obtain ⟨hkind, rfl⟩ := take_eq_ok_iff.1 hstep
    rw [leadingTabs_cons_of_eq _ hkind, afterTabs?_cons_of_eq _ hkind]
    rcases ih hrest with ⟨hafter, htabs⟩ | ⟨hafter, htabs⟩
    · exact .inl ⟨hafter, by rw [htabs]⟩
    · exact .inr ⟨hafter, by rw [htabs]⟩

/-- Where a line can start, the tabs before its first other token are as many as the machine asks
for before a token of that kind. -/
theorem AtLineStart.leadingTabs_eq {s : State} (hs : s.AtLineStart) {ts : List Token}
    {functions : List Function} (hrun : s.run ts = .ok functions) :
    leadingTabs ts = s.tabsBefore (afterTabs? ts) := by
  cases hs with
  | top before =>
    cases ts with
    | nil => rfl
    | cons t ts =>
      refine leadingTabs_cons_of_ne ts fun hkind => ?_
      simp only [run_cons, step, hkind, Parse.error_bind, reduceCtorEq] at hrun
  | block b =>
    obtain ⟨t, rest, -, rfl, -⟩ := exists_step_of_run hrun rfl
    by_cases hline : t.kind = .line
    · have hother : t.kind ≠ .indent := by rw [hline]; decide
      rw [leadingTabs_cons_of_ne _ hother, afterTabs?_cons_of_ne _ hother, hline, tabsBefore]
    · rw [run_lineStart_eq_margin, List.dropWhile_cons_of_neg (by simpa using hline)] at hrun
      rcases leadingTabs_of_run_margin hrun with ⟨hafter, htabs⟩ | ⟨hafter, htabs⟩
      · rw [hafter, htabs, tabsBefore]
      · rw [hafter, htabs]
        rfl

end Machine.State

/-! ## Programs -/

open Machine

/-- The tokens of a program are those on which the machine ends well. -/
theorem isAccepted_iff_exists_run {ts : List Token} :
    IsAccepted ts ↔ ∃ functions, (State.top []).run ts = .ok functions := by
  simp only [IsAccepted, Program.parse, functions_eq_run, Parse.bind_eq_ok_iff]
  constructor
  · rintro ⟨p, functions, hrun, -⟩
    exact ⟨functions, hrun⟩
  · rintro ⟨functions, hrun⟩
    exact ⟨⟨functions⟩, functions, hrun, rfl⟩

/-- Two programs that differ in the tabs at the start of one line only have as many of them. -/
theorem length_eq_of_isAccepted {before tabs tabs' after : List Token}
    (ends : ∀ last ∈ before.getLast?, last.kind = .line)
    (outside : Program.parse before ≠ .error (.endOfInput [.string]))
    (htabs : ∀ t ∈ tabs, t.kind = .indent) (htabs' : ∀ t ∈ tabs', t.kind = .indent)
    (h : IsAccepted (before ++ (tabs ++ after))) (h' : IsAccepted (before ++ (tabs' ++ after))) :
    tabs.length = tabs'.length := by
  obtain ⟨functions, hrun⟩ := isAccepted_iff_exists_run.1 h
  obtain ⟨functions', hrun'⟩ := isAccepted_iff_exists_run.1 h'
  rw [State.run_append, Parse.bind_eq_ok_iff] at hrun hrun'
  obtain ⟨s, hbefore, hrun⟩ := hrun
  obtain ⟨s', hbefore', hrun'⟩ := hrun'
  cases hbefore.symm.trans hbefore'
  rcases State.atLineStart_of_foldlM hbefore ends with hs | ⟨pos, text, c, rfl⟩
  · have hnumber := hs.leadingTabs_eq hrun
    have hnumber' := hs.leadingTabs_eq hrun'
    rw [(leadingTabs_append after htabs).1, (leadingTabs_append after htabs).2] at hnumber
    rw [(leadingTabs_append after htabs').1, (leadingTabs_append after htabs').2] at hnumber'
    omega
  · refine absurd ?_ outside
    rw [Program.parse, functions_eq_run, State.run, hbefore]
    rfl

/-- **Indentation is exact.** Where a line can start, after tokens that are none or end with a line
break and that do not end inside a string, a tab makes a difference: the tokens with it and the
tokens without it are not both a program. -/
theorem not_isAccepted_insert_indent {before after : List Token} {tab : Token}
    (ends : ∀ last ∈ before.getLast?, last.kind = .line)
    (outside : Program.parse before ≠ .error (.endOfInput [.string])) (kind : tab.kind = .indent) :
    ¬ (IsAccepted (before ++ after) ∧ IsAccepted (before ++ [tab] ++ after)) := by
  rintro ⟨h, h'⟩
  rw [List.append_assoc] at h'
  have hlength : ([] : List Token).length = [tab].length :=
    length_eq_of_isAccepted ends outside nofun (by simpa using kind) h h'
  cases hlength

/-- The closing brace of a nested block, one tab too deep. -/
theorem not_isAccepted_deeper_brace :
    (∀ last ∈ (lex "f() \x7b\n\tif (x) \x7b\n").getLast?, last.kind = .line) ∧
      Program.parse (lex "f() \x7b\n\tif (x) \x7b\n") ≠ .error (.endOfInput [.string]) ∧
      IsAccepted (lex "f() \x7b\n\tif (x) \x7b\n" ++ lex "\t\x7d\n\x7d\n") ∧
      ¬ IsAccepted (lex "f() \x7b\n\tif (x) \x7b\n" ++ [⟨.indent, "\t", ⟨3, 1⟩⟩] ++
        lex "\t\x7d\n\x7d\n") := by
  have hends : ∀ last ∈ (lex "f() \x7b\n\tif (x) \x7b\n").getLast?, last.kind = .line := by
    decide +kernel
  have houtside : Program.parse (lex "f() \x7b\n\tif (x) \x7b\n") ≠
      .error (.endOfInput [.string]) := by decide +kernel
  have haccepted : IsAccepted (lex "f() \x7b\n\tif (x) \x7b\n" ++ lex "\t\x7d\n\x7d\n") :=
    ⟨⟨[⟨⟨"f", ⟨1, 1⟩⟩, [.branch (.var ⟨"x", ⟨2, 6⟩⟩ ⟨2, 6⟩) []]⟩]⟩, by decide +kernel⟩
  exact ⟨hends, houtside, haccepted,
    fun h => not_isAccepted_insert_indent hends houtside rfl ⟨haccepted, h⟩⟩

end Tabscript
