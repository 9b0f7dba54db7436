import Tabscript.Proofs.Machine

/-!
# Syntax errors come as early as they can

The machine never enters a state from which no program can be reached, so the token that it
refuses is the first one that no continuation can repair. With the machine out of sight this says
what the reading of a program is worth when it fails: an early end of the input can always be
continued to a program, and a token that is blamed is blamed whatever follows it.

* `State.completable` completes every state of the machine.
* `State.step_eq_error` says which errors a single token can raise.
* `parse_trichotomy` puts the two together.
-/

namespace Tabscript

namespace Machine.State

/-! ## Completions -/

/-- Some tokens lead from the state to the end of a program. -/
def Completable (s : State) : Prop := ∃ ts functions, s.run ts = .ok functions

/-- A state from which one token leads to a completable one is completable. -/
theorem Completable.of_step {s s' : State} (t : Token) (hstep : s.step t = .ok s')
    (h : s'.Completable) : s.Completable := by
  obtain ⟨ts, functions, hrun⟩ := h
  exact ⟨t :: ts, functions, by rw [run_cons_of_step hstep, hrun]⟩

theorem completable_top (functions : List Function) : (top functions).Completable :=
  ⟨[], functions, rfl⟩

theorem Completable.expect {s : State} (h : s.Completable) (kind : TokenKind) :
    (State.expect kind s).Completable :=
  h.of_step ⟨kind, "", .start⟩ (if_pos rfl)

theorem Completable.expectAll {s : State} (h : s.Completable) (kinds : List TokenKind) :
    (State.expectAll kinds s).Completable := by
  induction kinds with
  | nil => exact h
  | cons kind kinds ih => exact ih.expect kind

/-- The tabs and the brace of a closing line complete a margin. -/
theorem completable_margin {b : Body} (h : b.close.Completable) (tabs : Nat) :
    (margin tabs b).Completable := by
  induction tabs with
  | zero => exact h.of_step ⟨.braceClose, "", .start⟩ rfl
  | succ tabs ih => exact ih.of_step ⟨.indent, "", .start⟩ rfl

theorem completable_lineStart_of_close {b : Body} (h : b.close.Completable) :
    (lineStart b).Completable := by
  cases hdepth : b.depth with
  | zero =>
    refine h.of_step ⟨.braceClose, "", .start⟩ ?_
    rw [step, hdepth]
    rfl
  | succ tabs =>
    refine (completable_margin h tabs).of_step ⟨.indent, "", .start⟩ ?_
    rw [step, hdepth]
    rfl

/-- The open blocks can be closed one by one, from the inside out. -/
theorem completable_close (b : Body) : b.close.Completable := by
  obtain ⟨functions, name, frames, stmts⟩ := b
  induction frames generalizing stmts with
  | nil => exact (completable_top _).expect .line
  | cons frame frames ih => exact (completable_lineStart_of_close (ih _)).expect .line

theorem completable_lineStart (b : Body) : (lineStart b).Completable :=
  completable_lineStart_of_close (completable_close b)

theorem completable_done (c : Context) (e : Expr) : (c.done e).Completable := by
  obtain ⟨role, b, pending⟩ := c
  refine Completable.expect ?_ _
  cases role with
  | eval => exact completable_lineStart _
  | print => exact completable_lineStart _
  | ret => exact completable_lineStart _
  | condition => exact (completable_lineStart _).expectAll [.space, .braceOpen, .line]

/-- A number completes an expression. -/
theorem completable_exprStart (c : Context) : (exprStart c).Completable :=
  (completable_done c _).of_step ⟨.number, "", .start⟩ rfl

/-- From every state some tokens lead to the end of a program. -/
theorem completable (s : State) : s.Completable := by
  induction s with
  | top functions => exact completable_top functions
  | comment functions => exact (completable_top functions).of_step ⟨.line, "", .start⟩ rfl
  | expect kind next ih => exact ih.expect kind
  | lineStart b => exact completable_lineStart b
  | margin tabs b => exact completable_margin (completable_close b) tabs
  | stmtStart b =>
    exact (completable_done ⟨.eval, b, []⟩ _).of_step ⟨.identifier, "true", .start⟩ rfl
  | exprStart c => exact completable_exprStart c
  | quote pos text c => exact (completable_done c _).of_step ⟨.string, "", .start⟩ rfl
  | afterName name c =>
    exact ((completable_done c _).expect .parenClose).of_step ⟨.parenOpen, "", .start⟩ rfl
  | symbol name c =>
    exact ((completable_exprStart _).expect .space).of_step ⟨.symbol, "", .start⟩ rfl

/-! ## Errors -/

theorem take_eq_error {kind : TokenKind} {next : State} {t : Token} {e : ParseError}
    (h : take kind next t = .error e) :
    ∃ expected, e = .unexpected t expected ∧ t.kind ∉ expected := by
  rw [take] at h
  split at h
  · cases h
  · cases h
    exact ⟨[kind], rfl, by simpa⟩

theorem stepMargin_eq_error {tabs : Nat} {b : Body} {t : Token} {e : ParseError}
    (h : stepMargin tabs b t = .error e) :
    ∃ expected, e = .unexpected t expected ∧ t.kind ∉ expected := by
  cases tabs with
  | zero =>
    rw [stepMargin] at h
    split at h <;> cases h
    exact ⟨_, rfl, by simp_all [marginKinds]⟩
  | succ tabs => exact take_eq_error h

/-- A token that is refused has none of the kinds that could have stood in its place. -/
theorem step_eq_error {s : State} {t : Token} {e : ParseError} (h : s.step t = .error e) :
    ∃ expected, e = .unexpected t expected ∧ t.kind ∉ expected := by
  cases s with
  | comment functions => cases h
  | quote pos text c => cases h
  | expect kind next => exact take_eq_error h
  | stmtStart b => exact take_eq_error h
  | symbol name c => exact take_eq_error h
  | margin tabs b => exact stepMargin_eq_error h
  | lineStart b =>
    rw [step] at h
    split at h
    · cases h
    · exact stepMargin_eq_error h
  | top functions =>
    rw [step] at h
    split at h <;> cases h
    exact ⟨_, rfl, by simp_all⟩
  | exprStart c =>
    rw [step] at h
    split at h <;> cases h
    exact ⟨_, rfl, by simp_all⟩
  | afterName name c =>
    rw [step] at h
    split at h
    · exact take_eq_error h
    · exact take_eq_error h
    · cases h
    · cases h
    · cases h
      exact ⟨_, rfl, by simp_all⟩

/-- Where a run fails before its end, a token is refused after all tokens before it were taken. -/
theorem exists_step_eq_error {s : State} {ts : List Token} {e : ParseError}
    (h : ts.foldlM step s = .error e) :
    ∃ pre t post s', ts = pre ++ t :: post ∧ pre.foldlM step s = .ok s' ∧ s'.step t = .error e := by
  induction ts generalizing s with
  | nil => cases h
  | cons t ts ih =>
    rw [List.foldlM_cons] at h
    cases hstep : s.step t with
    | error e' =>
      rw [hstep] at h
      cases h
      exact ⟨[], t, ts, s, rfl, rfl, hstep⟩
    | ok s' =>
      rw [hstep] at h
      obtain ⟨pre, u, post, last, rfl, hpre, hu⟩ := ih h
      exact ⟨t :: pre, u, post, last, rfl, by rw [List.foldlM_cons, hstep]; exact hpre, hu⟩

/-- A run that stops between functions is complete, and any other one lacks a token. -/
theorem finish_eq (s : State) :
    (∃ functions, s.finish = .ok functions) ∨ s.finish = .error (.endOfInput s.expected) := by
  cases s with
  | top functions => exact .inl ⟨functions, rfl⟩
  | _ => exact .inr rfl

end Machine.State

/-! ## Programs -/

open Machine

/-- The tokens are a program. -/
def IsAccepted (ts : List Token) : Prop := ∃ p, Program.parse ts = .ok p

/-- Some continuation of the tokens is a program. -/
def IsViable (ts : List Token) : Prop := ∃ us, IsAccepted (ts ++ us)

/-- The tokens end too early, and some continuation of them is a program. -/
def IsUnfinished (ts : List Token) : Prop :=
  (∃ expected, Program.parse ts = .error (.endOfInput expected)) ∧ IsViable ts

/-- The token `t` is blamed, as none of the kinds that could have stood in its place. Some
continuation of the tokens before it is a program, and what follows it makes no difference. -/
def IsRefused (ts : List Token) : Prop :=
  ∃ pre t post expected, Program.parse ts = .error (.unexpected t expected) ∧
    ts = pre ++ t :: post ∧ t.kind ∉ expected ∧ IsViable pre ∧
    ∀ post', Program.parse (pre ++ t :: post') = .error (.unexpected t expected)

/-- What the machine takes can be completed. -/
theorem isViable_of_foldlM {ts : List Token} {s : State}
    (h : ts.foldlM State.step (.top []) = .ok s) : IsViable ts := by
  obtain ⟨us, functions, hus⟩ := s.completable
  refine ⟨us, ⟨functions⟩, ?_⟩
  rw [Program.parse, functions_eq_run, State.run_append, h, Parse.ok_bind, hus, Parse.ok_bind]

theorem accepted_or_unfinished_of_foldlM {ts : List Token} {s : State}
    (h : ts.foldlM State.step (.top []) = .ok s) : IsAccepted ts ∨ IsUnfinished ts := by
  have hparse : Program.parse ts = s.finish >>= fun functions => .ok ⟨functions⟩ := by
    rw [Program.parse, functions_eq_run, State.run, h, Parse.ok_bind]
  obtain ⟨functions, hfinish⟩ | hfinish := s.finish_eq
  · rw [hfinish] at hparse
    exact .inl ⟨⟨functions⟩, hparse⟩
  · rw [hfinish] at hparse
    exact .inr ⟨⟨s.expected, hparse⟩, isViable_of_foldlM h⟩

/-- What the machine does not take is refused at its first wrong token. -/
theorem isRefused_of_foldlM {ts : List Token} {e : ParseError}
    (h : ts.foldlM State.step (.top []) = .error e) : IsRefused ts := by
  obtain ⟨pre, t, post, s, rfl, hpre, ht⟩ := State.exists_step_eq_error h
  obtain ⟨expected, rfl, hkind⟩ := State.step_eq_error ht
  have hparse : ∀ post', Program.parse (pre ++ t :: post') = .error (.unexpected t expected) := by
    intro post'
    rw [Program.parse, functions_eq_run, State.run_append, hpre, Parse.ok_bind, State.run_cons, ht]
    rfl
  exact ⟨pre, t, post, expected, hparse post, rfl, hkind, isViable_of_foldlM hpre, hparse⟩

/-- No continuation of refused tokens is a program. -/
theorem IsRefused.not_isViable {ts : List Token} (h : IsRefused ts) : ¬ IsViable ts := by
  rintro ⟨us, p, hp⟩
  obtain ⟨pre, t, post, expected, -, rfl, -, -, hparse⟩ := h
  rw [List.append_assoc, List.cons_append, hparse] at hp
  cases hp

/-- Tokens are a program, or end where more tokens make them one, or contain a first token that
nothing can repair, and only one of the three. The tokens of the first two kinds are the prefixes
of programs. -/
theorem parse_trichotomy (ts : List Token) :
    (IsAccepted ts ∨ IsUnfinished ts ∨ IsRefused ts) ∧
      ¬ (IsAccepted ts ∧ IsUnfinished ts) ∧ ¬ (IsAccepted ts ∧ IsRefused ts) ∧
      ¬ (IsUnfinished ts ∧ IsRefused ts) ∧
      (IsViable ts ↔ IsAccepted ts ∨ IsUnfinished ts) := by
  have hcases : (IsAccepted ts ∨ IsUnfinished ts) ∨ IsRefused ts := by
    cases h : ts.foldlM State.step (.top []) with
    | ok s => exact .inl (accepted_or_unfinished_of_foldlM h)
    | error e => exact .inr (isRefused_of_foldlM h)
  have hviable : IsAccepted ts ∨ IsUnfinished ts → IsViable ts := by
    rintro (⟨p, hp⟩ | h)
    · exact ⟨[], p, by rwa [List.append_nil]⟩
    · exact h.2
  refine ⟨or_assoc.1 hcases, ?_, ?_, ?_, ?_, hviable⟩
  · rintro ⟨⟨p, hp⟩, ⟨expected, hend⟩, -⟩
    cases hp.symm.trans hend
  · rintro ⟨haccepted, hrefused⟩
    exact hrefused.not_isViable (hviable (.inl haccepted))
  · rintro ⟨hunfinished, hrefused⟩
    exact hrefused.not_isViable hunfinished.2
  · intro h
    exact hcases.resolve_right fun hrefused => hrefused.not_isViable h

end Tabscript
