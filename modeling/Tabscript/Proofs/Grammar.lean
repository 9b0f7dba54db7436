import Tabscript.Proofs.Reading

/-!
# The readers and the grammar

The readers accept exactly what the grammar derives, and build exactly its trees.

* `isExpr_of_expr`, `isStmt_of_stmt` and `isBlock_of_block` turn a reading into a derivation.
* `expr_of_isExpr`, `stmt_of_isStmt` and `block_of_isBlock` turn a derivation into a reading. A
  name is read as a variable only when a line break or a closing parenthesis follows it, so an
  expression that ends with one is read only there.
* `parse_eq_ok_iff` puts them together: a program is read from tokens exactly when the tokens
  derive it.
* `Expr.parse_eq_ok_iff_isExpr` does so for a single expression. The line break behind it can be
  left out only if its last token is not the name of a variable.
-/

namespace Tabscript

/-! ## Expressions -/

/-- The last token of the expression is the name of a variable. -/
def Expr.endsInName : Expr → Bool
  | var _ _ => true
  | assign _ value _ => value.endsInName
  | operation _ _ rhs _ => rhs.endsInName
  | bool _ _ | number _ _ | string _ _ | call _ _ => false

namespace Parse

open Grammar

/-- The first token is one that may follow the name of a variable. -/
def EndsName (rest : List Token) : Prop :=
  ∃ t ts, rest = t :: ts ∧ (t.kind = .line ∨ t.kind = .parenClose)

theorem isExpr_binary {t before symbol after : Token} {ts : List Token} {value : Expr}
    (name : IsName t) (hbefore : before.kind = .space) (hsymbol : symbol.kind = .symbol)
    (hafter : after.kind = .space) (h : IsExpr ts value) :
    IsExpr (t :: before :: symbol :: after :: ts) (.binary (nameOf t) symbol.value value) := by
  have kinds : HasKinds [before, symbol, after] [.space, .symbol, .space] := by
    simp only [HasKinds, List.map_cons, List.map_nil, hbefore, hsymbol, hafter]
  unfold Expr.binary
  split
  · exact .assign name kinds ‹_› h
  · exact .operation name kinds ‹_› h

theorem endsInName_binary (name : Ident) (symbol : String) (value : Expr) :
    (Expr.binary name symbol value).endsInName = value.endsInName := by
  unfold Expr.binary
  split <;> rfl

theorem exists_cons_of_isExpr {read : List Token} {e : Expr} (h : IsExpr read e) :
    ∃ t ts, read = t :: ts := by
  cases h <;> exact ⟨_, _, rfl⟩

/-- What is read as an expression derives it. -/
theorem isExpr_of_expr {ts rest : List Token} {e : Expr} {shorter : rest.length < ts.length}
    (h : expr ts = .ok ⟨e, rest, shorter⟩) :
    ∃ read, IsExpr read e ∧ ts = read ++ rest ∧ (e.endsInName → EndsName rest) := by
  induction ts using expr_induction generalizing e rest with
  | number t ts kind =>
    rw [expr_number ts kind] at h
    cases h
    exact ⟨[t], .number kind, rfl, (absurd · Bool.false_ne_true)⟩
  | string t ts kind =>
    simp only [expr_string ts kind, stringText, bind_parsed_eq_ok_iff, upTo_eq_ok_iff,
      Except.ok.injEq, Parsed.mk.injEq] at h
    obtain ⟨_, _, _, ⟨inner, rest, _, ⟨hinner, closing, hclosing, rfl⟩, rfl, rfl⟩, rfl, rfl⟩ := h
    exact ⟨t :: (inner ++ [closing]), .string kind hinner hclosing, by simp,
      (absurd · Bool.false_ne_true)⟩
  | bool t ts value kind truth =>
    rw [expr_bool ts kind truth] at h
    cases h
    have word := Keyword.truth?_eq_some_iff.1 truth
    exact ⟨[t], .bool kind word, rfl, (absurd · Bool.false_ne_true)⟩
  | var t next ts name kind =>
    rw [expr_var ts name kind] at h
    cases h
    exact ⟨[t], .var name, rfl, fun _ => ⟨next, ts, rfl, kind⟩⟩
  | call t next ts name kind =>
    simp only [expr_call ts name kind, bind_consumed_eq_ok_iff, consume_eq_ok_iff,
      Except.ok.injEq, Parsed.mk.injEq] at h
    obtain ⟨rest, _, ⟨close, hclose, rfl⟩, rfl, rfl⟩ := h
    exact ⟨t :: next :: close, .call name (hasKinds_cons.2 ⟨next, close, rfl, kind, hclose⟩), rfl,
      (absurd · Bool.false_ne_true)⟩
  | binary t next ts name kind ih =>
    simp only [expr_binary ts name kind, bind_parsed_eq_ok_iff, bind_consumed_eq_ok_iff,
      expect_eq_ok_iff, consume_eq_ok_iff, hasKinds_cons, hasKinds_nil, Except.ok.injEq,
      Parsed.mk.injEq] at h
    obtain ⟨symbol, _, _, ⟨rfl, hsymbol⟩, us, _, ⟨_, ⟨after, _, rfl, hafter, rfl⟩, rfl⟩, value,
      rest, _, hvalue, rfl, rfl⟩ := h
    obtain ⟨read, hread, rfl, hends⟩ := ih us
      (by simp only [List.length_cons, List.length_append, List.length_nil]; omega) hvalue
    exact ⟨t :: next :: symbol :: after :: read, isExpr_binary name kind hsymbol hafter hread, rfl,
      by rwa [endsInName_binary]⟩
  | bare t ts name kinds =>
    rw [expr_bare name kinds] at h
    exact absurd h refuse_ne_ok
  | refused ts kinds =>
    rw [expr_refuse kinds] at h
    exact absurd h refuse_ne_ok

theorem length_lt_append_cons {ts rest : List Token} {t : Token} :
    rest.length < (ts ++ t :: rest).length := by
  rw [List.length_append, List.length_cons]
  omega

/-- Behind a symbol between spaces the reader starts again. -/
theorem expr_binary_eq {t before symbol after : Token} (ts : List Token) (name : IsName t)
    (kinds : HasKinds [before, symbol, after] [.space, .symbol, .space]) :
    expr (t :: before :: symbol :: after :: ts) = expr ts >>= fun value =>
      .ok ⟨.binary (nameOf t) symbol.value value.value, value.rest,
        Nat.lt_add_right 4 value.shorter⟩ := by
  simp only [HasKinds, List.map_cons, List.map_nil, List.cons.injEq, and_true] at kinds
  obtain ⟨hbefore, hsymbol, hafter⟩ := kinds
  simp only [expr_binary _ name hbefore, expect, consume, hsymbol, hafter, if_true, ok_bind]

theorem expr_of_binary {t before symbol after : Token} {ts rest : List Token} {value : Expr}
    (name : IsName t) (kinds : HasKinds [before, symbol, after] [.space, .symbol, .space])
    {shorter : rest.length < ts.length} (h : expr ts = .ok ⟨value, rest, shorter⟩) :
    ∃ shorter, expr (t :: before :: symbol :: after :: ts) =
      .ok ⟨.binary (nameOf t) symbol.value value, rest, shorter⟩ :=
  ⟨_, by rw [expr_binary_eq ts name kinds, h, ok_bind]⟩

/-- What derives an expression is read as it, where the expression may end. -/
theorem expr_of_isExpr {read rest : List Token} {e : Expr} (h : IsExpr read e)
    (hends : e.endsInName → EndsName rest) :
    ∃ shorter, expr (read ++ rest) = .ok ⟨e, rest, shorter⟩ := by
  induction h with
  | number kind => exact ⟨_, expr_number rest kind⟩
  | @string opening closing inner opens inside closes =>
    refine ⟨by simp only [List.length_append, List.length_cons]; omega, ?_⟩
    simp only [List.cons_append, expr_string _ opens, stringText, bind_parsed_eq_ok_iff,
      upTo_eq_ok_iff, Except.ok.injEq, Parsed.mk.injEq, List.append_assoc, List.nil_append]
    exact ⟨_, rest, length_lt_append_cons, ⟨inner, rest, length_lt_append_cons,
      ⟨inside, closing, closes, rfl⟩, rfl, rfl⟩, rfl, rfl⟩
  | bool kind word => exact ⟨_, expr_bool rest kind (Keyword.truth?_eq_some_iff.2 word)⟩
  | var name =>
    obtain ⟨next, ts, rfl, kind⟩ := hends rfl
    exact ⟨_, expr_var ts name kind⟩
  | call name kinds =>
    obtain ⟨opening, _, rfl, hopening, hclosing⟩ := hasKinds_cons.1 kinds
    refine ⟨by simp only [List.length_append, List.length_cons]; omega, ?_⟩
    simp only [List.cons_append, expr_call _ name hopening, bind_consumed_eq_ok_iff,
      consume_eq_ok_iff, Except.ok.injEq, Parsed.mk.injEq]
    exact ⟨rest, length_add_le_of_hasKinds hclosing, ⟨_, hclosing, rfl⟩, trivial, rfl⟩
  | @assign t before symbol after ts value name kinds equals _ ih =>
    obtain ⟨_, hvalue⟩ := ih hends
    have h := expr_of_binary name kinds hvalue
    rwa [Expr.binary, if_pos equals] at h
  | operation name kinds differs _ ih =>
    obtain ⟨_, hvalue⟩ := ih hends
    have h := expr_of_binary name kinds hvalue
    rwa [Expr.binary, if_neg differs] at h

/-- At the end of the input no expression is read whose last token is the name of a variable: the
reader looks for the token behind the name. -/
theorem expr_of_endsInName {ts : List Token} {e : Expr} (h : IsExpr ts e)
    (hends : e.endsInName = true) :
    expr ts = .error (.endOfInput [.line, .parenClose, .parenOpen, .space]) := by
  induction h with
  | var name => exact expr_bare name nofun
  | assign name kinds _ _ ih => rw [expr_binary_eq _ name kinds, ih hends, error_bind]
  | operation name kinds _ _ ih => rw [expr_binary_eq _ name kinds, ih hends, error_bind]
  | _ => cases hends

/-! ## Statements and blocks -/

theorem isStmt_word {depth : Nat} {word space : Token} {build : Expr → Stmt} {ts : List Token}
    {e : Expr} (hword : IsWordStmt word build) (hspace : space.kind = .space) (h : IsExpr ts e) :
    IsStmt depth (word :: space :: ts) (build e) := by
  obtain ⟨kind, hword⟩ := hword
  have kinds : HasKinds [word, space] [.identifier, .space] := by
    simp only [HasKinds, List.map_cons, List.map_nil, kind, hspace]
  rcases hword with ⟨value, rfl⟩ | ⟨value, rfl⟩
  · exact .print kinds value h
  · exact .ret kinds value h

/-- What is read as a statement derives it, if this holds of the blocks inside it. -/
theorem isStmt_of_stmt {depth : Nat} {ts rest : List Token} {s : Stmt}
    {shorter : rest.length < ts.length}
    (blocks : ∀ {us us' stmts shorter}, us.length < ts.length →
      block (depth + 1) us = .ok ⟨stmts, us', shorter⟩ →
      ∃ read, IsBlock (depth + 1) read stmts ∧ us = read ++ us')
    (h : stmt depth ts = .ok ⟨s, rest, shorter⟩) :
    ∃ read, IsStmt depth read s ∧ ts = read ++ rest := by
  cases ts using stmt_cases with
  | branch word ts kind value =>
    simp only [stmt_if ts kind value, bind_parsed_eq_ok_iff, bind_consumed_eq_ok_iff,
      consume_eq_ok_iff, Except.ok.injEq, Parsed.mk.injEq] at h
    obtain ⟨_, _, ⟨before, hbefore, rfl⟩, e, _, _, he, _, _, ⟨after, hafter, rfl⟩, stmts, rest, _,
      hstmts, rfl, rfl⟩ := h
    obtain ⟨condition, hcondition, rfl, -⟩ := isExpr_of_expr he
    obtain ⟨body, hbody, rfl⟩ := blocks
      (by simp only [List.length_append, List.length_cons]; omega) hstmts
    exact ⟨word :: (before ++ condition ++ after ++ body),
      .branch kind value hbefore hcondition hafter hbody, by simp⟩
  | word word build ts hword =>
    simp only [stmt_word ts hword, bind_parsed_eq_ok_iff, bind_consumed_eq_ok_iff,
      consume_eq_ok_iff, hasKinds_singleton, Except.ok.injEq, Parsed.mk.injEq] at h
    obtain ⟨_, _, ⟨_, ⟨space, rfl, hspace⟩, rfl⟩, e, rest, _, he, rfl, rfl⟩ := h
    obtain ⟨read, hread, rfl, -⟩ := isExpr_of_expr he
    exact ⟨word :: space :: read, isStmt_word hword hspace hread, rfl⟩
  | eval word ts kind value =>
    simp only [stmt_eval ts kind value, bind_parsed_eq_ok_iff, Except.ok.injEq,
      Parsed.mk.injEq] at h
    obtain ⟨e, rest, _, he, rfl, rfl⟩ := h
    obtain ⟨read, hread, hts, -⟩ := isExpr_of_expr he
    obtain ⟨_, read, rfl⟩ := exists_cons_of_isExpr hread
    cases hts
    exact ⟨word :: read, .eval kind value hread, rfl⟩
  | refused ts kind =>
    rw [stmt_refuse kind] at h
    exact absurd h refuse_ne_ok

/-- What is read as a block derives it. -/
theorem isBlock_of_block {depth : Nat} {ts rest : List Token} {stmts : List Stmt}
    {shorter : rest.length < ts.length} (h : block depth ts = .ok ⟨stmts, rest, shorter⟩) :
    ∃ read, IsBlock depth read stmts ∧ ts = read ++ rest := by
  -- On the number of tokens: the block inside a statement and the rest of the block are shorter.
  induction hn : ts.length using Nat.strongRecOn generalizing depth ts rest stmts with
  | ind n ih =>
    subst hn
    rw [block] at h
    simp only [bind_parsed_eq_ok_iff, lineStart_eq_ok_iff] at h
    obtain ⟨more, us, hus, ⟨lines, tabs, t, hlines, htabs, ht, rfl⟩, h⟩ := h
    cases more with
    | false =>
      simp only [Bool.false_eq_true, if_false, Except.ok.injEq, Parsed.mk.injEq] at h
      obtain ⟨rfl, rfl⟩ := h
      exact ⟨lines ++ tabs ++ [t], .close hlines htabs ht, by simp⟩
    | true =>
      simp only [if_true, bind_parsed_eq_ok_iff, bind_consumed_eq_ok_iff, consume_eq_ok_iff,
        hasKinds_singleton, Except.ok.injEq, Parsed.mk.injEq] at h
      obtain ⟨first, _, _, hfirst, _, _, ⟨_, ⟨line, rfl, hline⟩, rfl⟩, stmts, rest, _, hstmts, rfl,
        rfl⟩ := h
      obtain ⟨read, hread, rfl⟩ := isStmt_of_stmt (fun hlt h => ih _ (hlt.trans hus) h rfl) hfirst
      obtain ⟨tail, htail, rfl⟩ := ih _
        (by simp only [List.length_append, List.length_cons]; omega) hstmts rfl
      have margin : HasKinds (tabs ++ [t]) (List.replicate (depth + 1) .indent) := by
        rw [List.replicate_succ']
        exact htabs.append (hasKinds_singleton.2 ⟨t, rfl, ht⟩)
      exact ⟨lines ++ (tabs ++ [t]) ++ read ++ line :: tail,
        .stmt hlines margin hread hline htail, by simp⟩

/-- Printing and returning statements are read in front of any token that can follow them. -/
theorem stmt_of_word {depth : Nat} {word space : Token} {build : Expr → Stmt} {ts rest : List Token}
    {e : Expr} (hword : IsWordStmt word build) (hspace : space.kind = .space) (h : IsExpr ts e)
    (hrest : EndsName rest) :
    ∃ shorter, stmt depth (word :: space :: ts ++ rest) = .ok ⟨build e, rest, shorter⟩ := by
  obtain ⟨hlt, he⟩ := expr_of_isExpr h fun _ => hrest
  refine ⟨by simp only [List.length_append, List.length_cons]; omega, ?_⟩
  simp only [List.cons_append, stmt_word _ hword, bind_parsed_eq_ok_iff, bind_consumed_eq_ok_iff,
    consume_eq_ok_iff, hasKinds_singleton, Except.ok.injEq, Parsed.mk.injEq]
  exact ⟨ts ++ rest, by simp, ⟨[space], ⟨space, rfl, hspace⟩, rfl⟩, e, rest, hlt, he, rfl, rfl⟩

/-- What derives a statement is read as it before the end of a line, if this holds of the blocks
inside it. -/
theorem stmt_of_isStmt {depth : Nat} {read : List Token} (rest : List Token) {s : Stmt}
    (blocks : ∀ {us stmts} (rest : List Token), us.length < read.length →
      IsBlock (depth + 1) us stmts →
      ∃ shorter, block (depth + 1) (us ++ rest) = .ok ⟨stmts, rest, shorter⟩)
    (h : IsStmt depth read s) (hrest : EndsName rest) :
    ∃ shorter, stmt depth (read ++ rest) = .ok ⟨s, rest, shorter⟩ := by
  cases h with
  | @branch _ word before condition after body e stmts kind value opens test closes inside =>
    have hclose : EndsName (after ++ (body ++ rest)) := by
      obtain ⟨close, after, rfl, hclose, -⟩ := hasKinds_cons.1 closes
      exact ⟨close, after ++ (body ++ rest), rfl, .inr hclose⟩
    obtain ⟨htest_lt, htest⟩ := expr_of_isExpr test fun _ => hclose
    obtain ⟨hinside_lt, hinside⟩ := blocks rest
      (by simp only [List.length_append, List.length_cons]; omega) inside
    refine ⟨by simp only [List.length_append, List.length_cons]; omega, ?_⟩
    simp only [List.cons_append, List.append_assoc, stmt_if _ kind value, bind_parsed_eq_ok_iff,
      bind_consumed_eq_ok_iff, consume_eq_ok_iff, Except.ok.injEq, Parsed.mk.injEq]
    exact ⟨_, length_add_le_of_hasKinds opens, ⟨before, opens, rfl⟩, e, _, htest_lt, htest, _,
      length_add_le_of_hasKinds closes, ⟨after, closes, rfl⟩, stmts, rest, hinside_lt, hinside, rfl,
      rfl⟩
  | print kinds value test =>
    simp only [HasKinds, List.map_cons, List.map_nil, List.cons.injEq, and_true] at kinds
    exact stmt_of_word ⟨kinds.1, .inl ⟨value, rfl⟩⟩ kinds.2 test hrest
  | ret kinds value test =>
    simp only [HasKinds, List.map_cons, List.map_nil, List.cons.injEq, and_true] at kinds
    exact stmt_of_word ⟨kinds.1, .inr ⟨value, rfl⟩⟩ kinds.2 test hrest
  | @eval _ word ts e kind value test =>
    obtain ⟨hlt, htest⟩ := expr_of_isExpr test fun _ => hrest
    refine ⟨hlt, ?_⟩
    simp only [List.cons_append, stmt_eval _ kind value, bind_parsed_eq_ok_iff, Except.ok.injEq,
      Parsed.mk.injEq]
    exact ⟨e, rest, hlt, htest, rfl, rfl⟩

/-- What derives a block is read as it. -/
theorem block_of_isBlock {depth : Nat} {read : List Token} (rest : List Token) {stmts : List Stmt}
    (h : IsBlock depth read stmts) :
    ∃ shorter, block depth (read ++ rest) = .ok ⟨stmts, rest, shorter⟩ := by
  induction hn : read.length using Nat.strongRecOn generalizing depth read rest stmts with
  | ind n ih =>
    subst hn
    cases h with
    | @close _ lines tabs brace empty margin kind =>
      refine ⟨by simp only [List.length_append, List.length_cons]; omega, ?_⟩
      rw [block]
      simp only [bind_parsed_eq_ok_iff, lineStart_eq_ok_iff]
      exact ⟨false, rest, by simp only [List.length_append, List.length_cons]; omega,
        ⟨lines, tabs, brace, empty, margin, kind, by simp⟩, rfl⟩
    | @stmt _ lines tabs ts more line first stmts empty margin head kind tail =>
      have hlength : (lines ++ tabs ++ ts ++ line :: more).length =
          lines.length + tabs.length + ts.length + (more.length + 1) := by
        simp only [List.length_append, List.length_cons]
      obtain ⟨hhead_lt, hhead⟩ := stmt_of_isStmt (line :: (more ++ rest))
        (fun rest hlt h => ih _ (by omega) rest h rfl) head ⟨line, _, rfl, .inl kind⟩
      obtain ⟨htail_lt, htail⟩ := ih _ (by omega) rest tail rfl
      rw [List.replicate_succ'] at margin
      obtain ⟨tabs, _, rfl, htabs, htab⟩ := List.map_eq_append_iff.1 margin
      obtain ⟨tab, rfl, hkind⟩ := hasKinds_singleton.1 htab
      refine ⟨by simp only [List.length_append, List.length_cons]; omega, ?_⟩
      rw [block]
      simp only [bind_parsed_eq_ok_iff, lineStart_eq_ok_iff]
      refine ⟨true, ts ++ line :: (more ++ rest),
        by simp only [List.length_append, List.length_cons]; omega,
        ⟨lines, tabs, tab, empty, htabs, hkind, by simp⟩, ?_⟩
      simp only [if_true, bind_parsed_eq_ok_iff, bind_consumed_eq_ok_iff, consume_eq_ok_iff,
        hasKinds_singleton, Except.ok.injEq, Parsed.mk.injEq]
      exact ⟨first, _, hhead_lt, hhead, more ++ rest, by simp, ⟨[line], ⟨line, rfl, kind⟩, rfl⟩,
        stmts, rest, htail_lt, htail, rfl, rfl⟩

/-! ## Programs -/

/-- A function is read exactly from a header, a block and a line break. -/
theorem function_eq_ok_iff {name : Ident} {ts rest : List Token} {f : Function}
    {shorter : rest.length < ts.length} :
    function name ts = .ok ⟨f, rest, shorter⟩ ↔
      f.name = name ∧ ∃ header inside line,
        HasKinds header [.parenOpen, .parenClose, .space, .braceOpen, .line] ∧
        IsBlock 0 inside f.body ∧ line.kind = .line ∧ ts = header ++ inside ++ line :: rest := by
  obtain ⟨name', body⟩ := f
  simp only [function, bind_parsed_eq_ok_iff, bind_consumed_eq_ok_iff, consume_eq_ok_iff,
    hasKinds_singleton, Except.ok.injEq, Parsed.mk.injEq, Function.mk.injEq]
  constructor
  · rintro ⟨_, _, ⟨header, hheader, rfl⟩, stmts, _, _, hstmts, rest, _,
      ⟨_, ⟨line, rfl, hline⟩, rfl⟩, ⟨rfl, rfl⟩, rfl⟩
    obtain ⟨inside, hinside, rfl⟩ := isBlock_of_block hstmts
    exact ⟨rfl, header, inside, line, hheader, hinside, hline, by simp⟩
  · rintro ⟨rfl, header, inside, line, hheader, hinside, hline, rfl⟩
    obtain ⟨hlt, hstmts⟩ := block_of_isBlock (line :: rest) hinside
    rw [List.append_assoc]
    exact ⟨inside ++ line :: rest, length_add_le_of_hasKinds hheader, ⟨header, hheader, rfl⟩,
      body, line :: rest, hlt, hstmts, rest, by simp, ⟨[line], ⟨line, rfl, hline⟩, rfl⟩,
      ⟨rfl, rfl⟩, rfl⟩

theorem isProgram_of_functions {ts : List Token} {fs : List Function}
    (h : functions ts = .ok fs) : IsProgram ts fs := by
  induction ts using functions_induction generalizing fs with
  | nil =>
    rw [functions] at h
    cases h
    exact .nil
  | comment mark ts kind ih =>
    simp only [functions_comment ts kind, comment, bind_parsed_eq_ok_iff, upTo_eq_ok_iff,
      Except.ok.injEq, Parsed.mk.injEq] at h
    obtain ⟨_, rest, _, ⟨inner, _, _, ⟨hinner, line, hline, rfl⟩, -, rfl⟩, h⟩ := h
    exact .comment kind hinner hline (ih _ length_lt_append_cons h)
  | function name ts kind ih =>
    simp only [functions_function ts kind, bind_parsed_eq_ok_iff, function_eq_ok_iff] at h
    obtain ⟨⟨_, body⟩, rest, hlt, ⟨rfl, header, inside, line, hheader, hinside, hline, rfl⟩, h⟩ := h
    obtain ⟨fs, hfs, h⟩ := bind_eq_ok_iff.1 h
    cases h
    exact .function kind hheader hinside hline (ih rest hlt hfs)
  | line line ts kind ih =>
    rw [functions_line ts kind] at h
    exact .blank kind (ih h)
  | refused t ts kinds =>
    rw [functions_refuse ts kinds] at h
    exact absurd h refuse_ne_ok

theorem functions_of_isProgram {ts : List Token} {fs : List Function} (h : IsProgram ts fs) :
    functions ts = .ok fs := by
  induction h with
  | nil => rw [functions]
  | blank kind _ ih => rw [functions_line _ kind, ih]
  | @comment mark line inner ts fs kind inside ends _ ih =>
    simp only [functions_comment _ kind, comment, bind_parsed_eq_ok_iff, upTo_eq_ok_iff,
      Except.ok.injEq, Parsed.mk.injEq]
    exact ⟨(), ts, length_lt_append_cons, ⟨inner, ts, length_lt_append_cons,
      ⟨inside, line, ends, rfl⟩, trivial, rfl⟩, ih⟩
  | @function name line header block ts body fs kind opens inside ends _ ih =>
    simp only [functions_function _ kind, bind_parsed_eq_ok_iff, function_eq_ok_iff]
    exact ⟨⟨nameOf name, body⟩, ts, length_lt_append_cons,
      ⟨rfl, header, block, line, opens, inside, ends, rfl⟩, by rw [ih, ok_bind]⟩

end Parse

/-- **A program is read from tokens exactly when the tokens derive it.** -/
theorem parse_eq_ok_iff (ts : List Token) (p : Program) :
    Program.parse ts = .ok p ↔ Grammar.IsProgram ts p.functions := by
  rw [Program.parse, Parse.bind_eq_ok_iff]
  constructor
  · rintro ⟨fs, hfs, h⟩
    cases h
    exact Parse.isProgram_of_functions hfs
  · exact fun h => ⟨p.functions, Parse.functions_of_isProgram h, rfl⟩

/-! ## Single expressions -/

namespace Parse

open Grammar

theorem parse_append_of_isExpr {read : List Token} (rest : List Token) {e : Expr}
    (h : IsExpr read e) (hends : e.endsInName → EndsName rest) (hrest : afterLine rest = []) :
    Expr.parse (read ++ rest) = .ok e := by
  obtain ⟨shorter, hread⟩ := expr_of_isExpr h hends
  exact parse_expr_eq_ok_iff.2 ⟨rest, shorter, hread, hrest⟩

theorem parse_append_line {ts : List Token} {e : Expr} {line : Token} (h : IsExpr ts e)
    (kind : line.kind = .line) : Expr.parse (ts ++ [line]) = .ok e :=
  parse_append_of_isExpr [line] h (fun _ => ⟨line, [], rfl, .inl kind⟩)
    (afterLine_eq_nil_iff.2 (.inr ⟨line, rfl, kind⟩))

/-- An expression that does not end in the name of a variable is read without a line break, too. -/
theorem parse_of_not_endsInName {ts : List Token} {e : Expr} (h : IsExpr ts e)
    (hends : e.endsInName = false) : Expr.parse ts = .ok e := by
  have hread := parse_append_of_isExpr [] h (by simp [hends]) rfl
  rwa [List.append_nil] at hread

/-- The name of a variable cannot be the last token. -/
theorem parse_of_endsInName {ts : List Token} {e : Expr} (h : IsExpr ts e)
    (hends : e.endsInName = true) :
    Expr.parse ts = .error (.endOfInput [.line, .parenClose, .parenOpen, .space]) := by
  rw [parse_expr_eq, expr_of_endsInName h hends, error_bind]

theorem isExpr_of_parse {ts : List Token} {e : Expr} (h : Expr.parse ts = .ok e) :
    IsExpr ts e ∧ e.endsInName = false ∨
      ∃ read line, ts = read ++ [line] ∧ line.kind = .line ∧ IsExpr read e := by
  obtain ⟨rest, shorter, hexpr, hrest⟩ := parse_expr_eq_ok_iff.1 h
  obtain ⟨read, hread, rfl, hends⟩ := isExpr_of_expr hexpr
  rcases afterLine_eq_nil_iff.1 hrest with rfl | ⟨line, rfl, kind⟩
  · refine .inl ⟨by rwa [List.append_nil], Bool.eq_false_iff.2 fun h => ?_⟩
    obtain ⟨t, ts, hnil, -⟩ := hends h
    cases hnil
  · exact .inr ⟨read, line, rfl, kind, hread⟩

end Parse

open Grammar Parse in
/-- **Which tokens a single expression is read from**: those that derive it and a line break, and
those that derive it alone if the last of them is not the name of a variable. Without the line
break an expression that ends with such a name is refused, so that this line break matters for
these expressions and for no others. -/
theorem Expr.parse_eq_ok_iff_isExpr (ts : List Token) (e : Expr) :
    (Expr.parse ts = .ok e ↔ IsExpr ts e ∧ e.endsInName = false ∨
        ∃ read line, ts = read ++ [line] ∧ line.kind = .line ∧ IsExpr read e) ∧
      (IsExpr ts e → e.endsInName = true →
        Expr.parse ts = .error (.endOfInput [.line, .parenClose, .parenOpen, .space])) ∧
      ∀ line : Token, line.kind = .line → IsExpr ts e →
        (Expr.parse ts = Expr.parse (ts ++ [line]) ↔ e.endsInName = false) := by
  refine ⟨⟨isExpr_of_parse, ?_⟩, parse_of_endsInName, fun line kind h => ?_⟩
  · rintro (⟨h, hends⟩ | ⟨read, line, rfl, kind, h⟩)
    · exact parse_of_not_endsInName h hends
    · exact parse_append_line h kind
  · rw [parse_append_line h kind]
    cases hends : e.endsInName with
    | false => simp [parse_of_not_endsInName h hends]
    | true => simp [parse_of_endsInName h hends]

/-- A name alone derives a variable, and is read as one only with a line break behind it. -/
theorem parse_lone_name :
    Grammar.IsExpr [⟨.identifier, "x", ⟨1, 1⟩⟩] (.var ⟨"x", ⟨1, 1⟩⟩ ⟨1, 1⟩) ∧
      Expr.parse [⟨.identifier, "x", ⟨1, 1⟩⟩] =
        .error (.endOfInput [.line, .parenClose, .parenOpen, .space]) ∧
      Expr.parse [⟨.identifier, "x", ⟨1, 1⟩⟩, ⟨.line, "\n", ⟨1, 2⟩⟩] =
        .ok (.var ⟨"x", ⟨1, 1⟩⟩ ⟨1, 1⟩) :=
  ⟨.var ⟨rfl, by decide⟩, by decide +kernel, by decide +kernel⟩

end Tabscript
