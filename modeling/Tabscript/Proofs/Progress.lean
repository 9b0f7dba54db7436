import Tabscript.Proofs.Queue

/-!
# Every reader makes progress

The readers of `Tabscript.Proofs.Queue` read what their namesakes in `Parse` read. A reader that
succeeds has taken at least one token, so every round of a loop leaves fewer tokens than it found
and every loop ends. A token is put back only right after it was taken, and no kind of token leads
to a row of a match that is not meant for it.

* `Parse.line` and `Parse.item` read one round of the two loops, and `Parse.block_eq_line` and
  `Parse.functions_eq_item` put the rounds together.
* `Queue.Agrees` relates what a reader does to a queue to what is read from the tokens left in it.
  It passes through sequences (`Queue.Agrees.bind`), so the proof for a reader follows its steps.
* `Construct` ranges over what is read, and `queue_outcome` says how the reading of each ends.
-/

namespace Tabscript

/-! ## Rounds -/

namespace Parse

/-- A line is read from at least one token. -/
theorem length_lt_of_line {ts : List Token} {start : Parsed Bool ts}
    {first : Parsed Stmt start.rest} (last : Consumed [.line] first.rest) :
    last.rest.length < ts.length :=
  Nat.lt_of_le_of_lt last.le (Nat.lt_trans first.shorter start.shorter)

/-- Reads a line of a block of the given depth: a statement, or the closing brace. -/
def line (depth : Nat) (ts : List Token) : Except ParseError (Parsed (Option Stmt) ts) := do
  let start ← lineStart depth ts
  if start.value then
    let first ← stmt depth start.rest
    let last ← consume [.line] first.rest
    .ok ⟨some first.value, last.rest, length_lt_of_line last⟩
  else
    .ok ⟨none, start.rest, start.shorter⟩

/-- A block is read line by line. -/
theorem block_eq_line (depth : Nat) (ts : List Token) :
    block depth ts = line depth ts >>= fun first =>
      match first.value with
      | some s => block depth first.rest >>= fun more =>
        .ok ⟨s :: more.value, more.rest, Nat.lt_trans more.shorter first.shorter⟩
      | none => .ok ⟨[], first.rest, first.shorter⟩ := by
  rw [block, line, bind_assoc]
  refine bind_congr fun start => ?_
  cases start.value with
  | true => simp only [if_true, bind_assoc, ok_bind]
  | false => rfl

/-- Reads a function, a comment or an empty line. -/
def item : (ts : List Token) → Except ParseError (Parsed (Option Function) ts)
  | ⟨.comment, _, _⟩ :: ts => do
    let skipped ← comment ts
    .ok ⟨none, skipped.rest, Nat.lt_succ_of_lt skipped.shorter⟩
  | ⟨.identifier, name, pos⟩ :: ts => do
    let first ← function ⟨name, pos⟩ ts
    .ok ⟨some first.value, first.rest, Nat.lt_succ_of_lt first.shorter⟩
  | ⟨.line, value, pos⟩ :: ts => do
    let last ← consume [.line] (⟨.line, value, pos⟩ :: ts)
    .ok ⟨none, last.rest, last.length_le⟩
  | ts => refuse [.comment, .identifier, .line] ts

/-- A program is read item by item. -/
theorem functions_eq_item {ts : List Token} (h : ts ≠ []) :
    functions ts = item ts >>= fun first =>
      functions first.rest >>= fun more => .ok (first.value.toList ++ more) := by
  obtain ⟨⟨kind, value, pos⟩, ts, rfl⟩ := List.exists_cons_of_ne_nil h
  rw [functions.eq_def]
  cases kind
  case comment =>
    simp only [item, bind_assoc, ok_bind, Option.toList_none, List.nil_append]
    refine bind_congr fun skipped => ?_
    exact (bind_pure _).symm
  case identifier =>
    simp only [item, bind_assoc, ok_bind, Option.toList_some, List.singleton_append]
  case line => exact (bind_pure _).symm
  all_goals rfl

end Parse

namespace Queue

open Grammar

variable {input : List Token} {α β γ δ : Type}

/-! ## Readers of queues and of lists -/

/-- What a reader does to a queue is what the reading `x` of a list of tokens says: it ends with a
value and a queue that `R` relates to what was read, or it stops with the same syntax error, and
for no other reason. -/
inductive Agrees (R : γ → α → Queue input → Prop) :
    Except ParseError γ → Except Stop (α × Queue input) → Prop
  | ok {r : γ} {a : α} {q : Queue input} (h : R r a q) : Agrees R (.ok r) (.ok (a, q))
  | error (e : ParseError) : Agrees R (.error e) (.error (.refused e))

/-- Two steps agree if the first ones do, and the second ones wherever the first ones lead. -/
theorem Agrees.bind {R : γ → α → Queue input → Prop} {S : δ → β → Queue input → Prop}
    {x : Except ParseError γ} {k : γ → Except ParseError δ} {m : Reader input α}
    {f : α → Reader input β} {q : Queue input} (h : Agrees R x (m q))
    (hk : ∀ r a q', R r a q' → Agrees S (k r) (f a q')) : Agrees S (x >>= k) ((m >>= f) q) := by
  change Agrees S (x >>= k) (m q >>= fun p => f p.1 p.2)
  generalize m q = y at h
  cases h with
  | ok h => exact hk _ _ _ h
  | error e => exact .error e

/-- The reading may present what it read in another form. -/
theorem Agrees.map {R : γ → α → Queue input → Prop} {S : δ → α → Queue input → Prop}
    {x : Except ParseError γ} {g : γ → δ} {y : Except Stop (α × Queue input)}
    (h : Agrees R x y) (hg : ∀ r a q, R r a q → S (g r) a q) :
    Agrees S (x >>= fun r => .ok (g r)) y := by
  cases h with
  | ok h => exact .ok (hg _ _ _ h)
  | error e => exact .error e

theorem Agrees.eq_error {R : γ → α → Queue input → Prop} {e : ParseError}
    {y : Except Stop (α × Queue input)} (h : Agrees R (.error e) y) : y = .error (.refused e) := by
  cases h
  rfl

/-- A reader that agrees with a reading for every amount of fuel above some bound ends in the same
way for all of them. -/
theorem exists_eq_ok_of_agrees {R : γ → α → Queue input → Prop} {r : γ} {m : Nat → Reader input α}
    {q : Queue input} {bound : Nat} {value : α} {rest : List Token}
    (h : ∀ fuel > bound, Agrees R (.ok r) (m fuel q))
    (hR : ∀ a q', R r a q' → a = value ∧ q'.left = rest) :
    ∃ after : Queue input, after.left = rest ∧ ∀ fuel > bound, m fuel q = .ok (value, after) := by
  have hok : ∀ fuel > bound,
      ∃ after : Queue input, after.left = rest ∧ m fuel q = .ok (value, after) := by
    intro fuel hfuel
    have hagrees := h fuel hfuel
    generalize m fuel q = y at hagrees
    cases hagrees with
    | ok hr =>
      obtain ⟨rfl, hleft⟩ := hR _ _ hr
      exact ⟨_, hleft, rfl⟩
  obtain ⟨after, hleft, -⟩ := hok (bound + 1) (Nat.lt_succ_self bound)
  refine ⟨after, hleft, fun fuel hfuel => ?_⟩
  obtain ⟨after', hleft', heq⟩ := hok fuel hfuel
  rw [heq, eq_of_left_eq (hleft'.trans hleft.symm)]

/-- The value and the tokens left are those of the reading. -/
def Reads {ts : List Token} (r : Parse.Parsed α ts) (a : α) (q : Queue input) : Prop :=
  a = r.value ∧ q.left = r.rest

/-- The values are the given ones and those of the reading, and the tokens left are those of the
reading. -/
def ReadsAfter (before : List α) {ts : List Token} (r : Parse.Parsed (List α) ts) (as : List α)
    (q : Queue input) : Prop := as = before ++ r.value ∧ q.left = r.rest

/-- The tokens left are those of the reading. -/
def Leaves {kinds : List TokenKind} {ts : List Token} (r : Parse.Consumed kinds ts) (_ : Unit)
    (q : Queue input) : Prop := q.left = r.rest

theorem Agrees.bind_parsed {S : δ → β → Queue input → Prop} {ts : List Token}
    {x : Except ParseError (Parse.Parsed α ts)} {k : Parse.Parsed α ts → Except ParseError δ}
    {m : Reader input α} {f : α → Reader input β} {q : Queue input} (h : Agrees Reads x (m q))
    (hk : ∀ (value : α) (q' : Queue input) shorter,
      Agrees S (k ⟨value, q'.left, shorter⟩) (f value q')) : Agrees S (x >>= k) ((m >>= f) q) := by
  refine h.bind ?_
  rintro ⟨_, _, shorter⟩ value q' ⟨rfl, rfl⟩
  exact hk value q' shorter

theorem Agrees.bind_consumed {S : δ → β → Queue input → Prop} {kinds : List TokenKind}
    {ts : List Token} {x : Except ParseError (Parse.Consumed kinds ts)}
    {k : Parse.Consumed kinds ts → Except ParseError δ} {m : Reader input Unit}
    {f : Unit → Reader input β} {q : Queue input} (h : Agrees Leaves x (m q))
    (hk : ∀ (q' : Queue input) length_le, Agrees S (k ⟨q'.left, length_le⟩) (f () q')) :
    Agrees S (x >>= k) ((m >>= f) q) := by
  refine h.bind ?_
  rintro ⟨rest, length_le⟩ _ q' hleft
  cases hleft
  exact hk q' length_le

/-! ## Tokens -/

/-- A token of the wrong kind is refused, and so is the end of the tokens. -/
theorem agrees_refuse {R : γ → α → Queue input → Prop} {kinds : List TokenKind}
    {f : Token → Reader input α} {q : Queue input} {ts : List Token} (hts : q.left = ts)
    (h : ∀ t ∈ ts.head?, t.kind ∉ kinds) :
    Agrees R (Parse.refuse kinds ts) ((expect kinds >>= f) q) := by
  obtain ⟨taken, left, covers⟩ := q
  cases hts
  cases left with
  | nil => exact .error _
  | cons t left =>
    have ht : t.kind ∉ kinds := h t rfl
    rw [expect, bind_assoc, bind_of_eq (pop_eq kinds rfl), if_neg ht]
    exact .error _

theorem agrees_expect (kind : TokenKind) (q : Queue input) :
    Agrees Reads (Parse.expect kind q.left) (expect [kind] q) := by
  generalize hts : q.left = ts
  rw [← bind_pure (expect [kind])]
  cases ts with
  | nil => exact agrees_refuse hts nofun
  | cons t ts =>
    by_cases h : t.kind = kind
    · rw [Parse.expect, if_pos h, bind_of_eq (expect_eq hts (List.mem_singleton.2 h))]
      exact .ok ⟨rfl, rfl⟩
    · rw [Parse.expect, if_neg h]
      exact agrees_refuse hts (by simpa using h)

theorem agrees_consume (kinds : List TokenKind) (q : Queue input) :
    Agrees Leaves (Parse.consume kinds q.left) (consume kinds q) := by
  induction kinds generalizing q with
  | nil => exact .ok rfl
  | cons kind kinds ih =>
    refine (agrees_expect kind q).bind_parsed fun _ q' _ => ?_
    exact (ih q').map fun _ _ _ hleft => hleft

/-- The loop ends with the first token of the given kind, or with the tokens. -/
theorem agrees_upTo (kind : TokenKind) {fuel : Nat} (inner : List Token) (q : Queue input)
    (hfuel : q.left.length < fuel) :
    Agrees (ReadsAfter inner) (Parse.upTo kind q.left) (upTo kind fuel inner q) := by
  induction fuel generalizing inner q with
  | zero => cases hfuel
  | succ fuel ih =>
    generalize hts : q.left = ts at hfuel
    cases ts with
    | nil =>
      obtain ⟨taken, left, covers⟩ := q
      cases hts
      exact .error _
    | cons t ts =>
      rw [upTo, bind_of_eq (pop_eq _ hts)]
      by_cases h : t.kind = kind
      · rw [if_pos h, Parse.upTo_cons_of_eq ts h]
        exact .ok ⟨(List.append_nil _).symm, rfl⟩
      · rw [if_neg h, Parse.upTo_cons_of_ne ts h]
        refine (ih (inner ++ [t]) (q.next hts) (Nat.lt_of_succ_lt_succ hfuel)).map ?_
        rintro r _ q' ⟨rfl, hleft⟩
        exact ⟨by simp, hleft⟩

theorem agrees_comment {fuel : Nat} (q : Queue input) (hfuel : q.left.length < fuel) :
    Agrees Reads (Parse.comment q.left) (comment fuel q) := by
  refine (agrees_upTo .line [] q hfuel).bind ?_
  rintro r _ q' ⟨-, hleft⟩
  exact .ok ⟨rfl, hleft⟩

theorem agrees_stringText {fuel : Nat} (q : Queue input) (hfuel : q.left.length < fuel) :
    Agrees Reads (Parse.stringText q.left) (stringText fuel q) := by
  refine (agrees_upTo .string [] q hfuel).bind ?_
  rintro r _ q' ⟨rfl, hleft⟩
  exact .ok ⟨rfl, hleft⟩

/-! ## Expressions -/

theorem expr_word {fuel : Nat} {q : Queue input} {t : Token} {ts : List Token}
    (hts : q.left = t :: ts) (kind : t.kind = .identifier) :
    expr (fuel + 1) q = wordExpr (expr fuel) t (q.next hts) := by
  rw [expr, bind_of_eq (expect_eq hts (by simp [kind]))]
  simp only [kind]

theorem agrees_expr {fuel : Nat} (q : Queue input) (hfuel : q.left.length < fuel) :
    Agrees Reads (Parse.expr q.left) (expr fuel q) := by
  induction fuel generalizing q with
  | zero => cases hfuel
  | succ fuel ih =>
    generalize hts : q.left = ts at hfuel
    -- The cases are those of the reader. What stands to the right of a symbol is left to `ih`.
    induction ts using Parse.expr_induction with
    | number t ts kind =>
      rw [Parse.expr_number ts kind, expr, bind_of_eq (expect_eq hts (by simp [kind]))]
      simp only [kind]
      exact .ok ⟨rfl, rfl⟩
    | string t ts kind =>
      rw [Parse.expr_string ts kind, expr, bind_of_eq (expect_eq hts (by simp [kind]))]
      simp only [kind]
      have htext := agrees_stringText (q.next hts) (Nat.lt_of_succ_lt hfuel)
      refine htext.bind_parsed fun text q₁ _ => ?_
      exact .ok ⟨rfl, rfl⟩
    | bool t ts value kind truth =>
      rw [Parse.expr_bool ts kind truth, expr_word hts kind, wordExpr, truth]
      exact .ok ⟨rfl, rfl⟩
    | var t next ts name kind =>
      rw [Parse.expr_var ts name kind, expr_word hts name.1, wordExpr, name.truth?_eq_none]
      simp only
      rcases kind with kind | kind
      all_goals
        rw [bind_of_eq (expect_eq (left_next hts) (by simp [kind]))]
        simp only [kind]
        rw [bind_of_eq (putBack_next (left_next hts))]
        exact .ok ⟨rfl, rfl⟩
    | call t next ts name kind =>
      rw [Parse.expr_call ts name kind, expr_word hts name.1, wordExpr, name.truth?_eq_none]
      simp only
      rw [bind_of_eq (expect_eq (left_next hts) (by simp [kind]))]
      simp only [kind]
      have hclose := agrees_consume [.parenClose] ((q.next hts).next (left_next hts))
      refine hclose.bind_consumed fun q₁ _ => ?_
      exact .ok ⟨rfl, rfl⟩
    | binary t next ts name kind _ =>
      rw [Parse.expr_binary ts name kind, expr_word hts name.1, wordExpr, name.truth?_eq_none]
      simp only
      rw [bind_of_eq (expect_eq (left_next hts) (by simp [kind]))]
      simp only [kind]
      have hsymbol := agrees_expect .symbol ((q.next hts).next (left_next hts))
      refine hsymbol.bind_parsed fun symbol q₁ h₁ => ?_
      refine (agrees_consume [.space] q₁).bind_consumed fun q₂ h₂ => ?_
      have hlt : q₂.left.length < fuel := by
        simp only [left_next, List.length_cons] at h₁ h₂ hfuel
        omega
      refine (ih q₂ hlt).bind_parsed fun value q₃ _ => ?_
      exact .ok ⟨rfl, rfl⟩
    | bare t ts name kinds =>
      rw [Parse.expr_bare name kinds, expr_word hts name.1, wordExpr, name.truth?_eq_none]
      exact agrees_refuse (left_next hts) kinds
    | refused ts kinds =>
      rw [Parse.expr_refuse kinds, expr]
      exact agrees_refuse hts kinds

/-! ## Statements and blocks -/

/-- Taking empty lines ends at the first token that is no line break. -/
theorem exists_emptyLines_eq {fuel : Nat} (q : Queue input) (hfuel : q.left.length < fuel) :
    ∃ q' : Queue input, emptyLines fuel q = .ok ((), q') ∧
      q'.left = q.left.dropWhile (·.kind = .line) := by
  induction fuel generalizing q with
  | zero => cases hfuel
  | succ fuel ih =>
    rw [emptyLines]
    generalize hts : q.left = ts at hfuel
    cases ts with
    | nil =>
      rw [bind_of_eq (take_of_ne (by simp [hts]))]
      exact ⟨q, rfl, hts⟩
    | cons t ts =>
      by_cases kind : t.kind = .line
      · rw [bind_of_eq (take_of_eq hts kind), List.dropWhile_cons_of_pos (by simpa using kind)]
        exact ih (q.next hts) (Nat.lt_of_succ_lt_succ hfuel)
      · rw [bind_of_eq (take_of_ne (by simpa [hts] using kind)),
          List.dropWhile_cons_of_neg (by simpa using kind)]
        exact ⟨q, rfl, hts⟩

theorem agrees_braceOrTab (q : Queue input) : Agrees Reads (Parse.braceOrTab q.left)
    ((do return (← expect [.braceClose, .indent]).kind ≠ .braceClose : Reader input Bool) q) := by
  obtain ⟨taken, _ | ⟨⟨kind, value, pos⟩, left⟩, covers⟩ := q
  · exact .error _
  · cases kind
    case braceClose => exact .ok ⟨rfl, rfl⟩
    case indent => exact .ok ⟨rfl, rfl⟩
    all_goals exact .error _

theorem agrees_lineStart {fuel : Nat} (depth : Nat) (q : Queue input)
    (hfuel : q.left.length < fuel) :
    Agrees Reads (Parse.lineStart depth q.left) (lineStart fuel depth q) := by
  obtain ⟨q₁, hlines, hleft⟩ := exists_emptyLines_eq q hfuel
  have hmargin := agrees_consume (List.replicate depth .indent) q₁
  rw [hleft] at hmargin
  rw [lineStart, bind_of_eq hlines]
  refine hmargin.bind_consumed fun q₂ _ => ?_
  exact (agrees_braceOrTab q₂).map fun _ _ _ h => h

/-- A line is read from a queue as it is from the tokens left, if this holds of its statement. -/
theorem agrees_line {fuel : Nat} {depth : Nat} {statement : Reader input Stmt} (q : Queue input)
    (hfuel : q.left.length < fuel)
    (hstmt : ∀ q' : Queue input, q'.left.length < q.left.length →
      Agrees Reads (Parse.stmt depth q'.left) (statement q')) :
    Agrees Reads (Parse.line depth q.left) (line fuel depth statement q) := by
  refine (agrees_lineStart depth q hfuel).bind_parsed fun more q₁ h₁ => ?_
  cases more with
  | false => exact .ok ⟨rfl, rfl⟩
  | true =>
    refine (hstmt q₁ h₁).bind_parsed fun first q₂ _ => ?_
    refine (agrees_consume [.line] q₂).bind_consumed fun q₃ _ => ?_
    exact .ok ⟨rfl, rfl⟩

theorem stmt_word {fuel depth : Nat} {q : Queue input} {word : Token} {ts : List Token}
    {build : Expr → Stmt} (hts : q.left = word :: ts) (h : Parse.IsWordStmt word build) :
    stmt (fuel + 1) depth q = (do
      consume [.space]
      return build (← expr (fuel + 1)) : Reader input Stmt) (q.next hts) := by
  obtain ⟨kind, h⟩ := h
  rw [stmt, bind_of_eq (expect_eq hts (by simp [kind]))]
  rcases h with ⟨value, rfl⟩ | ⟨value, rfl⟩
  · have hword := (Keyword.ofWord?_eq_some_iff (k := .printWord)).2 value
    simp only [hword]
  · have hword := (Keyword.ofWord?_eq_some_iff (k := .returnWord)).2 value
    simp only [hword]

/-- A statement is read from a queue as it is from the tokens left, if this holds of the blocks
inside it. -/
theorem agrees_stmt_of_block {fuel depth : Nat} (q : Queue input) (hfuel : q.left.length < fuel)
    (hblock : ∀ less < fuel, ∀ q' : Queue input, q'.left.length < less →
      Agrees Reads (Parse.block (depth + 1) q'.left) (block less (depth + 1) [] q')) :
    Agrees Reads (Parse.stmt depth q.left) (stmt fuel depth q) := by
  obtain ⟨fuel, rfl⟩ := Nat.exists_eq_add_one_of_ne_zero (Nat.ne_zero_of_lt hfuel)
  generalize hts : q.left = ts at hfuel
  induction ts using Parse.stmt_cases with
  | branch word ts kind value =>
    have hword : Keyword.ofWord? word.value = some .ifWord := Keyword.ofWord?_eq_some_iff.2 value
    rw [Parse.stmt_if ts kind value, stmt, bind_of_eq (expect_eq hts (by simp [kind]))]
    simp only [hword]
    refine (agrees_consume _ (q.next hts)).bind_consumed fun q₁ h₁ => ?_
    simp only [left_next, List.length_cons] at h₁ hfuel
    refine (agrees_expr q₁ (by omega)).bind_parsed fun condition q₂ h₂ => ?_
    refine (agrees_consume _ q₂).bind_consumed fun q₃ h₃ => ?_
    refine (hblock fuel (Nat.lt_succ_self fuel) q₃ (by omega)).bind_parsed fun body q₄ _ => ?_
    exact .ok ⟨rfl, rfl⟩
  | word word build ts h =>
    rw [Parse.stmt_word ts h, stmt_word hts h]
    refine (agrees_consume _ (q.next hts)).bind_consumed fun q₁ h₁ => ?_
    simp only [left_next, List.length_cons] at h₁ hfuel
    refine (agrees_expr q₁ (by omega)).bind_parsed fun value q₂ _ => ?_
    exact .ok ⟨rfl, rfl⟩
  | eval word ts kind value =>
    obtain ⟨hif, hprint, hreturn⟩ := Keyword.ofWord?_ne_some value
    rw [Parse.stmt_eval ts kind value, stmt, bind_of_eq (expect_eq hts (by simp [kind]))]
    -- the three facts rule out the other rows of the match
    simp only
    have hexpr := agrees_expr q (hts ▸ hfuel)
    rw [hts] at hexpr
    rw [bind_of_eq (putBack_next hts)]
    refine hexpr.bind_parsed fun value q₁ _ => ?_
    exact .ok ⟨rfl, rfl⟩
  | refused ts kind =>
    rw [Parse.stmt_refuse kind, stmt]
    exact agrees_refuse hts (by simpa using kind)

/-- The loop over the lines of a block adds the statements of the block to those it has. -/
theorem agrees_block_after {fuel depth : Nat} (stmts : List Stmt) (q : Queue input)
    (hfuel : q.left.length < fuel) :
    Agrees (ReadsAfter stmts) (Parse.block depth q.left) (block fuel depth stmts q) := by
  -- The lines that follow have one unit of fuel less, and the blocks inside this one two.
  induction fuel using Nat.strongRecOn generalizing depth stmts q with
  | ind fuel ih =>
    obtain ⟨fuel, rfl⟩ := Nat.exists_eq_add_one_of_ne_zero (Nat.ne_zero_of_lt hfuel)
    have hline : Agrees Reads (Parse.line depth q.left)
        (line (fuel + 1) depth (stmt fuel depth) q) := by
      refine agrees_line q hfuel fun q₁ h₁ => agrees_stmt_of_block q₁ (by omega) ?_
      exact fun less hless q₂ h₂ => ih less (by omega) [] q₂ h₂
    rw [Parse.block_eq_line, block]
    refine hline.bind_parsed fun first q₁ h₁ => ?_
    cases first with
    | none => exact .ok ⟨(List.append_nil _).symm, rfl⟩
    | some s =>
      refine (ih fuel (Nat.lt_succ_self fuel) (stmts ++ [s]) q₁ (by omega)).map ?_
      rintro r _ q' ⟨rfl, hleft⟩
      exact ⟨by simp, hleft⟩

theorem agrees_block {fuel : Nat} (depth : Nat) (q : Queue input) (hfuel : q.left.length < fuel) :
    Agrees Reads (Parse.block depth q.left) (block fuel depth [] q) :=
  agrees_block_after [] q hfuel

theorem agrees_stmt {fuel : Nat} (depth : Nat) (q : Queue input) (hfuel : q.left.length < fuel) :
    Agrees Reads (Parse.stmt depth q.left) (stmt fuel depth q) :=
  agrees_stmt_of_block q hfuel fun _ _ q' hq' => agrees_block (depth + 1) q' hq'

/-! ## Programs -/

theorem agrees_function {fuel : Nat} (name : Ident) (q : Queue input)
    (hfuel : q.left.length < fuel) :
    Agrees Reads (Parse.function name q.left) (function fuel name q) := by
  refine (agrees_consume _ q).bind_consumed fun q₁ h₁ => ?_
  have hlt : q₁.left.length < fuel := Nat.lt_of_le_of_lt (Nat.le_of_add_right_le h₁) hfuel
  refine (agrees_block 0 q₁ hlt).bind_parsed fun body q₂ _ => ?_
  refine (agrees_consume [.line] q₂).bind_consumed fun q₃ _ => ?_
  exact .ok ⟨rfl, rfl⟩

theorem agrees_item {fuel : Nat} (q : Queue input) (hfuel : q.left.length < fuel) :
    Agrees Reads (Parse.item q.left) (item fuel q) := by
  generalize hts : q.left = ts at hfuel
  rcases ts with _ | ⟨⟨kind, value, pos⟩, ts⟩
  · exact agrees_refuse hts nofun
  · have hlt : (q.next hts).left.length < fuel := Nat.lt_of_succ_lt hfuel
    rw [item]
    cases kind
    case comment =>
      rw [bind_of_eq (expect_eq hts (by simp))]
      refine (agrees_comment (q.next hts) hlt).bind_parsed fun _ q₁ _ => ?_
      exact .ok ⟨rfl, rfl⟩
    case identifier =>
      rw [bind_of_eq (expect_eq hts (by simp))]
      refine (agrees_function ⟨value, pos⟩ (q.next hts) hlt).bind_parsed fun f q₁ _ => ?_
      exact .ok ⟨rfl, rfl⟩
    case line =>
      rw [bind_of_eq (expect_eq hts (by simp))]
      exact .ok ⟨rfl, rfl⟩
    all_goals exact agrees_refuse hts (by simp)

/-- The loop over the items ends with no tokens left. -/
theorem agrees_functions {fuel : Nat} (before : List Function) (q : Queue input)
    (hfuel : q.left.length < fuel) :
    Agrees (fun fs fs' q' => fs' = before ++ fs ∧ q'.left = []) (Parse.functions q.left)
      (functions fuel before q) := by
  induction fuel generalizing before q with
  | zero => cases hfuel
  | succ fuel ih =>
    rw [functions, bind_of_eq (m := get) (a := q) rfl]
    by_cases h : q.left = []
    · rw [if_pos (by simpa using h), h, Parse.functions]
      exact .ok ⟨(List.append_nil _).symm, h⟩
    · rw [if_neg (by simpa using h), Parse.functions_eq_item h]
      refine (agrees_item q hfuel).bind_parsed fun first q₁ h₁ => ?_
      have hlt : q₁.left.length < fuel := Nat.lt_of_lt_of_le h₁ (Nat.le_of_lt_succ hfuel)
      refine (ih (before ++ first.toList) q₁ hlt).map ?_
      rintro fs _ q' ⟨rfl, hleft⟩
      exact ⟨by simp, hleft⟩

theorem agrees_program {fuel : Nat} (hfuel : input.length < fuel) :
    Agrees (fun p p' q' => p' = p ∧ q'.left = []) (Program.parse input)
      (program fuel (ofTokens input)) := by
  refine (agrees_functions [] (ofTokens input) hfuel).bind ?_
  rintro fs _ q' ⟨rfl, hleft⟩
  exact .ok ⟨rfl, hleft⟩

end Queue

/-! ## Constructs -/

/-- What the readers read. -/
inductive Construct where
  /-- The rest of a comment. -/
  | comment
  /-- The rest of a string. -/
  | stringText
  | expr
  /-- A statement of a block of the given depth. -/
  | stmt (depth : Nat)
  /-- A line of a block of the given depth: one round of the loop over its lines. -/
  | line (depth : Nat)
  /-- The rest of a block of the given depth. -/
  | block (depth : Nat)
  /-- The rest of the function with the given name. -/
  | function (name : Ident)
  /-- A function, a comment or an empty line: one round of the loop over the items of a program. -/
  | item

namespace Construct

variable {input : List Token}

/-- What a construct is read as. -/
def Tree : Construct → Type
  | comment => Unit
  | stringText => String
  | expr => Expr
  | stmt _ => Stmt
  | line _ => Option Stmt
  | block _ => List Stmt
  | function _ => Function
  | item => Option Function

/-- Reads a construct from a list of tokens. -/
def parse : (c : Construct) → (ts : List Token) → Except ParseError (Parse.Parsed c.Tree ts)
  | comment => Parse.comment
  | stringText => Parse.stringText
  | expr => Parse.expr
  | stmt depth => Parse.stmt depth
  | line depth => Parse.line depth
  | block depth => Parse.block depth
  | function name => Parse.function name
  | item => Parse.item

/-- Reads a construct from a queue. -/
def reader : (c : Construct) → (fuel : Nat) → Queue.Reader input c.Tree
  | comment, fuel => Queue.comment fuel
  | stringText, fuel => Queue.stringText fuel
  | expr, fuel => Queue.expr fuel
  | stmt depth, fuel => Queue.stmt fuel depth
  | line depth, fuel => Queue.line fuel depth (Queue.stmt fuel depth)
  | block depth, fuel => Queue.block fuel depth []
  | function name, fuel => Queue.function fuel name
  | item, fuel => Queue.item fuel

theorem agrees {fuel : Nat} (c : Construct) (q : Queue input) (hfuel : q.left.length < fuel) :
    Queue.Agrees Queue.Reads (c.parse q.left) (c.reader fuel q) := by
  cases c with
  | comment => exact Queue.agrees_comment q hfuel
  | stringText => exact Queue.agrees_stringText q hfuel
  | expr => exact Queue.agrees_expr q hfuel
  | stmt depth => exact Queue.agrees_stmt depth q hfuel
  | line depth =>
    exact Queue.agrees_line q hfuel fun q' hq' => Queue.agrees_stmt depth q' (hq'.trans hfuel)
  | block depth => exact Queue.agrees_block depth q hfuel
  | function name => exact Queue.agrees_function name q hfuel
  | item => exact Queue.agrees_item q hfuel

/-- How the reading of a construct from a queue ends, given more fuel than there are tokens left.
There are two ways only: the fuel lasts, no token is put back but the one that was taken last, and
no token comes to a row of a match that is not meant for it. -/
inductive Outcome (c : Construct) (q : Queue input) : Prop
  /-- The construct is read, from the queue as from the tokens left in it. The tokens left then are
  those with at least one dropped from their front. -/
  | read (value : c.Tree) (after : Queue input) (n : Nat)
      (shorter : after.left.length < q.left.length)
      (reader_eq : ∀ fuel > q.left.length, c.reader fuel q = .ok (value, after))
      (parse_eq : c.parse q.left = .ok ⟨value, after.left, shorter⟩)
      (one_le : 1 ≤ n) (le_length : n ≤ q.left.length) (left_eq : after.left = q.left.drop n)
  /-- The tokens are refused, in the queue as in the list of those left in it. -/
  | refused (e : ParseError)
      (reader_eq : ∀ fuel > q.left.length, c.reader fuel q = .error (.refused e))
      (parse_eq : c.parse q.left = .error e)

theorem outcome (c : Construct) (q : Queue input) : c.Outcome q := by
  have hagrees : ∀ fuel > q.left.length,
      Queue.Agrees Queue.Reads (c.parse q.left) (c.reader fuel q) := fun _ => c.agrees q
  generalize hparse : c.parse q.left = x at hagrees
  cases x with
  | error e => exact .refused e (fun fuel hfuel => (hagrees fuel hfuel).eq_error) hparse
  | ok r =>
    obtain ⟨value, rest, shorter⟩ := r
    obtain ⟨after, rfl, heq⟩ := Queue.exists_eq_ok_of_agrees hagrees fun _ _ h => h
    obtain ⟨n, hpos, hle, hdrop⟩ := Queue.exists_eq_drop shorter
    exact .read value after n shorter heq hparse hpos hle hdrop

end Construct

/-- **Every reader ends on every queue and takes tokens off its front.** Whatever the tokens are and
whichever of them are left, the reading of each construct, at each depth, and each round of the two
loops ends: with a syntax error, or with the queue it found less at least one token at its front. So
the reading of a whole program ends, and it ends as the reading of the list of tokens does. -/
theorem queue_outcome (input : List Token) :
    (∀ (c : Construct) (q : Queue input), c.Outcome q) ∧
      ((∃ p after,
          (∀ fuel > input.length, Queue.program fuel (.ofTokens input) = .ok (p, after)) ∧
          after.left = [] ∧ Program.parse input = .ok p) ∨
        ∃ e,
          (∀ fuel > input.length, Queue.program fuel (.ofTokens input) = .error (.refused e)) ∧
          Program.parse input = .error e) := by
  refine ⟨fun c q => c.outcome q, ?_⟩
  have hagrees := fun fuel (hfuel : fuel > input.length) => Queue.agrees_program hfuel
  generalize Program.parse input = x at hagrees ⊢
  cases x with
  | error e => exact .inr ⟨e, fun fuel hfuel => (hagrees fuel hfuel).eq_error, rfl⟩
  | ok p =>
    obtain ⟨after, hleft, heq⟩ := Queue.exists_eq_ok_of_agrees hagrees fun _ _ h => h
    exact .inl ⟨p, after, heq, hleft, rfl⟩

end Tabscript
