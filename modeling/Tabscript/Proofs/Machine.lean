import Tabscript.Proofs.Reading

/-!
# Reading token by token

The recursive descent keeps what it still has to do on its call stack. Here the same reading is a
machine with an explicit state: it takes one token after the other, never looks ahead and never
goes back. What holds for all inputs up to some token is then a statement about the state that
this token meets.

* `State` is the state, and `State.step` what one token does to it.
* `State.run` takes all tokens and asks the state it ends in for the functions.
* `State.run_exprStart` and `State.run_lineStart` say that the machine reads an expression and the
  rest of a block as `Parse.expr` and `Parse.block` do.
* `functions_eq_run` says that it reads what `Parse.functions` reads, with the same errors.
-/

namespace Tabscript.Machine

open Grammar

/-! ## States -/

/-- A conditional statement whose block is still open. -/
structure Frame where
  /-- The statements before it in the block around it. -/
  before : List Stmt
  condition : Expr
  deriving DecidableEq

/-- A function whose body is still open. -/
structure Body where
  /-- The functions before it. -/
  functions : List Function
  name : Ident
  /-- The open conditional statements, from the inside out. -/
  frames : List Frame
  /-- The statements of the innermost block so far. -/
  stmts : List Stmt
  deriving DecidableEq

/-- The part of a statement that an expression is. -/
inductive Role where
  | eval
  | print
  | ret
  | condition
  deriving DecidableEq

/-- An expression that is still open. -/
structure Context where
  role : Role
  body : Body
  /-- The names and symbols that still lack what stands to the right of them, the last one first. -/
  pending : List (Ident × String)
  deriving DecidableEq

/-- What was read so far, and what can follow. -/
inductive State where
  /-- Between functions. -/
  | top (functions : List Function)
  | comment (functions : List Function)
  /-- Before a token of the given kind, and the state after it. -/
  | expect (kind : TokenKind) (next : State)
  /-- At the start of a line of a block. -/
  | lineStart (body : Body)
  /-- In a line of a block, before the given number of tabs and one more or a closing brace. -/
  | margin (tabs : Nat) (body : Body)
  | stmtStart (body : Body)
  | exprStart (context : Context)
  /-- In a string that started at the given place, after the given text. -/
  | quote (pos : Position) (text : String) (context : Context)
  /-- After a name that is an expression or starts one. -/
  | afterName (name : Ident) (context : Context)
  /-- After a name and a space. -/
  | symbol (name : Ident) (context : Context)
  deriving DecidableEq

namespace Body

/-- The number of open conditional statements. -/
def depth (b : Body) : Nat := b.frames.length

/-- The body with more statements in its innermost block. -/
def extend (b : Body) (stmts : List Stmt) : Body := { b with stmts := b.stmts ++ stmts }

/-- The body in the block of a new conditional statement. -/
def enter (b : Body) (condition : Expr) : Body :=
  { b with frames := ⟨b.stmts, condition⟩ :: b.frames, stmts := [] }

/-- The state after the closing brace of the innermost block. -/
def close : Body → State
  | ⟨functions, name, [], stmts⟩ => .expect .line (.top (functions ++ [⟨name, stmts⟩]))
  | ⟨functions, name, frame :: frames, stmts⟩ =>
    .expect .line (.lineStart
      ⟨functions, name, frames, frame.before ++ [.branch frame.condition stmts]⟩)

@[simp] theorem depth_extend (b : Body) (stmts : List Stmt) :
    (b.extend stmts).depth = b.depth := rfl

@[simp] theorem depth_enter (b : Body) (condition : Expr) :
    (b.enter condition).depth = b.depth + 1 := rfl

@[simp] theorem extend_nil (b : Body) : b.extend [] = b := by
  rw [extend, List.append_nil]

theorem extend_extend (b : Body) (stmts stmts' : List Stmt) :
    (b.extend stmts).extend stmts' = b.extend (stmts ++ stmts') := by
  simp only [extend, List.append_assoc]

/-- The end of an inner block adds its statement to the block around it. -/
theorem close_extend_enter (b : Body) (condition : Expr) (stmts : List Stmt) :
    ((b.enter condition).extend stmts).close =
      .expect .line (.lineStart (b.extend [.branch condition stmts])) := rfl

end Body

/-- The state before tokens of the given kinds, one after the other. -/
def State.expectAll (kinds : List TokenKind) (next : State) : State := kinds.foldr .expect next

/-- The kind of the token after an expression. -/
def Role.closeKind : Role → TokenKind
  | eval | print | ret => .line
  | condition => .parenClose

/-- The state after an expression and the token after it. -/
def Role.next : Role → Body → Expr → State
  | eval, b, e => .lineStart (b.extend [.eval e])
  | print, b, e => .lineStart (b.extend [.print e])
  | ret, b, e => .lineStart (b.extend [.ret e])
  | condition, b, e => .expectAll [.space, .braceOpen, .line] (.lineStart (b.enter e))

namespace Context

/-- The whole expression, once its last operand is read. -/
def wrap (c : Context) (e : Expr) : Expr :=
  c.pending.foldl (fun value (name, symbol) => .binary name symbol value) e

/-- The state after the last operand of the expression and the token after it. -/
def next (c : Context) (e : Expr) : State := c.role.next c.body (c.wrap e)

/-- The state after the last operand of the expression. -/
def done (c : Context) (e : Expr) : State := .expect c.role.closeKind (c.next e)

/-- The context of what stands to the right of a name and a symbol. -/
def push (c : Context) (name : Ident) (symbol : String) : Context :=
  { c with pending := (name, symbol) :: c.pending }

/-- An expression on the right of a symbol completes the one on the left. -/
theorem done_push (c : Context) (name : Ident) (symbol : String) (e : Expr) :
    (c.push name symbol).done e = c.done (.binary name symbol e) := rfl

end Context

/-! ## Steps -/

namespace State

/-- The kinds of which the next token has to be one, with the given number of tabs to come. -/
def marginKinds : Nat → List TokenKind
  | 0 => [.braceClose, .indent]
  | _ + 1 => [.indent]

/-- The kinds of which the next token has to be one for the reading to end well. -/
def expected : State → List TokenKind
  | top _ => [.comment, .identifier, .line]
  | comment _ => [.line]
  | expect kind _ => [kind]
  | lineStart b => marginKinds b.depth
  | margin tabs _ => marginKinds tabs
  | stmtStart _ => [.identifier]
  | exprStart _ => [.identifier, .number, .string]
  | quote _ _ _ => [.string]
  | afterName _ _ => [.line, .parenClose, .parenOpen, .space]
  | symbol _ _ => [.symbol]

/-- The state after the word that an expression starts with. -/
def ofWord (t : Token) (c : Context) : State :=
  match Keyword.truth? t.value with
  | some value => c.done (.bool value t.pos)
  | none => .afterName (nameOf t) c

/-- The state after the word that a statement starts with. -/
def ofStmtWord (t : Token) (b : Body) : State :=
  match Keyword.ofWord? t.value with
  | some .ifWord => .expectAll [.space, .parenOpen] (.exprStart ⟨.condition, b, []⟩)
  | some .printWord => .expect .space (.exprStart ⟨.print, b, []⟩)
  | some .returnWord => .expect .space (.exprStart ⟨.ret, b, []⟩)
  | _ => .ofWord t ⟨.eval, b, []⟩

/-- The state after the name of a function. -/
def ofName (functions : List Function) (name : Ident) : State :=
  .expectAll [.parenOpen, .parenClose, .space, .braceOpen, .line]
    (.lineStart ⟨functions, name, [], []⟩)

/-- The state `next` if the token has the right kind. -/
def take (kind : TokenKind) (next : State) (t : Token) : Except ParseError State :=
  if t.kind = kind then .ok next else .error (.unexpected t [kind])

/-- The state after a token that has to be a tab, or with no tabs to come a closing brace. -/
def stepMargin : Nat → Body → Token → Except ParseError State
  | 0, b, t =>
    match t.kind with
    | .braceClose => .ok b.close
    | .indent => .ok (.stmtStart b)
    | _ => .error (.unexpected t (marginKinds 0))
  | tabs + 1, b, t => take .indent (.margin tabs b) t

/-- The state after one more token. -/
def step : State → Token → Except ParseError State
  | top functions, t =>
    match t.kind with
    | .comment => .ok (.comment functions)
    | .identifier => .ok (.ofName functions (nameOf t))
    | .line => .ok (.top functions)
    | _ => .error (.unexpected t [.comment, .identifier, .line])
  | comment functions, t => .ok (if t.kind = .line then .top functions else .comment functions)
  | expect kind next, t => take kind next t
  | lineStart b, t => if t.kind = .line then .ok (.lineStart b) else stepMargin b.depth b t
  | margin tabs b, t => stepMargin tabs b t
  | stmtStart b, t => take .identifier (.ofStmtWord t b) t
  | exprStart c, t =>
    match t.kind with
    | .identifier => .ok (.ofWord t c)
    | .number => .ok (c.done (.number t.value t.pos))
    | .string => .ok (.quote t.pos "" c)
    | _ => .error (.unexpected t [.identifier, .number, .string])
  | quote pos text c, t =>
    .ok (if t.kind = .string then c.done (.string text pos) else .quote pos (text ++ t.value) c)
  | afterName name c, t =>
    match t.kind with
    -- these two end the variable, but only one of them can follow the expression
    | .line | .parenClose => take c.role.closeKind (c.next (.var name name.pos)) t
    | .parenOpen => .ok (.expect .parenClose (c.done (.call name name.pos)))
    | .space => .ok (.symbol name c)
    | _ => .error (.unexpected t [.line, .parenClose, .parenOpen, .space])
  | symbol name c, t => take .symbol (.expect .space (.exprStart (c.push name t.value))) t

/-- The functions, at the end of the tokens. -/
def finish : State → Except ParseError (List Function)
  | top functions => .ok functions
  | s => .error (.endOfInput s.expected)

/-- The functions after all the tokens. -/
def run (s : State) (ts : List Token) : Except ParseError (List Function) :=
  ts.foldlM step s >>= finish

theorem run_cons (s : State) (t : Token) (ts : List Token) :
    s.run (t :: ts) = s.step t >>= fun s' => s'.run ts := by
  rw [run, List.foldlM_cons, bind_assoc]
  rfl

/-- A run over two lists goes on where the first one ends. -/
theorem run_append (s : State) (ts us : List Token) :
    s.run (ts ++ us) = ts.foldlM step s >>= fun s' => s'.run us := by
  rw [run, List.foldlM_append, bind_assoc]
  rfl

theorem run_cons_of_step {s s' : State} {t : Token} (h : s.step t = .ok s') (ts : List Token) :
    s.run (t :: ts) = s'.run ts := by
  rw [run_cons, h, Parse.ok_bind]

/-- A state that can neither end nor take the next token refuses it as the readers do. -/
theorem run_eq_refuse {s : State} {expected : List TokenKind} {ts : List Token}
    (hfinish : s.finish = .error (.endOfInput expected))
    (hstep : ∀ t ∈ ts.head?, s.step t = .error (.unexpected t expected)) :
    s.run ts = Parse.refuse expected ts := by
  cases ts with
  | nil => exact hfinish
  | cons t ts => rw [run_cons, hstep t rfl, Parse.error_bind, Parse.refuse]

/-! ## Tokens -/

theorem run_expect (kind : TokenKind) (s : State) (ts : List Token) :
    (expect kind s).run ts = Parse.expect kind ts >>= fun t => s.run t.rest := by
  cases ts with
  | nil => rfl
  | cons t ts =>
    rw [run_cons]
    simp only [step, take, Parse.expect]
    split <;> rfl

theorem expectAll_singleton (kind : TokenKind) (s : State) :
    expectAll [kind] s = expect kind s := rfl

/-- A state that waits for tokens of given kinds takes what the reader of these kinds takes. -/
theorem run_expectAll (kinds : List TokenKind) (s : State) (ts : List Token) :
    (expectAll kinds s).run ts = Parse.consume kinds ts >>= fun read => s.run read.rest := by
  induction kinds generalizing ts with
  | nil => rfl
  | cons kind kinds ih =>
    show (expect kind (expectAll kinds s)).run ts = _
    rw [run_expect]
    simp only [Parse.consume, ih, bind_assoc, Parse.ok_bind]

theorem run_comment (functions : List Function) (ts : List Token) :
    (comment functions).run ts =
      Parse.comment ts >>= fun skipped => (top functions).run skipped.rest := by
  induction ts with
  | nil => rfl
  | cons t ts ih =>
    rw [run_cons]
    by_cases h : t.kind = .line
    · rw [step, if_pos h, Parse.comment, Parse.upTo_cons_of_eq ts h]
      rfl
    · rw [step, if_neg h, Parse.ok_bind, ih]
      simp only [Parse.comment, Parse.upTo_cons_of_ne ts h, bind_assoc, Parse.ok_bind]

/-- In a string the run collects what the reader of strings reads. -/
theorem run_quote (pos : Position) (text : String) (c : Context) (ts : List Token) :
    (quote pos text c).run ts = Parse.stringText ts >>= fun inner =>
      (c.done (.string (text ++ inner.value) pos)).run inner.rest := by
  induction ts generalizing text with
  | nil => rfl
  | cons t ts ih =>
    rw [run_cons]
    by_cases h : t.kind = .string
    · rw [step, if_pos h, Parse.stringText, Parse.upTo_cons_of_eq ts h]
      simp only [Parse.ok_bind, List.map_nil, String.join_nil, String.append_empty]
    · rw [step, if_neg h, Parse.ok_bind, ih]
      simp only [Parse.stringText, Parse.upTo_cons_of_ne ts h, bind_assoc, Parse.ok_bind,
        List.map_cons, String.join_cons, String.append_assoc]

/-! ## Line starts -/

theorem run_margin (tabs : Nat) (b : Body) (ts : List Token) :
    (margin tabs b).run ts = Parse.consume (List.replicate tabs .indent) ts >>= fun read =>
      Parse.braceOrTab read.rest >>= fun start =>
      (if start.value then stmtStart b else b.close).run start.rest := by
  induction tabs generalizing ts with
  | zero =>
    rcases ts with _ | ⟨⟨kind, value, pos⟩, ts⟩
    · rfl
    · cases kind <;> rfl
  | succ tabs ih =>
    have hrun : (margin (tabs + 1) b).run ts = (expect .indent (margin tabs b)).run ts := by
      cases ts <;> rfl
    rw [hrun, run_expect]
    simp only [List.replicate_succ, Parse.consume, ih, bind_assoc, Parse.ok_bind]

/-- The machine skips empty lines, and then the margin starts. -/
theorem run_lineStart_eq_margin (b : Body) (ts : List Token) :
    (lineStart b).run ts = (margin b.depth b).run (ts.dropWhile (·.kind = .line)) := by
  induction ts with
  | nil => rfl
  | cons t ts ih =>
    by_cases h : t.kind = .line
    · rw [List.dropWhile_cons_of_pos (by simpa using h), ← ih, run_cons, step, if_pos h,
        Parse.ok_bind]
    · rw [List.dropWhile_cons_of_neg (by simpa using h), run_cons, run_cons, step, if_neg h, step]

/-! ## Expressions -/

/-- After a name the machine looks at the next token without taking it, as the reader does. -/
theorem run_afterName_close {next : Token} {name : Ident} {c : Context} (ts : List Token)
    (h : next.kind = .line ∨ next.kind = .parenClose) :
    (afterName name c).run (next :: ts) = (c.done (.var name name.pos)).run (next :: ts) := by
  rw [run_cons, run_cons]
  rcases h with h | h
  all_goals
    simp only [step, h]
    rfl

theorem run_symbol (name : Ident) (c : Context) (ts : List Token) :
    (symbol name c).run ts = Parse.expect .symbol ts >>= fun symbol =>
      (expect .space (exprStart (c.push name symbol.value.value))).run symbol.rest := by
  cases ts with
  | nil => rfl
  | cons t ts =>
    rw [run_cons]
    simp only [step, take, Parse.expect]
    split <;> rfl

/-- Reading an expression leaves the machine in the state after its last operand. -/
theorem run_exprStart (c : Context) (ts : List Token) :
    (exprStart c).run ts = Parse.expr ts >>= fun e => (c.done e.value).run e.rest := by
  induction ts using Parse.expr_induction generalizing c with
  | number t ts kind =>
    rw [Parse.expr_number ts kind, run_cons]
    simp only [step, kind, Parse.ok_bind]
  | string t ts kind =>
    rw [Parse.expr_string ts kind, run_cons]
    simp only [step, kind, Parse.ok_bind, run_quote, String.empty_append, bind_assoc]
  | bool t ts value kind truth =>
    rw [Parse.expr_bool ts kind truth, run_cons]
    simp only [step, kind, ofWord, truth, Parse.ok_bind]
  | var t next ts name kind =>
    rw [Parse.expr_var ts name kind, run_cons]
    simp only [step, name.1, ofWord, name.truth?_eq_none, Parse.ok_bind,
      run_afterName_close ts kind, nameOf]
  | call t next ts name kind =>
    rw [Parse.expr_call ts name kind, run_cons]
    simp only [step, name.1, ofWord, name.truth?_eq_none, Parse.ok_bind, bind_assoc]
    rw [run_cons]
    simp only [step, kind, Parse.ok_bind]
    exact run_expectAll [.parenClose] _ ts
  | binary t next ts name kind ih =>
    rw [Parse.expr_binary ts name kind, run_cons]
    simp only [step, name.1, ofWord, name.truth?_eq_none, Parse.ok_bind, bind_assoc]
    rw [run_cons]
    simp only [step, kind, Parse.ok_bind, run_symbol]
    refine bind_congr fun symbol => ?_
    rw [← expectAll_singleton, run_expectAll]
    refine bind_congr fun space => ?_
    rw [ih space.rest (Nat.lt_of_le_of_lt space.le symbol.shorter)]
    simp only [Context.done_push]
  | bare t ts name kinds =>
    rw [Parse.expr_bare name kinds, Parse.refuse_bind, run_cons]
    simp only [step, name.1, ofWord, name.truth?_eq_none, Parse.ok_bind]
    refine run_eq_refuse rfl fun next hnext => ?_
    rw [step]
    split <;> simp_all
  | refused ts kinds =>
    rw [Parse.expr_refuse kinds, Parse.refuse_bind]
    refine run_eq_refuse rfl fun t ht => ?_
    rw [step]
    split <;> simp_all

/-! ## Statements and blocks -/

theorem ofStmtWord_of_notMem {word : Token} {b : Body}
    (h : word.value ∉ ["if", "print", "return"]) :
    ofStmtWord word b = ofWord word ⟨.eval, b, []⟩ := by
  obtain ⟨hif, hprint, hreturn⟩ := Keyword.ofWord?_ne_some h
  simp only [ofStmtWord]

theorem ofStmtWord_of_isWordStmt {word : Token} {build : Expr → Stmt}
    (h : Parse.IsWordStmt word build) (b : Body) :
    ∃ role, ofStmtWord word b = expect .space (exprStart ⟨role, b, []⟩) ∧
      ∀ e, Context.done ⟨role, b, []⟩ e = expect .line (lineStart (b.extend [build e])) := by
  obtain ⟨-, ⟨value, rfl⟩ | ⟨value, rfl⟩⟩ := h
  · have hword := (Keyword.ofWord?_eq_some_iff (k := .printWord)).2 value
    exact ⟨.print, by rw [ofStmtWord, hword], fun _ => rfl⟩
  · have hword := (Keyword.ofWord?_eq_some_iff (k := .returnWord)).2 value
    exact ⟨.ret, by rw [ofStmtWord, hword], fun _ => rfl⟩

/-- Reading a statement and the end of its line leaves the machine at the start of the next line,
if reading the rest of a block leaves it after the block's closing brace. -/
theorem run_stmtStart_of_lineStart {ts : List Token}
    (hblock : ∀ (b : Body) (us : List Token), us.length < ts.length →
      (lineStart b).run us =
        Parse.block b.depth us >>= fun rest => (b.extend rest.value).close.run rest.rest)
    (b : Body) :
    (stmtStart b).run ts = Parse.stmt b.depth ts >>= fun first =>
      (expect .line (lineStart (b.extend [first.value]))).run first.rest := by
  induction ts using Parse.stmt_cases with
  | branch word ts kind value =>
    have hword : Keyword.ofWord? word.value = some .ifWord := Keyword.ofWord?_eq_some_iff.2 value
    rw [Parse.stmt_if ts kind value, run_cons]
    simp only [step, take, kind, if_true, ofStmtWord, hword, Parse.ok_bind, bind_assoc]
    rw [run_expectAll]
    refine bind_congr fun header => ?_
    rw [run_exprStart]
    refine bind_congr fun condition => ?_
    show (expectAll [.parenClose, .space, .braceOpen, .line]
      (lineStart (b.enter condition.value))).run condition.rest = _
    rw [run_expectAll]
    refine bind_congr fun opened => ?_
    rw [hblock]
    · simp only [Body.depth_enter, Body.close_extend_enter]
    · exact Nat.lt_of_le_of_lt opened.le
        (Nat.lt_trans condition.shorter (Nat.lt_succ_of_le header.le))
  | word word build ts h =>
    rw [Parse.stmt_word ts h, run_cons]
    obtain ⟨role, hword, hdone⟩ := ofStmtWord_of_isWordStmt h b
    simp only [step, take, h.1, if_true, hword, Parse.ok_bind, bind_assoc]
    rw [← expectAll_singleton, run_expectAll]
    refine bind_congr fun space => ?_
    simp only [run_exprStart, hdone]
  | eval word ts kind value =>
    have hrun : (stmtStart b).run (word :: ts) = (exprStart ⟨.eval, b, []⟩).run (word :: ts) := by
      rw [run_cons, run_cons]
      simp only [step, take, kind, if_true, ofStmtWord_of_notMem value]
    rw [Parse.stmt_eval ts kind value, hrun, run_exprStart, bind_assoc]
    rfl
  | refused ts kinds =>
    rw [Parse.stmt_refuse kinds, Parse.refuse_bind]
    refine run_eq_refuse rfl fun t ht => ?_
    rw [step, take, if_neg (kinds t ht)]

/-- Reading the rest of a block leaves the machine after the block's closing brace. -/
theorem run_lineStart (b : Body) (ts : List Token) :
    (lineStart b).run ts =
      Parse.block b.depth ts >>= fun rest => (b.extend rest.value).close.run rest.rest := by
  induction hn : ts.length using Nat.strongRecOn generalizing b ts with
  | ind n ih =>
    subst hn
    rw [run_lineStart_eq_margin, run_margin, Parse.block, Parse.lineStart]
    simp only [bind_assoc, Parse.ok_bind]
    refine bind_congr fun margin => ?_
    refine bind_congr fun start => ?_
    have start_lt : start.rest.length < ts.length := Nat.lt_of_lt_of_le start.shorter
      (Nat.le_trans margin.le (List.dropWhile_sublist _).length_le)
    cases start.value with
    | false => simp only [Bool.false_eq_true, if_false, Parse.ok_bind, Body.extend_nil]
    | true =>
      simp only [if_true, bind_assoc, Parse.ok_bind]
      rw [run_stmtStart_of_lineStart fun b us hus => ih us.length (hus.trans start_lt) b us rfl]
      refine bind_congr fun first => ?_
      rw [← expectAll_singleton, run_expectAll]
      refine bind_congr fun line => ?_
      rw [ih line.rest.length (Nat.lt_of_le_of_lt line.le (first.shorter.trans start_lt)) _ _ rfl]
      simp only [Body.depth_extend, Body.extend_extend, List.singleton_append]

/-! ## Programs -/

theorem run_top (functions : List Function) (ts : List Token) :
    (top functions).run ts = Parse.functions ts >>= fun more => .ok (functions ++ more) := by
  induction ts using Parse.functions_induction generalizing functions with
  | nil =>
    rw [Parse.functions, Parse.ok_bind, List.append_nil]
    rfl
  | comment mark ts kind ih =>
    rw [Parse.functions_comment ts kind, run_cons]
    simp only [step, kind, Parse.ok_bind, run_comment, bind_assoc]
    exact bind_congr fun skipped => ih skipped.rest skipped.shorter functions
  | function name ts kind ih =>
    rw [Parse.functions_function ts kind, run_cons]
    simp only [step, kind, Parse.ok_bind, ofName, run_expectAll, Parse.function, bind_assoc]
    refine bind_congr fun header => ?_
    rw [run_lineStart]
    refine bind_congr fun body => ?_
    show (expectAll [.line] (top (functions ++ [⟨nameOf name, body.value⟩]))).run body.rest = _
    rw [run_expectAll]
    refine bind_congr fun line => ?_
    rw [ih line.rest (Nat.lt_of_le_of_lt line.le (Nat.lt_of_lt_of_le body.shorter header.le))]
    simp only [List.append_assoc, List.singleton_append]
  | line line ts kind ih =>
    rw [Parse.functions_line ts kind, run_cons]
    simp only [step, kind, Parse.ok_bind, ih]
  | refused t ts kinds =>
    rw [Parse.functions_refuse ts kinds, Parse.refuse_bind, run_cons, step]
    split <;> simp_all [Parse.refuse]

end State

/-- The machine reads the functions that the recursive descent reads, with the same errors. -/
theorem functions_eq_run (ts : List Token) : Parse.functions ts = (State.top []).run ts := by
  rw [State.run_top]
  exact (bind_pure _).symm

end Tabscript.Machine
