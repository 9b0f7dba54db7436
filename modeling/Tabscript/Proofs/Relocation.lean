import Tabscript.Proofs.Reading
import Tabscript.Relocation

/-!
# Nothing depends on positions

The readers decide by the kinds and the texts of tokens, and only copy the positions. So tokens
with their positions moved are read as the same trees and refused with the same errors, up to the
same move. Every reader is run twice, on tokens and on the moved tokens, and `Moved` relates the two
outcomes; it passes through sequences of readers (`Moved.bind`), so the proof for a reader follows
the reader's own steps. The code of a tree holds no positions at all, and the refusal of an
operation copies the one of the operation.

* `Parse.expr_moved`, `Parse.stmt_moved`, `Parse.block_moved` and `Parse.functions_moved` are about
  the readers.
* `Parse.functions_map_relocate` says what is read from moved tokens.
* `Program.code_relocate` is about the code of a moved tree.
* `outcome_relocate` says both of programs, and of single expressions.
-/

namespace Tabscript

@[simp] theorem Token.kind_relocate (f : Position → Position) (t : Token) :
    (t.relocate f).kind = t.kind := rfl

namespace Parse

open Grammar

variable {α β γ δ : Type} {f : Position → Position}

/-! ## Two runs of a reader -/

/-- The outcomes of two runs, the second on moved tokens: values that `R` relates, or the same
error, moved. -/
inductive Moved (f : Position → Position) (R : α → β → Prop) :
    Except ParseError α → Except ParseError β → Prop
  | ok {a : α} {b : β} (h : R a b) : Moved f R (.ok a) (.ok b)
  | error (e : ParseError) : Moved f R (.error e) (.error (e.relocate f))

/-- Two runs stay related through a sequence if its steps relate them. -/
theorem Moved.bind {R : α → β → Prop} {S : γ → δ → Prop} {x : Except ParseError α}
    {y : Except ParseError β} {k : α → Except ParseError γ} {k' : β → Except ParseError δ}
    (h : Moved f R x y) (hk : ∀ a b, R a b → Moved f S (k a) (k' b)) :
    Moved f S (x >>= k) (y >>= k') := by
  cases h with
  | ok h => exact hk _ _ h
  | error e => exact .error e

/-- A second run whose values are those of the first run under `g`. -/
theorem Moved.eq_map {g : α → β} {x : Except ParseError α} {y : Except ParseError β}
    (h : Moved f (fun a b => b = g a) x y) : y = (x.map g).mapError (ParseError.relocate f) := by
  cases h with
  | ok h => rw [h]; rfl
  | error e => rfl

/-- Tokens with their positions moved. -/
def moved (f : Position → Position) (ts : List Token) : List Token := ts.map (Token.relocate f)

@[simp] theorem moved_cons (t : Token) (ts : List Token) :
    moved f (t :: ts) = t.relocate f :: moved f ts := rfl

/-- The second reading is the first one under `g`, and leaves the same tokens, moved. -/
def ReadsMoved (f : Position → Position) (g : α → α) {ts us : List Token} (r : Parsed α ts)
    (r' : Parsed α us) : Prop := r'.value = g r.value ∧ r'.rest = moved f r.rest

/-- The second run leaves the same tokens as the first one, moved. -/
def LeavesMoved (f : Position → Position) {kinds : List TokenKind} {ts us : List Token}
    (r : Consumed kinds ts) (r' : Consumed kinds us) : Prop := r'.rest = moved f r.rest

theorem Moved.bind_parsed {g : α → α} {S : γ → δ → Prop} {ts us : List Token}
    {x : Except ParseError (Parsed α ts)} {y : Except ParseError (Parsed α us)}
    {k : Parsed α ts → Except ParseError γ} {k' : Parsed α us → Except ParseError δ}
    (h : Moved f (ReadsMoved f g) x y)
    (hk : ∀ value rest shorter shorter',
      Moved f S (k ⟨value, rest, shorter⟩) (k' ⟨g value, moved f rest, shorter'⟩)) :
    Moved f S (x >>= k) (y >>= k') := by
  refine h.bind ?_
  rintro ⟨value, rest, shorter⟩ ⟨_, _, shorter'⟩ ⟨rfl, rfl⟩
  exact hk value rest shorter shorter'

theorem Moved.bind_consumed {S : γ → δ → Prop} {kinds : List TokenKind} {ts us : List Token}
    {x : Except ParseError (Consumed kinds ts)} {y : Except ParseError (Consumed kinds us)}
    {k : Consumed kinds ts → Except ParseError γ} {k' : Consumed kinds us → Except ParseError δ}
    (h : Moved f (LeavesMoved f) x y)
    (hk : ∀ rest length_le length_le',
      Moved f S (k ⟨rest, length_le⟩) (k' ⟨moved f rest, length_le'⟩)) :
    Moved f S (x >>= k) (y >>= k') := by
  refine h.bind ?_
  rintro ⟨rest, length_le⟩ ⟨_, length_le'⟩ h
  cases h
  exact hk rest length_le length_le'

/-! ## Tokens -/

/-- A refusal blames the token where it has been moved to. -/
theorem refuse_moved (R : α → β → Prop) (expected : List TokenKind) (ts : List Token) :
    Moved f R (refuse expected ts) (refuse expected (moved f ts)) := by
  cases ts with
  | nil => exact .error _
  | cons t ts => exact .error _

theorem expect_moved (kind : TokenKind) (ts : List Token) :
    Moved f (ReadsMoved f (Token.relocate f)) (expect kind ts) (expect kind (moved f ts)) := by
  cases ts with
  | nil => exact .error _
  | cons t ts =>
    by_cases h : t.kind = kind
    · simp only [moved_cons, expect, Token.kind_relocate, h, if_true]
      exact .ok ⟨rfl, rfl⟩
    · simp only [moved_cons, expect, Token.kind_relocate, h, if_false]
      exact .error _

theorem consume_moved (kinds : List TokenKind) (ts : List Token) :
    Moved f (LeavesMoved f) (consume kinds ts) (consume kinds (moved f ts)) := by
  induction kinds generalizing ts with
  | nil => exact .ok rfl
  | cons kind kinds ih =>
    refine (expect_moved kind ts).bind_parsed fun t rest _ _ => ?_
    refine (ih rest).bind_consumed fun rest _ _ => ?_
    exact .ok rfl

theorem upTo_moved (kind : TokenKind) (ts : List Token) :
    Moved f (ReadsMoved f (moved f)) (upTo kind ts) (upTo kind (moved f ts)) := by
  induction ts with
  | nil => exact .error (.endOfInput [kind])
  | cons t ts ih =>
    by_cases h : t.kind = kind
    · have h' : (t.relocate f).kind = kind := h
      rw [moved_cons, upTo_cons_of_eq ts h, upTo_cons_of_eq (moved f ts) h']
      exact .ok ⟨rfl, rfl⟩
    · have h' : (t.relocate f).kind ≠ kind := h
      rw [moved_cons, upTo_cons_of_ne ts h, upTo_cons_of_ne (moved f ts) h']
      refine ih.bind_parsed fun inner rest _ _ => ?_
      exact .ok ⟨rfl, rfl⟩

theorem comment_moved (ts : List Token) :
    Moved f (ReadsMoved f id) (comment ts) (comment (moved f ts)) :=
  (upTo_moved .line ts).bind_parsed fun _ _ _ _ => .ok ⟨rfl, rfl⟩

theorem map_value_moved (ts : List Token) :
    (moved f ts).map Token.value = ts.map Token.value := List.map_map

theorem stringText_moved (ts : List Token) :
    Moved f (ReadsMoved f id) (stringText ts) (stringText (moved f ts)) := by
  refine (upTo_moved .string ts).bind_parsed fun inner rest _ _ => ?_
  refine .ok ⟨?_, rfl⟩
  simp only [map_value_moved, id]

/-! ## Expressions -/

theorem binary_relocate (name : Ident) (symbol : String) (value : Expr) :
    (Expr.binary name symbol value).relocate f =
      .binary (name.relocate f) symbol (value.relocate f) := by
  unfold Expr.binary
  split <;> rfl

theorem isName_relocate {t : Token} (h : IsName t) : IsName (t.relocate f) := h

theorem head?_moved {P : TokenKind → Prop} {ts : List Token} (h : ∀ t ∈ ts.head?, P t.kind) :
    ∀ t ∈ (moved f ts).head?, P t.kind := by
  cases ts with
  | nil => exact nofun
  | cons u us =>
    intro t ht
    obtain rfl := Option.mem_some_iff.1 ht
    exact h u rfl

/-- Moved tokens are read as the moved expression. The cases are those of the reader. -/
theorem expr_moved (ts : List Token) :
    Moved f (ReadsMoved f (Expr.relocate f)) (expr ts) (expr (moved f ts)) := by
  induction ts using expr_induction with
  | number t ts kind =>
    have kind' : (t.relocate f).kind = .number := kind
    rw [moved_cons, expr_number ts kind, expr_number (moved f ts) kind']
    exact .ok ⟨rfl, rfl⟩
  | string t ts kind =>
    have kind' : (t.relocate f).kind = .string := kind
    rw [moved_cons, expr_string ts kind, expr_string (moved f ts) kind']
    refine (stringText_moved ts).bind_parsed fun text rest _ _ => ?_
    exact .ok ⟨rfl, rfl⟩
  | bool t ts value kind truth =>
    have kind' : (t.relocate f).kind = .identifier := kind
    rw [moved_cons, expr_bool ts kind truth, expr_bool (moved f ts) kind' truth]
    exact .ok ⟨rfl, rfl⟩
  | var t next ts name kind =>
    have kind' : (next.relocate f).kind = .line ∨ (next.relocate f).kind = .parenClose := kind
    rw [moved_cons, moved_cons, expr_var ts name kind,
      expr_var (moved f ts) (isName_relocate name) kind']
    exact .ok ⟨rfl, rfl⟩
  | call t next ts name kind =>
    have kind' : (next.relocate f).kind = .parenOpen := kind
    rw [moved_cons, moved_cons, expr_call ts name kind,
      expr_call (moved f ts) (isName_relocate name) kind']
    refine (consume_moved [.parenClose] ts).bind_consumed fun rest _ _ => ?_
    exact .ok ⟨rfl, rfl⟩
  | binary t next ts name kind ih =>
    have kind' : (next.relocate f).kind = .space := kind
    rw [moved_cons, moved_cons, expr_binary ts name kind,
      expr_binary (moved f ts) (isName_relocate name) kind']
    refine (expect_moved .symbol ts).bind_parsed fun symbol rest shorter _ => ?_
    refine (consume_moved [.space] rest).bind_consumed fun rest' length_le _ => ?_
    have hlt : rest'.length < ts.length := by
      simp only [List.length_cons, List.length_nil] at length_le
      omega
    refine (ih rest' hlt).bind_parsed fun value rest _ _ => ?_
    have hvalue := binary_relocate (f := f) (nameOf t) symbol.value value
    exact .ok ⟨hvalue.symm, rfl⟩
  | bare t ts name kinds =>
    rw [moved_cons, expr_bare name kinds,
      expr_bare (isName_relocate name) (head?_moved (P := (· ∉ _)) kinds)]
    exact refuse_moved _ _ ts
  | refused ts kinds =>
    rw [expr_refuse kinds, expr_refuse (head?_moved (P := (· ∉ _)) kinds)]
    exact refuse_moved _ _ ts

/-! ## Statements and blocks -/

theorem braceOrTab_moved (ts : List Token) :
    Moved f (ReadsMoved f id) (braceOrTab ts) (braceOrTab (moved f ts)) := by
  rcases ts with _ | ⟨⟨kind, value, pos⟩, ts⟩
  · exact .error _
  · cases kind
    case braceClose => exact .ok ⟨rfl, rfl⟩
    case indent => exact .ok ⟨rfl, rfl⟩
    all_goals exact .error _

theorem dropWhile_moved (p : TokenKind → Bool) (ts : List Token) :
    (moved f ts).dropWhile (fun t => p t.kind) = moved f (ts.dropWhile fun t => p t.kind) :=
  List.dropWhile_map ..

theorem lineStart_moved (depth : Nat) (ts : List Token) :
    Moved f (ReadsMoved f id) (lineStart depth ts) (lineStart depth (moved f ts)) := by
  have hdrop := dropWhile_moved (f := f) (· = .line) ts
  have hmargin := consume_moved (f := f) (List.replicate depth .indent)
    (ts.dropWhile (·.kind = .line))
  rw [← hdrop] at hmargin
  refine hmargin.bind_consumed fun rest _ _ => ?_
  refine (braceOrTab_moved rest).bind_parsed fun more rest _ _ => ?_
  exact .ok ⟨rfl, rfl⟩

/-- A statement is read as it is from moved tokens, if this holds of the blocks inside it. -/
theorem stmt_moved (depth : Nat) (ts : List Token)
    (blocks : ∀ us : List Token, us.length < ts.length →
      Moved f (ReadsMoved f (Stmt.relocateAll f)) (block (depth + 1) us)
        (block (depth + 1) (moved f us))) :
    Moved f (ReadsMoved f (Stmt.relocate f)) (stmt depth ts) (stmt depth (moved f ts)) := by
  induction ts using stmt_cases with
  | branch word ts kind value =>
    have kind' : (word.relocate f).kind = .identifier := kind
    rw [moved_cons, stmt_if ts kind value, stmt_if (moved f ts) kind' value]
    refine (consume_moved _ ts).bind_consumed fun rest hrest _ => ?_
    refine (expr_moved rest).bind_parsed fun condition rest' hrest' _ => ?_
    refine (consume_moved _ rest').bind_consumed fun rest'' hrest'' _ => ?_
    have hlt : rest''.length < (word :: ts).length := by
      simp only [List.length_cons] at hrest hrest'' ⊢
      omega
    refine (blocks rest'' hlt).bind_parsed fun body rest _ _ => ?_
    exact .ok ⟨rfl, rfl⟩
  | word word build ts h =>
    have h' : IsWordStmt (word.relocate f) build := h
    rw [moved_cons, stmt_word ts h, stmt_word (moved f ts) h']
    refine (consume_moved _ ts).bind_consumed fun rest _ _ => ?_
    refine (expr_moved rest).bind_parsed fun value rest _ _ => ?_
    obtain ⟨-, ⟨-, rfl⟩ | ⟨-, rfl⟩⟩ := h
    · exact .ok ⟨rfl, rfl⟩
    · exact .ok ⟨rfl, rfl⟩
  | eval word ts kind value =>
    have kind' : (word.relocate f).kind = .identifier := kind
    rw [moved_cons, stmt_eval ts kind value, stmt_eval (moved f ts) kind' value]
    refine (expr_moved (word :: ts)).bind_parsed fun value rest _ _ => ?_
    exact .ok ⟨rfl, rfl⟩
  | refused ts kind =>
    rw [stmt_refuse kind, stmt_refuse (head?_moved (P := (· ≠ _)) kind)]
    exact refuse_moved _ _ ts

theorem block_moved (depth : Nat) (ts : List Token) :
    Moved f (ReadsMoved f (Stmt.relocateAll f)) (block depth ts) (block depth (moved f ts)) := by
  induction hn : ts.length using Nat.strongRecOn generalizing depth ts with
  | ind n ih =>
    subst hn
    rw [block, block]
    refine (lineStart_moved depth ts).bind_parsed fun more rest hrest _ => ?_
    cases more with
    | false => exact .ok ⟨rfl, rfl⟩
    | true =>
      have hstmt := stmt_moved depth rest fun us hus =>
        ih us.length (hus.trans hrest) (depth + 1) us rfl
      refine hstmt.bind_parsed fun first rest' hrest' _ => ?_
      refine (consume_moved [.line] rest').bind_consumed fun rest'' hrest'' _ => ?_
      have hlt : rest''.length < ts.length := by
        simp only [List.length_cons, List.length_nil] at hrest''
        omega
      refine (ih rest''.length hlt depth rest'' rfl).bind_parsed fun stmts rest _ _ => ?_
      exact .ok ⟨rfl, rfl⟩

/-! ## Functions -/

theorem function_moved (name : Ident) (ts : List Token) :
    Moved f (ReadsMoved f (Function.relocate f)) (function name ts)
      (function (name.relocate f) (moved f ts)) := by
  refine (consume_moved _ ts).bind_consumed fun rest _ _ => ?_
  refine (block_moved 0 rest).bind_parsed fun body rest _ _ => ?_
  refine (consume_moved [.line] rest).bind_consumed fun rest _ _ => ?_
  exact .ok ⟨rfl, rfl⟩

theorem functions_moved (ts : List Token) :
    Moved f (fun fs fs' => fs' = fs.map (Function.relocate f)) (functions ts)
      (functions (moved f ts)) := by
  induction ts using functions_induction with
  | nil =>
    rw [moved, List.map_nil, functions]
    exact .ok rfl
  | comment mark ts kind ih =>
    have kind' : (mark.relocate f).kind = .comment := kind
    rw [moved_cons, functions_comment ts kind, functions_comment (moved f ts) kind']
    exact (comment_moved ts).bind_parsed fun _ rest hrest _ => ih rest hrest
  | function name ts kind ih =>
    have kind' : (name.relocate f).kind = .identifier := kind
    rw [moved_cons, functions_function ts kind, functions_function (moved f ts) kind']
    refine (function_moved (nameOf name) ts).bind_parsed fun first rest hrest _ => ?_
    refine (ih rest hrest).bind fun fs fs' hfs => ?_
    exact .ok (by rw [hfs, List.map_cons])
  | line line ts kind ih =>
    have kind' : (line.relocate f).kind = .line := kind
    rw [moved_cons, functions_line ts kind, functions_line (moved f ts) kind']
    exact ih
  | refused t ts kinds =>
    have kinds' : (t.relocate f).kind ∉ [.comment, .identifier, .line] := kinds
    rw [moved_cons, functions_refuse ts kinds, functions_refuse (moved f ts) kinds']
    exact .error _

/-- From moved tokens the same functions are read, moved, and the same error arises. -/
theorem functions_map_relocate (f : Position → Position) (ts : List Token) :
    functions (ts.map (Token.relocate f)) =
      ((functions ts).map (List.map (Function.relocate f))).mapError (ParseError.relocate f) :=
  (functions_moved ts).eq_map

/-! ## Single expressions -/

theorem afterLine_moved (ts : List Token) : afterLine (moved f ts) = moved f (afterLine ts) := by
  cases ts with
  | nil => rfl
  | cons t ts =>
    rw [moved_cons, afterLine, afterLine, Token.kind_relocate]
    split <;> rfl

theorem parse_expr_moved (ts : List Token) :
    Moved f (fun e e' => e' = e.relocate f) (Expr.parse ts) (Expr.parse (moved f ts)) := by
  rw [parse_expr_eq, parse_expr_eq]
  refine (expr_moved ts).bind_parsed fun e rest _ _ => ?_
  rw [afterLine_moved]
  cases afterLine rest with
  | nil => exact .ok rfl
  | cons t ts => exact .error _

end Parse

/-! ## Code -/

section

open Parse

variable (f : Position → Position)

/-- Positions show in the refusal of an operation and nowhere else in code. -/
theorem Expr.code_relocate (e : Expr) :
    (e.relocate f).code = e.code.mapError (Unsupported.relocate f) := by
  induction e with
  | assign target value pos ih =>
    rw [Expr.relocate, Expr.code, Expr.code, ih, mapError_bind]
    rfl
  | _ => rfl

mutual

theorem Stmt.code_relocate (depth : Nat) : (s : Stmt) →
    (s.relocate f).code depth = (s.code depth).mapError (Unsupported.relocate f)
  | .branch condition body => by
    simp only [Stmt.relocate, Stmt.code, Expr.code_relocate,
      Stmt.codeAll_relocateAll (depth + 1) body, mapError_bind]
    rfl
  | .print value => by
    rw [Stmt.relocate, Stmt.code, Stmt.code, Expr.code_relocate, mapError_bind]
    rfl
  | .ret value => by
    rw [Stmt.relocate, Stmt.code, Stmt.code, Expr.code_relocate, mapError_bind]
    rfl
  | .eval value => by
    rw [Stmt.relocate, Stmt.code, Stmt.code, Expr.code_relocate, mapError_bind]
    rfl

theorem Stmt.codeAll_relocateAll (depth : Nat) : (stmts : List Stmt) →
    Stmt.codeAll depth (Stmt.relocateAll f stmts) =
      (Stmt.codeAll depth stmts).mapError (Unsupported.relocate f)
  | [] => rfl
  | stmt :: rest => by
    simp only [Stmt.relocateAll, Stmt.codeAll, Stmt.code_relocate depth stmt,
      Stmt.codeAll_relocateAll depth rest, mapError_bind]
    rfl

end

theorem Function.code_relocate (function : Function) :
    (function.relocate f).code = function.code.mapError (Unsupported.relocate f) := by
  rw [Function.relocate, Function.code, Function.code, Stmt.codeAll_relocateAll, mapError_bind]
  rfl

theorem mapM_code_relocate (functions : List Function) :
    (functions.map (Function.relocate f)).mapM Function.code =
      (functions.mapM Function.code).mapError (Unsupported.relocate f) := by
  induction functions with
  | nil => rfl
  | cons function functions ih =>
    simp only [List.map_cons, List.mapM_cons, Function.code_relocate, ih, mapError_bind]
    rfl

theorem Program.hasMain_relocate (p : Program) : (p.relocate f).hasMain = p.hasMain := by
  rw [Program.relocate, Program.hasMain, Program.hasMain, List.any_map]
  rfl

theorem Program.code_relocate (p : Program) :
    (p.relocate f).code = p.code.mapError (Unsupported.relocate f) := by
  rw [Program.code, Program.hasMain_relocate, Program.relocate, mapM_code_relocate, Program.code,
    mapError_bind]
  rfl

end

/-- Reading and moving can change places. -/
theorem Program.parse_map_relocate (f : Position → Position) (ts : List Token) :
    Program.parse (ts.map (Token.relocate f)) =
      ((Program.parse ts).map (Program.relocate f)).mapError (ParseError.relocate f) := by
  rw [Program.parse, Parse.functions_map_relocate, Program.parse]
  cases Parse.functions ts <;> rfl

/-- **Whatever is done to positions is done to them alone.** From tokens with their positions
changed by any function, the same program and the same expression are read, with their positions
changed by that function, or the same error arises, with its position changed. A program with its
positions changed has the same code, or is refused for the same operation at the changed
position. -/
theorem outcome_relocate (f : Position → Position) :
    (∀ ts, Program.parse (ts.map (Token.relocate f)) =
        ((Program.parse ts).map (Program.relocate f)).mapError (ParseError.relocate f)) ∧
      (∀ ts, Expr.parse (ts.map (Token.relocate f)) =
        ((Expr.parse ts).map (Expr.relocate f)).mapError (ParseError.relocate f)) ∧
      ∀ p : Program, (p.relocate f).code = p.code.mapError (Unsupported.relocate f) :=
  ⟨Program.parse_map_relocate f, fun ts => (Parse.parse_expr_moved ts).eq_map,
    Program.code_relocate f⟩

end Tabscript
