import Tabscript.Tree.Basic
import Tabscript.Tree.Error
import Tabscript.Tree.Keyword

/-!
# From tokens to trees

A recursive descent over the list of tokens, with one token of look-ahead. Each reader returns
what it read together with the tokens that are left and the fact that these are fewer, which is
why the readers that call themselves end.

* `Parse.consume` reads tokens of given kinds, one after the other.
* `Parse.upTo` reads everything before the next token of a given kind, and that token.
* `Parse.expr`, `Parse.stmt` and `Parse.block` read expressions, statements, and the statements up
  to a closing brace. The depth of a block is the number of conditional statements around it: its
  closing brace stands behind exactly that many tabs, and its statements behind one more.
* `Program.parse` reads a whole program and `Expr.parse` a single expression.
-/

namespace Tabscript

namespace Parse

/-- What was read from the tokens `ts`, and the fewer tokens that are left. -/
structure Parsed (α : Type) (ts : List Token) where
  value : α
  rest : List Token
  /-- At least one token was read. -/
  shorter : rest.length < ts.length

/-- The tokens that are left of `ts` after tokens of the kinds `kinds` were read. -/
structure Consumed (kinds : List TokenKind) (ts : List Token) where
  rest : List Token
  /-- One token was read for each kind. -/
  length_le : rest.length + kinds.length ≤ ts.length

theorem Consumed.le {kinds : List TokenKind} {ts : List Token} (c : Consumed kinds ts) :
    c.rest.length ≤ ts.length := Nat.le_of_add_right_le c.length_le

/-- The error at the first of the tokens, where only the kinds `expected` can stand. -/
def refuse {α : Type} (expected : List TokenKind) : List Token → Except ParseError α
  | [] => .error (.endOfInput expected)
  | t :: _ => .error (.unexpected t expected)

/-! ## Tokens -/

/-- Reads one token of the given kind. -/
def expect (kind : TokenKind) : (ts : List Token) → Except ParseError (Parsed Token ts)
  | [] => refuse [kind] []
  | t :: ts =>
    if t.kind = kind then .ok ⟨t, ts, Nat.lt_succ_self _⟩ else refuse [kind] (t :: ts)

/-- Reads tokens of the given kinds, one after the other. -/
def consume : (kinds : List TokenKind) → (ts : List Token) →
    Except ParseError (Consumed kinds ts)
  | [], ts => .ok ⟨ts, Nat.le_refl _⟩
  | kind :: kinds, ts => do
    let first ← expect kind ts
    let last ← consume kinds first.rest
    .ok ⟨last.rest, Nat.lt_of_le_of_lt last.length_le first.shorter⟩

/-- What follows a token that was found is shorter than all of them. -/
theorem length_lt_of_dropWhile_eq_cons {p : Token → Bool} {ts rest : List Token} {t : Token}
    (h : ts.dropWhile p = t :: rest) : rest.length < ts.length := by
  have : (t :: rest).length ≤ ts.length := h ▸ (List.dropWhile_sublist p).length_le
  exact this

/-- Reads the tokens before the next one of the given kind, and that one. -/
def upTo (kind : TokenKind) (ts : List Token) : Except ParseError (Parsed (List Token) ts) :=
  match h : ts.dropWhile (·.kind ≠ kind) with
  | [] => .error (.endOfInput [kind])
  | _ :: rest => .ok ⟨ts.takeWhile (·.kind ≠ kind), rest, length_lt_of_dropWhile_eq_cons h⟩

/-- Reads the rest of a comment, up to and including the end of its line. -/
def comment (ts : List Token) : Except ParseError (Parsed Unit ts) := do
  let skipped ← upTo .line ts
  .ok ⟨(), skipped.rest, skipped.shorter⟩

/-- Reads the rest of a string, up to and including its closing quote. The text is what the
tokens before the quote cover. -/
def stringText (ts : List Token) : Except ParseError (Parsed String ts) := do
  let inner ← upTo .string ts
  .ok ⟨String.join (inner.value.map Token.value), inner.rest, inner.shorter⟩

/-! ## Expressions -/

/-- Reads an expression. A word that stands for no truth value needs a look at the token after
it: a line break or a closing parenthesis leaves it a variable and is not read. -/
def expr : (ts : List Token) → Except ParseError (Parsed Expr ts)
  | ⟨.number, text, pos⟩ :: ts => .ok ⟨.number text pos, ts, Nat.lt_succ_self _⟩
  | ⟨.string, _, pos⟩ :: ts => do
    let text ← stringText ts
    .ok ⟨.string text.value pos, text.rest, Nat.lt_succ_of_lt text.shorter⟩
  | ⟨.identifier, word, pos⟩ :: ts =>
    match Keyword.truth? word with
    | some value => .ok ⟨.bool value pos, ts, Nat.lt_succ_self _⟩
    | none =>
      match ts with
      | next@⟨.line, _, _⟩ :: ts | next@⟨.parenClose, _, _⟩ :: ts =>
        .ok ⟨.var ⟨word, pos⟩ pos, next :: ts, Nat.lt_succ_self _⟩
      | ⟨.parenOpen, _, _⟩ :: ts => do
        let close ← consume [.parenClose] ts
        .ok ⟨.call ⟨word, pos⟩ pos, close.rest,
          Nat.lt_succ_of_lt (Nat.lt_succ_of_le close.le)⟩
      | ⟨.space, _, _⟩ :: ts => do
        let symbol ← expect .symbol ts
        let space ← consume [.space] symbol.rest
        have space_lt : space.rest.length < ts.length + 2 :=
          Nat.lt_of_le_of_lt space.le (Nat.lt_add_right 2 symbol.shorter)
        let value ← expr space.rest
        have value_lt : value.rest.length < ts.length + 2 := Nat.lt_trans value.shorter space_lt
        if symbol.value.value = "=" then
          .ok ⟨.assign ⟨word, pos⟩ value.value pos, value.rest, value_lt⟩
        else
          .ok ⟨.operation symbol.value.value ⟨word, pos⟩ value.value pos, value.rest, value_lt⟩
      | ts => refuse [.line, .parenClose, .parenOpen, .space] ts
  | ts => refuse [.identifier, .number, .string] ts
termination_by ts => ts.length
decreasing_by exact space_lt

/-! ## Statements -/

/-- Reads a closing brace, or the tab before a statement. Says whether a statement follows. -/
def braceOrTab : (ts : List Token) → Except ParseError (Parsed Bool ts)
  | ⟨.braceClose, _, _⟩ :: ts => .ok ⟨false, ts, Nat.lt_succ_self _⟩
  | ⟨.indent, _, _⟩ :: ts => .ok ⟨true, ts, Nat.lt_succ_self _⟩
  | ts => refuse [.braceClose, .indent] ts

/-- Reads the start of a line in a block of the given depth: any empty lines before it, its tabs,
and a closing brace or one more tab. Says whether a statement follows. -/
def lineStart (depth : Nat) (ts : List Token) : Except ParseError (Parsed Bool ts) := do
  let margin ← consume (List.replicate depth .indent) (ts.dropWhile (·.kind = .line))
  let start ← braceOrTab margin.rest
  .ok ⟨start.value, start.rest, Nat.lt_of_lt_of_le start.shorter
    (Nat.le_trans margin.le (List.dropWhile_sublist _).length_le)⟩

mutual

/-- Reads a statement of a block of the given depth, without the tabs before it and without the
end of its line. -/
def stmt (depth : Nat) (ts : List Token) : Except ParseError (Parsed Stmt ts) := do
  let word ← expect .identifier ts
  match Keyword.ofWord? word.value.value with
  | some .ifWord =>
    let header ← consume [.space, .parenOpen] word.rest
    let condition ← expr header.rest
    let opened ← consume [.parenClose, .space, .braceOpen, .line] condition.rest
    have opened_lt : opened.rest.length < ts.length := Nat.lt_of_le_of_lt opened.le
      (Nat.lt_trans condition.shorter (Nat.lt_of_le_of_lt header.le word.shorter))
    let body ← block (depth + 1) opened.rest
    .ok ⟨.branch condition.value body.value, body.rest, Nat.lt_trans body.shorter opened_lt⟩
  | some .printWord =>
    let space ← consume [.space] word.rest
    let value ← expr space.rest
    .ok ⟨.print value.value, value.rest,
      Nat.lt_trans value.shorter (Nat.lt_of_le_of_lt space.le word.shorter)⟩
  | some .returnWord =>
    let space ← consume [.space] word.rest
    let value ← expr space.rest
    .ok ⟨.ret value.value, value.rest,
      Nat.lt_trans value.shorter (Nat.lt_of_le_of_lt space.le word.shorter)⟩
  | _ =>
    let value ← expr ts
    .ok ⟨.eval value.value, value.rest, value.shorter⟩
termination_by ts.length
decreasing_by exact opened_lt

/-- Reads the statements of a block of the given depth and its closing brace. Empty lines may
stand before every statement and before the brace. -/
def block (depth : Nat) (ts : List Token) : Except ParseError (Parsed (List Stmt) ts) := do
  let start ← lineStart depth ts
  if start.value then
    let first ← stmt depth start.rest
    let line ← consume [.line] first.rest
    have line_lt : line.rest.length < ts.length :=
      Nat.lt_of_le_of_lt line.le (Nat.lt_trans first.shorter start.shorter)
    let more ← block depth line.rest
    .ok ⟨first.value :: more.value, more.rest, Nat.lt_trans more.shorter line_lt⟩
  else
    .ok ⟨[], start.rest, start.shorter⟩
termination_by ts.length
decreasing_by
  · exact start.shorter
  · exact line_lt

end

/-! ## Functions -/

/-- Reads what follows the name of a function, up to and including the end of the line of its
closing brace. -/
def function (name : Ident) (ts : List Token) : Except ParseError (Parsed Function ts) := do
  let header ← consume [.parenOpen, .parenClose, .space, .braceOpen, .line] ts
  let body ← block 0 header.rest
  let line ← consume [.line] body.rest
  .ok ⟨⟨name, body.value⟩, line.rest,
    Nat.lt_of_le_of_lt line.le (Nat.lt_of_lt_of_le body.shorter header.le)⟩

/-- Reads functions, comments and empty lines up to the end of the input. -/
def functions : List Token → Except ParseError (List Function)
  | [] => .ok []
  | ⟨.comment, _, _⟩ :: ts => do
    let skipped ← comment ts
    functions skipped.rest
  | ⟨.identifier, name, pos⟩ :: ts => do
    let first ← function ⟨name, pos⟩ ts
    let more ← functions first.rest
    .ok (first.value :: more)
  | ⟨.line, _, _⟩ :: ts => functions ts
  | ts => refuse [.comment, .identifier, .line] ts
termination_by ts => ts.length
decreasing_by
  · exact Nat.lt_succ_of_lt skipped.shorter
  · exact Nat.lt_succ_of_lt first.shorter
  · exact Nat.lt_succ_self _

end Parse

/-- Reads a whole program. -/
def Program.parse (ts : List Token) : Except ParseError Program := do
  let functions ← Parse.functions ts
  .ok ⟨functions⟩

/-- Reads a single expression, which one line break may follow. -/
def Expr.parse (ts : List Token) : Except ParseError Expr := do
  let read ← Parse.expr ts
  let rest := match read.rest with
    | ⟨.line, _, _⟩ :: rest => rest
    | rest => rest
  match rest with
  | [] => .ok read.value
  | t :: _ => .error (.unexpected t [])

end Tabscript
