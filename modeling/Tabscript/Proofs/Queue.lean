import Mathlib.Data.List.Infix
import Tabscript.Proofs.Reading

/-!
# Reading from a queue

The readers of `Tabscript.Tree.Parser` hand on the tokens that are left, and what a reader does not
take it never had. The readers here share one queue instead: they take tokens from its front, put a
token back where they have looked too far, and go round their loops until a token ends them. Nothing
in them says that a loop ends, that a token is put back where it came from, or that the last row of
a match is never reached.

* `Queue` is the queue. What is left in it is always a suffix of the tokens it was made from.
* `Queue.Reader` are the readers of a queue. Besides a syntax error they may stop for reasons that
  have nothing to do with the tokens, and for want of fuel: a loop uses it up by its rounds, and a
  reader that calls itself by its calls.
* `Queue.expr`, `Queue.stmt`, `Queue.block` and `Queue.functions` read what their namesakes in
  `Parse` read, and `Queue.line` and `Queue.item` are one round of the last two.
-/

namespace Tabscript

open Grammar

/-- The tokens `input` as a queue, from the front of which tokens are taken. -/
structure Queue (input : List Token) where
  /-- The tokens that were taken, the last one first. -/
  taken : List Token
  left : List Token
  /-- No token is lost, doubled or out of order. -/
  covers : taken.reverse ++ left = input

namespace Queue

variable {input : List Token} {α β : Type}

/-- The queue from which no token was taken. -/
def ofTokens (input : List Token) : Queue input := ⟨[], input, rfl⟩

/-- What is left in a queue is the end of the input. -/
theorem left_suffix (q : Queue input) : q.left <:+ input := ⟨q.taken.reverse, q.covers⟩

/-- What is left in a queue says what was taken from it. -/
theorem eq_of_left_eq {q q' : Queue input} (h : q.left = q'.left) : q = q' := by
  obtain ⟨taken, left, covers⟩ := q
  obtain ⟨taken', left', covers'⟩ := q'
  obtain rfl : left = left' := h
  obtain rfl : taken = taken' :=
    List.reverse_injective (List.append_cancel_right (covers.trans covers'.symm))
  rfl

/-- Of two queues the shorter one is the longer one with some tokens dropped from its front. -/
theorem exists_eq_drop {q q' : Queue input} (h : q'.left.length < q.left.length) :
    ∃ n, 1 ≤ n ∧ n ≤ q.left.length ∧ q'.left = q.left.drop n := by
  have hsuffix : q'.left <:+ q.left :=
    List.suffix_of_suffix_length_le q'.left_suffix q.left_suffix h.le
  exact ⟨q.left.length - q'.left.length, Nat.sub_pos_of_lt h, Nat.sub_le _ _,
    List.suffix_iff_eq_drop.1 hsuffix⟩

/-- The queue with its first token taken. -/
def next (q : Queue input) {t : Token} {ts : List Token} (h : q.left = t :: ts) : Queue input where
  taken := t :: q.taken
  left := ts
  covers := by
    rw [List.reverse_cons, List.append_assoc, List.singleton_append, ← h, q.covers]

@[simp] theorem left_next {q : Queue input} {t : Token} {ts : List Token} (h : q.left = t :: ts) :
    (q.next h).left = ts := rfl

/-! ## Taking tokens and putting them back -/

/-- Why a reader stops before it is done. -/
inductive Stop where
  /-- The tokens cannot be read. -/
  | refused (e : ParseError)
  /-- The token that is put back is not the one that was taken last. -/
  | misplaced (t : Token)
  /-- The token has a kind that no row of the match is about. -/
  | unreachable (t : Token)
  /-- There were more rounds or calls than the fuel lasted for. -/
  | outOfFuel

/-- The readers of a queue. A reader gives a value and the queue it leaves, or it stops. -/
abbrev Reader (input : List Token) := StateT (Queue input) (Except Stop)

theorem bind_of_eq {m : Reader input α} {f : α → Reader input β} {q q' : Queue input} {a : α}
    (h : m q = .ok (a, q')) : (m >>= f) q = f a q' := by
  change (m q >>= fun p => f p.1 p.2) = f a q'
  rw [h]
  rfl

/-- Takes the first token. If there is none, a token of the kinds `expected` is missing. -/
def pop (expected : List TokenKind) : Reader input Token := fun q =>
  match h : q.left with
  | [] => throw (.refused (.endOfInput expected))
  | t :: _ => pure (t, q.next h)

theorem pop_eq (expected : List TokenKind) {q : Queue input} {t : Token} {ts : List Token}
    (h : q.left = t :: ts) : pop expected q = .ok (t, q.next h) := by
  obtain ⟨taken, left, covers⟩ := q
  cases h
  rfl

/-- Puts a token back to the front. -/
def putBack (t : Token) : Reader input Unit
  | ⟨[], _, _⟩ => throw (.misplaced t)
  | ⟨last :: taken, left, covers⟩ =>
    -- with any other token than the last one, the queue would be no suffix of the input
    if last = t then pure ((), ⟨taken, last :: left, by simpa using covers⟩)
    else throw (.misplaced t)

/-- Putting back the token that was just taken restores the queue. -/
theorem putBack_next {q : Queue input} {t : Token} {ts : List Token} (h : q.left = t :: ts) :
    putBack t (q.next h) = .ok ((), q) := by
  obtain ⟨taken, left, covers⟩ := q
  cases h
  exact if_pos rfl

/-- Takes the first token, which has to be of one of the given kinds. -/
def expect (kinds : List TokenKind) : Reader input Token := do
  let t ← pop kinds
  if t.kind ∈ kinds then return t else throw (.refused (.unexpected t kinds))

theorem expect_eq {kinds : List TokenKind} {q : Queue input} {t : Token} {ts : List Token}
    (h : q.left = t :: ts) (kind : t.kind ∈ kinds) :
    expect kinds q = .ok (t, q.next h) := by
  rw [expect, bind_of_eq (pop_eq kinds h), if_pos kind]
  rfl

/-- Takes tokens of the given kinds, one after the other. -/
def consume : List TokenKind → Reader input Unit
  | [] => return ()
  | kind :: kinds => do
    let _ ← expect [kind]
    consume kinds

/-- Takes the first token if it is of the given kind, and says whether it is. -/
def take (kind : TokenKind) : Reader input Bool := do
  let q ← get
  if q.left.head?.any (·.kind = kind) then
    let _ ← pop [kind]
    return true
  else
    return false

theorem take_of_eq {kind : TokenKind} {q : Queue input} {t : Token} {ts : List Token}
    (h : q.left = t :: ts) (ht : t.kind = kind) : take kind q = .ok (true, q.next h) := by
  have hhead : q.left.head?.any (·.kind = kind) = true := by simp [h, ht]
  rw [take, bind_of_eq (m := get) (a := q) rfl, if_pos hhead, bind_of_eq (pop_eq _ h)]
  rfl

/-- A token of another kind stays where it is. -/
theorem take_of_ne {kind : TokenKind} {q : Queue input} (h : ∀ t ∈ q.left.head?, t.kind ≠ kind) :
    take kind q = .ok (false, q) := by
  have hhead : ¬ q.left.head?.any (·.kind = kind) = true := by
    cases hts : q.left.head? <;> simp_all
  rw [take, bind_of_eq (m := get) (a := q) rfl, if_neg hhead]
  rfl

/-! ## Reading -/

/-- Takes the tokens up to and including the next one of the given kind. Those before it are the
result, after the given ones. -/
def upTo (kind : TokenKind) : Nat → List Token → Reader input (List Token)
  | 0, _ => throw .outOfFuel
  | fuel + 1, inner => do
    let t ← pop [kind]
    if t.kind = kind then return inner else upTo kind fuel (inner ++ [t])

/-- Takes the rest of a comment, up to and including the end of its line. -/
def comment (fuel : Nat) : Reader input Unit := do
  let _ ← upTo .line fuel []

/-- Takes the rest of a string, up to and including its closing quote. -/
def stringText (fuel : Nat) : Reader input String := do
  let inner ← upTo .string fuel []
  return String.join (inner.map Token.value)

/-- Reads the rest of an expression that starts with the given word. What stands to the right of a
symbol is read by `operand`. -/
def wordExpr (operand : Reader input Expr) (word : Token) : Reader input Expr := do
  match Keyword.truth? word.value with
  | some value => return .bool value word.pos
  | none =>
    let next ← expect [.line, .parenClose, .parenOpen, .space]
    match next.kind with
    | .line | .parenClose =>
      -- the token belongs to what the variable stands in
      putBack next
      return .var (nameOf word) word.pos
    | .parenOpen =>
      consume [.parenClose]
      return .call (nameOf word) word.pos
    | .space =>
      let symbol ← expect [.symbol]
      consume [.space]
      return .binary (nameOf word) symbol.value (← operand)
    | _ => throw (.unreachable next)

/-- Reads an expression. -/
def expr : Nat → Reader input Expr
  | 0 => throw .outOfFuel
  | fuel + 1 => do
    let t ← expect [.identifier, .number, .string]
    match t.kind with
    | .identifier => wordExpr (expr fuel) t
    | .number => return .number t.value t.pos
    | .string => return .string (← stringText (fuel + 1)) t.pos
    | _ => throw (.unreachable t)

/-- Takes empty lines for as long as there are any. -/
def emptyLines : Nat → Reader input Unit
  | 0 => throw .outOfFuel
  | fuel + 1 => do
    if ← take .line then emptyLines fuel

/-- Reads the start of a line in a block of the given depth: any empty lines before it, its tabs,
and a closing brace or one more tab. Says whether a statement follows. -/
def lineStart (fuel depth : Nat) : Reader input Bool := do
  emptyLines fuel
  consume (List.replicate depth .indent)
  return (← expect [.braceClose, .indent]).kind ≠ .braceClose

/-- Reads a line of a block of the given depth: a statement, which is read by `stmt`, or the closing
brace. -/
def line (fuel depth : Nat) (stmt : Reader input Stmt) : Reader input (Option Stmt) := do
  if ← lineStart fuel depth then
    let first ← stmt
    consume [.line]
    return some first
  else
    return none

mutual

/-- Reads a statement of a block of the given depth, without the tabs before it and without the
end of its line. -/
def stmt : Nat → Nat → Reader input Stmt
  | 0, _ => throw .outOfFuel
  | fuel + 1, depth => do
    let word ← expect [.identifier]
    match Keyword.ofWord? word.value with
    | some .ifWord =>
      consume [.space, .parenOpen]
      let condition ← expr (fuel + 1)
      consume [.parenClose, .space, .braceOpen, .line]
      return .branch condition (← block fuel (depth + 1) [])
    | some .printWord =>
      consume [.space]
      return .print (← expr (fuel + 1))
    | some .returnWord =>
      consume [.space]
      return .ret (← expr (fuel + 1))
    | _ =>
      -- the word is the first one of an expression
      putBack word
      return .eval (← expr (fuel + 1))

/-- Reads the lines of a block of the given depth up to its closing brace. Their statements are the
result, after the given ones. -/
def block : Nat → Nat → List Stmt → Reader input (List Stmt)
  | 0, _, _ => throw .outOfFuel
  | fuel + 1, depth, stmts => do
    match ← line (fuel + 1) depth (stmt fuel depth) with
    | some first => block fuel depth (stmts ++ [first])
    | none => return stmts

end

/-- Reads what follows the name of a function, up to and including the end of the line of its
closing brace. -/
def function (fuel : Nat) (name : Ident) : Reader input Function := do
  consume [.parenOpen, .parenClose, .space, .braceOpen, .line]
  let body ← block fuel 0 []
  consume [.line]
  return ⟨name, body⟩

/-- Reads a function, a comment or an empty line. -/
def item (fuel : Nat) : Reader input (Option Function) := do
  let t ← expect [.comment, .identifier, .line]
  match t.kind with
  | .comment =>
    comment fuel
    return none
  | .identifier => return some (← function fuel (nameOf t))
  | .line => return none
  | _ => throw (.unreachable t)

/-- Reads items up to the end of the tokens. Their functions are the result, after the given
ones. -/
def functions : Nat → List Function → Reader input (List Function)
  | 0, _ => throw .outOfFuel
  | fuel + 1, before => do
    if (← get).left.isEmpty then
      return before
    else
      functions fuel (before ++ (← item (fuel + 1)).toList)

/-- Reads a whole program. -/
def program (fuel : Nat) : Reader input Program := do
  return ⟨← functions fuel []⟩

end Queue

end Tabscript
