import Tabscript.Token.Basic
import Tabscript.Tree.Basic

/-!
# The grammar

The grammar as a relation between lists of tokens and the trees they are read as. It is stated
production by production and without any order of reading, so it says what the readers of
`Tabscript.Tree.Parser` accept and not how.

* `IsExpr`, `IsStmt` and `IsBlock` relate tokens to expressions, statements and blocks. The depth
  of a statement and of a block is the number of conditional statements around it.
* `IsProgram` relates tokens to the functions of a program.
-/

namespace Tabscript.Grammar

/-- The tokens `ts` have the kinds `kinds`, one by one. -/
def HasKinds (ts : List Token) (kinds : List TokenKind) : Prop := ts.map Token.kind = kinds

/-- The token is an identifier that stands for no truth value. -/
def IsName (t : Token) : Prop := t.kind = .identifier ∧ t.value ∉ ["true", "false"]

/-- The name a token stands for. -/
def nameOf (t : Token) : Ident := ⟨t.value, t.pos⟩

/-- The tokens `ts` are the expression. -/
inductive IsExpr : List Token → Expr → Prop
  /-- A number is one token. -/
  | number {t : Token} (kind : t.kind = .number) : IsExpr [t] (.number t.value t.pos)
  /-- A string is what stands between two quotes. -/
  | string {opening closing : Token} {inner : List Token} (opens : opening.kind = .string)
      (inside : ∀ t ∈ inner, t.kind ≠ .string) (closes : closing.kind = .string) :
      IsExpr (opening :: (inner ++ [closing]))
        (.string (String.join (inner.map Token.value)) opening.pos)
  /-- A truth value is one word. -/
  | bool {t : Token} {value : Bool} (kind : t.kind = .identifier)
      (word : t.value = if value then "true" else "false") : IsExpr [t] (.bool value t.pos)
  /-- A variable is a name. -/
  | var {t : Token} (name : IsName t) : IsExpr [t] (.var (nameOf t) t.pos)
  /-- A call is a name and a pair of parentheses. -/
  | call {t : Token} {parens : List Token} (name : IsName t)
      (kinds : HasKinds parens [.parenOpen, .parenClose]) :
      IsExpr (t :: parens) (.call (nameOf t) t.pos)
  /-- An assignment is a name, an equals sign between spaces, and an expression. -/
  | assign {t before symbol after : Token} {ts : List Token} {value : Expr} (name : IsName t)
      (kinds : HasKinds [before, symbol, after] [.space, .symbol, .space])
      (equals : symbol.value = "=") (rest : IsExpr ts value) :
      IsExpr (t :: before :: symbol :: after :: ts) (.assign (nameOf t) value t.pos)
  /-- An operation is a name, any other symbol between spaces, and an expression. -/
  | operation {t before symbol after : Token} {ts : List Token} {value : Expr} (name : IsName t)
      (kinds : HasKinds [before, symbol, after] [.space, .symbol, .space])
      (differs : symbol.value ≠ "=") (rest : IsExpr ts value) :
      IsExpr (t :: before :: symbol :: after :: ts)
        (.operation symbol.value (nameOf t) value t.pos)

mutual

/-- The tokens `ts` are the statement, in a block of the given depth. -/
inductive IsStmt : Nat → List Token → Stmt → Prop
  /-- A conditional statement is its condition in parentheses and a block one step deeper. -/
  | branch {depth : Nat} {word : Token} {before condition after body : List Token} {e : Expr}
      {stmts : List Stmt} (kind : word.kind = .identifier) (value : word.value = "if")
      (opens : HasKinds before [.space, .parenOpen]) (test : IsExpr condition e)
      (closes : HasKinds after [.parenClose, .space, .braceOpen, .line])
      (block : IsBlock (depth + 1) body stmts) :
      IsStmt depth (word :: (before ++ condition ++ after ++ body)) (.branch e stmts)
  /-- A printing statement is its word, a space and an expression. -/
  | print {depth : Nat} {word space : Token} {ts : List Token} {e : Expr}
      (kinds : HasKinds [word, space] [.identifier, .space]) (value : word.value = "print")
      (rest : IsExpr ts e) : IsStmt depth (word :: space :: ts) (.print e)
  /-- A returning statement is its word, a space and an expression. -/
  | ret {depth : Nat} {word space : Token} {ts : List Token} {e : Expr}
      (kinds : HasKinds [word, space] [.identifier, .space]) (value : word.value = "return")
      (rest : IsExpr ts e) : IsStmt depth (word :: space :: ts) (.ret e)
  /-- Any other statement is an expression that starts with a word of its own. -/
  | eval {depth : Nat} {word : Token} {ts : List Token} {e : Expr}
      (kind : word.kind = .identifier) (value : word.value ∉ ["if", "print", "return"])
      (rest : IsExpr (word :: ts) e) : IsStmt depth (word :: ts) (.eval e)

/-- The tokens `ts` are the statements of a block of the given depth and its closing brace. -/
inductive IsBlock : Nat → List Token → List Stmt → Prop
  /-- A closing brace stands behind one tab for each step of depth. Empty lines may precede it. -/
  | close {depth : Nat} {lines tabs : List Token} {brace : Token}
      (empty : ∀ t ∈ lines, t.kind = .line) (margin : HasKinds tabs (List.replicate depth .indent))
      (kind : brace.kind = .braceClose) : IsBlock depth (lines ++ tabs ++ [brace]) []
  /-- A statement stands one tab deeper, on a line of its own. Empty lines may precede it. -/
  | stmt {depth : Nat} {lines tabs ts more : List Token} {line : Token} {first : Stmt}
      {rest : List Stmt} (empty : ∀ t ∈ lines, t.kind = .line)
      (margin : HasKinds tabs (List.replicate (depth + 1) .indent)) (head : IsStmt depth ts first)
      (kind : line.kind = .line) (tail : IsBlock depth more rest) :
      IsBlock depth (lines ++ tabs ++ ts ++ line :: more) (first :: rest)

end

/-- The tokens `ts` are the functions of a program, with comments and empty lines between them. -/
inductive IsProgram : List Token → List Function → Prop
  /-- Nothing is the program without functions. -/
  | nil : IsProgram [] []
  /-- An empty line adds nothing. -/
  | blank {line : Token} {ts : List Token} {functions : List Function} (kind : line.kind = .line)
      (rest : IsProgram ts functions) : IsProgram (line :: ts) functions
  /-- A comment extends to the end of its line and adds nothing. -/
  | comment {mark line : Token} {inner ts : List Token} {functions : List Function}
      (kind : mark.kind = .comment) (inside : ∀ t ∈ inner, t.kind ≠ .line)
      (ends : line.kind = .line) (rest : IsProgram ts functions) :
      IsProgram (mark :: (inner ++ line :: ts)) functions
  /-- A function is a name with parentheses, a block and a line break. -/
  | function {name line : Token} {header block ts : List Token} {body : List Stmt}
      {functions : List Function} (kind : name.kind = .identifier)
      (opens : HasKinds header [.parenOpen, .parenClose, .space, .braceOpen, .line])
      (inside : IsBlock 0 block body) (ends : line.kind = .line)
      (rest : IsProgram ts functions) :
      IsProgram (name :: (header ++ block ++ line :: ts)) (⟨nameOf name, body⟩ :: functions)

end Tabscript.Grammar
