import Tabscript.Token.Lexer
import Tabscript.Tree.Basic
import Tabscript.Tree.Keyword

/-!
# The source of a tree

Every tree that can be read from a source text has a canonical source: one line to a statement,
one tab to each block around it, and no empty lines or comments. Positions play no part in it.

* `Program.source` is the canonical source of a program.
* `Program.wellFormed` says that a program can be read from a source at all: its names are words
  of small letters and underscores, its numbers words with a digit, its strings without quotes,
  and so on.
-/

namespace Tabscript

/-! ## The canonical source -/

/-- A line of a source text, `depth` tabs deep. -/
def sourceLine (depth : Nat) (content : String) : String :=
  String.ofList (List.replicate depth '\t') ++ content ++ "\n"

/-- The source of an expression. -/
def Expr.source : Expr → String
  | bool value _ => if value then "true" else "false"
  | number text _ => text
  | string text _ => "\"" ++ text ++ "\""
  | var name _ => name.name
  | call callee _ => callee.name ++ "()"
  | assign target value _ => target.name ++ " = " ++ value.source
  | operation operator lhs rhs _ => lhs.name ++ " " ++ operator ++ " " ++ rhs.source

mutual

/-- The source of a statement, `depth` tabs deep. -/
def Stmt.source (depth : Nat) : Stmt → String
  | .branch condition body =>
    sourceLine depth ("if (" ++ condition.source ++ ") \x7b") ++ Stmt.sourceAll (depth + 1) body
      ++ sourceLine depth "\x7d"
  | .print value => sourceLine depth ("print " ++ value.source)
  | .ret value => sourceLine depth ("return " ++ value.source)
  | .eval value => sourceLine depth value.source

/-- The source of statements, one after the other. -/
def Stmt.sourceAll (depth : Nat) : List Stmt → String
  | [] => ""
  | stmt :: rest => stmt.source depth ++ Stmt.sourceAll depth rest

end

/-- The source of a function. -/
def Function.source (f : Function) : String :=
  sourceLine 0 (f.name.name ++ "() \x7b") ++ Stmt.sourceAll 1 f.body ++ sourceLine 0 "\x7d"

/-- The source of a program. -/
def Program.source (p : Program) : String := String.join (p.functions.map Function.source)

/-! ## Trees that have a source -/

/-- A name is a word of small letters and underscores. -/
def isName (text : String) : Bool :=
  !text.toList.isEmpty && text.toList.all fun c => c.isLower || c == '_'

/-- The name of a variable, of a callee or on the left of a symbol stands for no truth value. -/
def isOperand (text : String) : Bool := isName text && (Keyword.truth? text).isNone

/-- A number is a word with a digit. -/
def isNumber (text : String) : Bool :=
  text.toList.all isWordChar && text.toList.any Char.isDigit

/-- The text of a string has no quote. -/
def isStringText (text : String) : Bool := !text.toList.contains '"'

/-- An operator is one character that is no word character, has no kind by name and is not the
sign of assignments. -/
def isOperator (text : String) : Bool :=
  match text.toList with
  | [c] => !isWordChar c && (breakKind? c).isNone && c != '='
  | _ => false

/-- Whether an expression can be read from a source. -/
def Expr.wellFormed : Expr → Bool
  | bool _ _ => true
  | number text _ => isNumber text
  | string text _ => isStringText text
  | var name _ => isOperand name.name
  | call callee _ => isOperand callee.name
  | assign target value _ => isOperand target.name && value.wellFormed
  | operation operator lhs rhs _ => isOperator operator && isOperand lhs.name && rhs.wellFormed

/-- Whether an expression can stand as a statement: it starts with a word that starts no other
statement. -/
def Expr.standsAlone : Expr → Bool
  | bool _ _ => true
  | number _ _ | string _ _ => false
  | var name _ | call name _ | assign name _ _ | operation _ name _ _ =>
    name.name != "if" && name.name != "print" && name.name != "return"

mutual

/-- Whether a statement can be read from a source. -/
def Stmt.wellFormed : Stmt → Bool
  | .branch condition body => condition.wellFormed && Stmt.wellFormedAll body
  | .print value | .ret value => value.wellFormed
  | .eval value => value.wellFormed && value.standsAlone

/-- Whether all statements of a list can be read from a source. -/
def Stmt.wellFormedAll : List Stmt → Bool
  | [] => true
  | stmt :: rest => stmt.wellFormed && Stmt.wellFormedAll rest

end

/-- Whether a function can be read from a source. -/
def Function.wellFormed (f : Function) : Bool := isName f.name.name && Stmt.wellFormedAll f.body

/-- Whether a program can be read from a source. -/
def Program.wellFormed (p : Program) : Bool := p.functions.all Function.wellFormed

end Tabscript
