import Tabscript.JavaScript.Code
import Tabscript.Tree.Error

/-!
# Moving positions

Everything that carries positions can have them moved, all by the same function and with all else
left alone: tokens, trees, and the errors that blame a place.
-/

namespace Tabscript

variable (f : Position → Position)

/-- A token with its position moved. -/
def Token.relocate (t : Token) : Token := { t with pos := f t.pos }

/-- A name with its position moved. -/
def Ident.relocate (i : Ident) : Ident := { i with pos := f i.pos }

/-- An expression with its positions moved. -/
def Expr.relocate : Expr → Expr
  | bool value pos => .bool value (f pos)
  | number text pos => .number text (f pos)
  | string text pos => .string text (f pos)
  | var name pos => .var (name.relocate f) (f pos)
  | call callee pos => .call (callee.relocate f) (f pos)
  | assign target value pos => .assign (target.relocate f) value.relocate (f pos)
  | operation operator lhs rhs pos => .operation operator (lhs.relocate f) rhs.relocate (f pos)

mutual

/-- A statement with its positions moved. -/
def Stmt.relocate : Stmt → Stmt
  | .branch condition body => .branch (condition.relocate f) (Stmt.relocateAll body)
  | .print value => .print (value.relocate f)
  | .ret value => .ret (value.relocate f)
  | .eval value => .eval (value.relocate f)

/-- Statements with their positions moved. -/
def Stmt.relocateAll : List Stmt → List Stmt
  | [] => []
  | stmt :: rest => stmt.relocate :: Stmt.relocateAll rest

end

/-- A function with its positions moved. -/
def Function.relocate (function : Function) : Function :=
  ⟨function.name.relocate f, Stmt.relocateAll f function.body⟩

/-- A program with its positions moved. -/
def Program.relocate (p : Program) : Program := ⟨p.functions.map (Function.relocate f)⟩

/-- A syntax error with its position moved. -/
def ParseError.relocate : ParseError → ParseError
  | unexpected t expected => .unexpected (t.relocate f) expected
  | endOfInput expected => .endOfInput expected

/-- The refusal of an operation with its position moved. -/
def Unsupported.relocate (e : Unsupported) : Unsupported := { e with pos := f e.pos }

end Tabscript
