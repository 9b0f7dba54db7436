import Tabscript.Text.Quoted
import Tabscript.Tree.Basic

/-!
# Dumps of trees

A dump writes every node of a tree on a line of its own, two spaces deeper than its parent. An
expression's line ends with its place in parentheses. The body of a conditional statement stands
under a line `body`, which is left out if the body is empty.

* `Expr.dump` and `Program.dump` are the dumps of expressions and programs.
* `Expr.dumpWith` and `Program.dumpWith` leave open what is escaped in the texts of strings.
-/

namespace Tabscript

/-- A line of a dump, `level` steps deep. -/
def dumpLine (level : Nat) (content : String) : String :=
  String.ofList (List.replicate (2 * level) ' ') ++ content ++ "\n"

/-- A node's description followed by its place. -/
def withPlace (content : String) (pos : Position) : String := content ++ " (" ++ pos.text ++ ")"

section

variable (style : Text.Escaping)

/-- The dump of an expression, `level` steps deep. -/
def Expr.dumpWith (level : Nat) : Expr → String
  | bool value pos =>
    dumpLine level (withPlace ("bool " ++ if value then "true" else "false") pos)
  | number text pos => dumpLine level (withPlace ("number " ++ text) pos)
  | string text pos => dumpLine level (withPlace ("string " ++ style.quote text) pos)
  | var name pos => dumpLine level (withPlace ("variable " ++ name.name) pos)
  | call callee pos => dumpLine level (withPlace ("call " ++ callee.name) pos)
  | assign target value pos =>
    dumpLine level (withPlace ("assignment " ++ target.name) pos) ++ value.dumpWith (level + 1)
  | operation operator lhs rhs pos =>
    dumpLine level (withPlace ("operation " ++ lhs.name ++ " " ++ operator) pos)
      ++ rhs.dumpWith (level + 1)

mutual

/-- The dump of a statement, `level` steps deep. -/
def Stmt.dumpWith (level : Nat) : Stmt → String
  | .branch condition body =>
    dumpLine level "if" ++ condition.dumpWith style (level + 1)
      ++ if body.isEmpty then ""
        else dumpLine (level + 1) "body" ++ Stmt.dumpAllWith (level + 2) body
  | .print value => dumpLine level "print" ++ value.dumpWith style (level + 1)
  | .ret value => dumpLine level "return" ++ value.dumpWith style (level + 1)
  | .eval value => dumpLine level "expr" ++ value.dumpWith style (level + 1)

/-- The dump of statements, one after the other. -/
def Stmt.dumpAllWith (level : Nat) : List Stmt → String
  | [] => ""
  | stmt :: rest => stmt.dumpWith level ++ Stmt.dumpAllWith level rest

end

/-- The dump of a function. -/
def Function.dumpWith (f : Function) : String :=
  dumpLine 0 (withPlace ("function " ++ f.name.name) f.name.pos) ++ Stmt.dumpAllWith style 1 f.body

/-- The dump of a program: the dumps of its functions, in order. -/
def Program.dumpWith (p : Program) : String :=
  String.join (p.functions.map (Function.dumpWith style))

end

/-- The dump of an expression, `level` steps deep, escaped as in all dumps. -/
def Expr.dump (level : Nat) (e : Expr) : String := e.dumpWith .quoted level

/-- The dump of a program, escaped as in all dumps. -/
def Program.dump (p : Program) : String := p.dumpWith .quoted

end Tabscript
