import Tabscript.Tree.Basic

/-!
# The nodes of a tree in reading order

The expressions of a tree, in the order in which their first tokens are read: an expression comes
before its right operand, a condition before the body it guards.

* `Program.exprs` lists all expressions of a program.
* `Program.operations` lists the operations among them.
-/

namespace Tabscript

/-- An expression and the expressions inside it. -/
def Expr.nodes : Expr → List Expr
  | assign target value pos => assign target value pos :: value.nodes
  | operation operator lhs rhs pos => operation operator lhs rhs pos :: rhs.nodes
  | e => [e]

mutual

/-- The expressions of a statement. -/
def Stmt.exprs : Stmt → List Expr
  | .branch condition body => condition.nodes ++ Stmt.exprsAll body
  | .print value | .ret value | .eval value => value.nodes

/-- The expressions of statements, one after the other. -/
def Stmt.exprsAll : List Stmt → List Expr
  | [] => []
  | stmt :: rest => stmt.exprs ++ Stmt.exprsAll rest

end

/-- The expressions of a program. -/
def Program.exprs (p : Program) : List Expr := p.functions.flatMap fun f => Stmt.exprsAll f.body

/-- Whether an expression is an operation. -/
def Expr.isOperation : Expr → Bool
  | operation .. => true
  | _ => false

/-- The operations of a program. -/
def Program.operations (p : Program) : List Expr := p.exprs.filter Expr.isOperation

end Tabscript
