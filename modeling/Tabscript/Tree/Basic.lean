import Tabscript.Position

/-!
# Programs as trees

A program is a list of functions without parameters, a function a name and a list of statements.
Every expression records the place where it starts, and so does every name.

* `Expr` and `Stmt` are the expressions and the statements.
* `Program.hasMain` says whether a program has an entry point: a function named `main`.
-/

namespace Tabscript

/-- A name and the place where it stands. -/
structure Ident where
  name : String
  pos : Position
  deriving DecidableEq, Repr, Inhabited

/-- The expressions. Each ends with the place where it starts. -/
inductive Expr where
  | bool (value : Bool) (pos : Position)
  /-- A number, by its text. -/
  | number (text : String) (pos : Position)
  /-- A string, by the text between its quotes. -/
  | string (text : String) (pos : Position)
  | var (name : Ident) (pos : Position)
  /-- A call without arguments. -/
  | call (callee : Ident) (pos : Position)
  /-- An assignment, whose value is again an expression. -/
  | assign (target : Ident) (value : Expr) (pos : Position)
  /-- A binary operation under any symbol other than the one of assignments. Its left operand is
  a name and its right operand everything that follows. -/
  | operation (operator : String) (lhs : Ident) (rhs : Expr) (pos : Position)
  deriving DecidableEq, Repr, Inhabited

/-- The place where an expression starts. -/
def Expr.pos : Expr → Position
  | bool _ pos | number _ pos | string _ pos | var _ pos | call _ pos | assign _ _ pos
  | operation _ _ _ pos => pos

/-- The statements. -/
inductive Stmt where
  | branch (condition : Expr) (body : List Stmt)
  | print (value : Expr)
  /-- Leaves the function with a value. -/
  | ret (value : Expr)
  /-- Evaluates an expression, usually an assignment or a call. -/
  | eval (value : Expr)
  deriving Repr, Inhabited

mutual

/-- Decides whether two statements are equal. -/
def Stmt.decideEq : (a b : Stmt) → Decidable (a = b)
  | .branch condition body, .branch condition' body' =>
    match decEq condition condition', Stmt.decideEqAll body body' with
    | isTrue h, isTrue h' => isTrue (by rw [h, h'])
    | isFalse h, _ => isFalse fun e => h (Stmt.branch.inj e).1
    | _, isFalse h => isFalse fun e => h (Stmt.branch.inj e).2
  | .print value, .print value' => decidable_of_iff (value = value') (by simp)
  | .ret value, .ret value' => decidable_of_iff (value = value') (by simp)
  | .eval value, .eval value' => decidable_of_iff (value = value') (by simp)
  | .branch .., .print _ | .branch .., .ret _ | .branch .., .eval _ => isFalse nofun
  | .print _, .branch .. | .print _, .ret _ | .print _, .eval _ => isFalse nofun
  | .ret _, .branch .. | .ret _, .print _ | .ret _, .eval _ => isFalse nofun
  | .eval _, .branch .. | .eval _, .print _ | .eval _, .ret _ => isFalse nofun

/-- Decides whether two lists of statements are equal. -/
def Stmt.decideEqAll : (a b : List Stmt) → Decidable (a = b)
  | [], [] => isTrue rfl
  | [], _ :: _ | _ :: _, [] => isFalse nofun
  | stmt :: rest, stmt' :: rest' =>
    match Stmt.decideEq stmt stmt', Stmt.decideEqAll rest rest' with
    | isTrue h, isTrue h' => isTrue (by rw [h, h'])
    | isFalse h, _ => isFalse fun e => h (List.cons.inj e).1
    | _, isFalse h => isFalse fun e => h (List.cons.inj e).2

end

instance : DecidableEq Stmt := Stmt.decideEq

/-- A function: its name and what it does. -/
structure Function where
  name : Ident
  body : List Stmt
  deriving DecidableEq, Repr, Inhabited

/-- A program: its functions, in the order of their declarations. -/
structure Program where
  functions : List Function
  deriving DecidableEq, Repr, Inhabited

/-- Whether a function is the entry point of a program that declares it. -/
def Function.isMain (f : Function) : Bool := f.name.name == "main"

/-- Whether a program has an entry point. -/
def Program.hasMain (p : Program) : Bool := p.functions.any Function.isMain

end Tabscript
