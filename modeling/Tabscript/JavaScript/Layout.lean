import Tabscript.JavaScript.Literal
import Tabscript.Tree.Basic

/-!
# The layout of the code, line by line

The code of a program as a list of lines with their depths, without regard to what can be
rendered: an operation appears as it is written in a source. For programs without operations this
is the layout of `Program.code`, stated apart from it.

* `Expr.rendering` is an expression as it appears in a line.
* `Program.lines` lists the lines of the code.
-/

namespace Tabscript

open JavaScript

/-- An expression as it appears in a line. -/
def Expr.rendering : Expr → String
  | bool value _ => if value then "true" else "false"
  | number text _ => text
  | string text _ => literal text
  | var name _ => name.name
  | call callee _ => callee.name ++ "()"
  | assign target value _ => target.name ++ " = " ++ value.rendering
  | operation operator lhs rhs _ => lhs.name ++ " " ++ operator ++ " " ++ rhs.rendering

/-- A line of code: its text behind its tabs. -/
def JavaScript.tabbed (depth : Nat) (content : String) : String :=
  String.ofList (List.replicate depth '\t') ++ content

mutual

/-- The lines of a statement, the outermost of them `depth` tabs deep. -/
def Stmt.lines (depth : Nat) : Stmt → List String
  | .branch condition body =>
    tabbed depth ("if (" ++ condition.rendering ++ ") \x7b") :: Stmt.linesAll (depth + 1) body
      ++ [tabbed depth "\x7d"]
  | .print value => [tabbed depth ("console.log(" ++ value.rendering ++ ");")]
  | .ret value => [tabbed depth ("return " ++ value.rendering ++ ";")]
  | .eval value => [tabbed depth (value.rendering ++ ";")]

/-- The lines of statements, one after the other. -/
def Stmt.linesAll (depth : Nat) : List Stmt → List String
  | [] => []
  | stmt :: rest => stmt.lines depth ++ Stmt.linesAll depth rest

end

/-- The lines of a function and the empty line after it. -/
def Function.lines (f : Function) : List String :=
  tabbed 1 ("function " ++ f.name.name ++ "() \x7b") :: Stmt.linesAll 2 f.body
    ++ [tabbed 1 "\x7d", ""]

/-- The lines that call the entry point. -/
def JavaScript.entryLines : List String :=
  [tabbed 1 "const mainReturn = main();", "", tabbed 1 "if (mainReturn) \x7b",
    tabbed 2 "process.exit(mainReturn);", tabbed 1 "\x7d"]

/-- The lines of a program. -/
def Program.lines (p : Program) : List String :=
  "(function () \x7b" :: p.functions.flatMap Function.lines
    ++ (if p.hasMain then entryLines else []) ++ ["\x7d)();"]

end Tabscript
