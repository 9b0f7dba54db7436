import Tabscript.JavaScript.Literal
import Tabscript.Target
import Tabscript.Text.Outline
import Tabscript.Text.Quoted
import Tabscript.Tree.Basic

/-!
# JavaScript code

A program becomes one function that is called at once, so that nothing it declares is visible
outside. If it has an entry point, that is called at the end and a truthy result becomes the exit
status. Lines are indented by tabs, and the code does not end with a line break.

Operations have no rendering. The code of a tree that holds one is refused, and the blame goes to
the first operation in reading order.

* `Expr.code`, `Stmt.code`, `Function.code` and `Program.code` are the code of the parts of a tree.
  `Tabscript.Proofs.Writing` shows that writing line after line to one text ends with the same code.
-/

namespace Tabscript

/-- The refusal to render an operation. -/
structure Unsupported where
  target : Target
  operator : String
  pos : Position
  deriving DecidableEq, Repr

namespace Unsupported

/-- The construct that has no rendering, in words. -/
def construct (e : Unsupported) : String := "operator `" ++ e.operator ++ "`"

/-- The message of the refusal. -/
def message (e : Unsupported) : String :=
  "Not implemented for " ++ e.target.name ++ ": " ++ e.construct ++ " at " ++ e.pos.text

open Text in
/-- The details of the refusal. -/
def outline (e : Unsupported) : Outline :=
  .record "Unsupported"
    [("target", .leaf e.target.name), ("construct", .leaf (quote e.construct)),
      ("pos", .leaf ("Position(" ++ e.pos.text ++ ")"))]

end Unsupported

namespace JavaScript

/-- A line of code `depth` tabs deep, with the line break before it. -/
def line (depth : Nat) (content : String) : String :=
  "\n" ++ String.ofList (List.replicate depth '\t') ++ content

/-- The lines that call the entry point. -/
def entryPoint : String :=
  line 1 "const mainReturn = main();" ++ "\n" ++ line 1 "if (mainReturn) \x7b"
    ++ line 2 "process.exit(mainReturn);" ++ line 1 "\x7d"

end JavaScript

open JavaScript

/-- The code of an expression. -/
def Expr.code : Expr → Except Unsupported String
  | bool value _ => .ok (if value then "true" else "false")
  | number text _ => .ok text
  | string text _ => .ok (literal text)
  | var name _ => .ok name.name
  | call callee _ => .ok (callee.name ++ "()")
  | assign target value _ => do
    let value ← value.code
    .ok (target.name ++ " = " ++ value)
  | operation operator _ _ pos => .error ⟨.javaScript, operator, pos⟩

mutual

/-- The code of a statement, `depth` tabs deep. -/
def Stmt.code (depth : Nat) : Stmt → Except Unsupported String
  | .branch condition body => do
    let condition ← condition.code
    let body ← Stmt.codeAll (depth + 1) body
    .ok (line depth ("if (" ++ condition ++ ") \x7b") ++ body ++ line depth "\x7d")
  | .print value => do
    let value ← value.code
    .ok (line depth ("console.log(" ++ value ++ ");"))
  | .ret value => do
    let value ← value.code
    .ok (line depth ("return " ++ value ++ ";"))
  | .eval value => do
    let value ← value.code
    .ok (line depth (value ++ ";"))

/-- The code of statements, one after the other. -/
def Stmt.codeAll (depth : Nat) : List Stmt → Except Unsupported String
  | [] => .ok ""
  | stmt :: rest => do
    let first ← stmt.code depth
    let more ← Stmt.codeAll depth rest
    .ok (first ++ more)

end

/-- The code of a function, with an empty line after it. -/
def Function.code (f : Function) : Except Unsupported String := do
  let body ← Stmt.codeAll 2 f.body
  .ok (line 1 ("function " ++ f.name.name ++ "() \x7b") ++ body ++ line 1 "\x7d" ++ "\n")

/-- The code of a program. -/
def Program.code (p : Program) : Except Unsupported String := do
  let functions ← p.functions.mapM Function.code
  .ok ("(function () \x7b" ++ String.join functions
    ++ (if p.hasMain then entryPoint else "") ++ line 0 "\x7d)();")

end Tabscript
