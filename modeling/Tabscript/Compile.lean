import Tabscript.JavaScript.Code
import Tabscript.Token.Lexer
import Tabscript.Tree.Parser

/-!
# Compilation

A source text is cut into tokens, the tokens are read into a tree, and the tree is rendered as
code. The first error ends the compilation and no code is returned beside it.

* `compile` compiles for a given target.
* `compileFor` chooses the target by name. An unknown name is refused before the source is looked
  at.
-/

namespace Tabscript

/-- Why a compilation failed. -/
inductive CompileError where
  | syntaxError (cause : ParseError)
  | unsupported (cause : Unsupported)
  | unknownTarget (name : String)
  deriving DecidableEq, Repr

namespace CompileError

/-- The message of an error. -/
def message : CompileError → String
  | syntaxError cause => cause.message
  | unsupported cause => cause.message
  | unknownTarget name => "Unknown target language: " ++ name

/-- The title of an error's details. -/
def stage : CompileError → String
  | syntaxError _ => "Syntax"
  | unsupported _ => "UnsupportedConstruct"
  | unknownTarget _ => "UnknownTarget"

open Text in
/-- The details of an error's cause. -/
def causeOutline : CompileError → Outline
  | syntaxError cause => cause.outline
  | unsupported cause => cause.outline
  | unknownTarget name => .wrap "UnknownTarget" (.leaf (quote name))

/-- The details of an error. -/
def outline (e : CompileError) : Text.Outline := .wrap e.stage e.causeOutline

end CompileError

/-- The program a source text stands for. -/
def Program.ofSource (source : String) : Except CompileError Program :=
  (Program.parse (lex source)).mapError .syntaxError

/-- The code of a program in a target language. -/
def Program.codeFor (target : Target) (p : Program) : Except CompileError String :=
  match target with
  | .javaScript => p.code.mapError .unsupported

/-- Compiles a source text for a target. -/
def compile (source : String) (target : Target) : Except CompileError String := do
  let program ← Program.ofSource source
  program.codeFor target

/-- Compiles a source text for the target that goes by a name. -/
def compileFor (source : String) (name : String) : Except CompileError String :=
  match Target.ofName? name with
  | some target => compile source target
  | none => .error (.unknownTarget name)

end Tabscript
