import Tabscript.Command.Options
import Tabscript.Compile
import Tabscript.Files
import Tabscript.Tree.Dump

/-!
# Running a command

A run reads the input, produces what was asked for, and writes it to the output or prints it.
Nothing is written or printed before all of it was produced, and the first failure ends the run
with a report on the error stream.

* `Invocation.artifact` is what a run produces from a source text.
* `Failure.report` words a failure, with or without details.
* `run` makes the run on any system of files and returns its `Outcome`.
-/

namespace Tabscript

/-- Why a run that was asked for properly fails. -/
inductive Failure where
  | read (path : String) (cause : FileError)
  | compile (cause : CompileError)
  | write (path : String) (cause : FileError)
  deriving DecidableEq, Repr

/-- A failure under its cause: on one line, or with the cause in a paragraph of its own. -/
def Failure.withCause (debug : Bool) (what cause : String) : String :=
  if debug then what ++ "\n\nCaused by:\n    " ++ cause ++ "\n" else what ++ ": " ++ cause ++ "\n"

/-- The report on a failure. With details, an error of the compilation is followed by its
outline. -/
def Failure.report (debug : Bool) : Failure → String
  | read path cause => withCause debug ("failed to read " ++ path) cause.text
  | write path cause => withCause debug ("failed to write " ++ path) cause.text
  | compile cause =>
    cause.message ++ "\n" ++ if debug then cause.outline.expanded 0 ++ "\n" else ""

/-- What a run leaves behind on its streams. -/
structure Outcome where
  /-- The exit status: zero for success, one for a failure and two for a command line that is not
  understood. -/
  status : UInt32
  output : String
  errors : String
  deriving DecidableEq, Repr

/-- What a run produces from a source text. -/
def Invocation.artifact (i : Invocation) (source : String) : Except CompileError String :=
  match i.emit with
  | .tokens => .ok (Token.dumpLines (lex source))
  | .tree => do
    let program ← Program.ofSource source
    .ok program.dump
  | .code => compile source i.target

/-- A text with a line break at its end, added if it has none there. -/
def endLine (text : String) : String :=
  if text.toList.getLast? = some '\n' then text else text ++ "\n"

section

variable {m : Type → Type} [Monad m] [Files m]

/-- Makes a run and returns what is printed. -/
def Invocation.perform (i : Invocation) : ExceptT Failure m String := do
  let content ← ExceptT.mk (Except.mapError (.read i.input) <$> Files.read i.input)
  let source ← ExceptT.mk (pure ((decode content).mapError (.read i.input)))
  let artifact ← ExceptT.mk (pure ((i.artifact source).mapError .compile))
  match i.output with
  | none => return endLine artifact
  | some path =>
    ExceptT.mk (Except.mapError (.write path) <$> Files.write path artifact.toUTF8)
    return ""

/-- Makes the run a command line asks for, under the value of the variable `DEBUG`. -/
def run (arguments : List String) (setting? : Option String) : m Outcome :=
  match Invocation.ofArguments arguments setting? with
  | .error e => return ⟨2, "", "error: " ++ e.message ++ "\n"⟩
  | .ok invocation => do
    match ← invocation.perform.run with
    | .ok printed => return ⟨0, printed, ""⟩
    | .error e => return ⟨1, "", e.report invocation.debug⟩

end

end Tabscript
