import Tabscript.Target

/-!
# The arguments of a command

A command line names the file to read and, if the result is not to be printed, the file to write.
Options choose the target and what to emit, and a flag asks for details of errors. An option's
value follows it as the next argument or after an equals sign, and directly after the short
form of the target option. A double dash ends the options.

The options that ask about the command itself, `--help` with its short form `-h` and `--version`
with its short form `-V`, are left out. They are refused like any option that does not exist.

* `Argument.ofText` says what a single argument is.
* `Invocation.ofArguments` reads a command line, and refuses one that is not understood with a
  `UsageError`.
-/

namespace Tabscript

/-- What a run produces. -/
inductive Emit where
  | tokens
  | tree
  | code
  deriving DecidableEq, Repr

/-- What to produce, by its name on a command line. -/
def Emit.ofName? : String → Option Emit
  | "tokens" => some tokens
  | "tree" => some tree
  | "code" => some code
  | _ => none

/-- A target by its name on a command line, where case matters. -/
def Target.ofOption? : String → Option Target
  | "javascript" | "js" => some javaScript
  | _ => none

/-- What a command line asks for. -/
structure Invocation where
  input : String
  /-- The file to write, if the result is not printed. -/
  output : Option String
  target : Target
  emit : Emit
  /-- Whether errors are reported with their details. -/
  debug : Bool
  deriving DecidableEq, Repr

/-- Why a command line is not understood. -/
inductive UsageError where
  | unknownOption (argument : String)
  | missingValue (option : String)
  | badValue (option : String) (value : String)
  | repeated (option : String)
  | emptyPath
  /-- More paths than files to name. -/
  | extraPath (path : String)
  | missingInput
  deriving DecidableEq, Repr

/-- The wording of a refusal. -/
def UsageError.message : UsageError → String
  | unknownOption argument => "unexpected argument " ++ argument
  | missingValue option => "a value is required for " ++ option
  | badValue option value => "invalid value " ++ value ++ " for " ++ option
  | repeated option => option ++ " cannot be used more than once"
  | emptyPath => "a path cannot be empty"
  | extraPath path => "unexpected argument " ++ path
  | missingInput => "INPUT is required"

/-! ## Single arguments -/

/-- What an argument before the end of the options is. -/
inductive Argument where
  | path (text : String)
  | endOfOptions
  | debug
  /-- The choice of the target, with its value if that is part of the argument. -/
  | target (value? : Option String)
  /-- The choice of what to produce, with its value if that is part of the argument. -/
  | emit (value? : Option String)
  | unknown (text : String)
  deriving DecidableEq, Repr

/-- The long option with a name and, after an equals sign, a value. -/
def Argument.ofLong (text : List Char) : Argument :=
  let value? := (text.dropWhile (· ≠ '=')).tail?.map String.ofList
  match String.ofList (text.takeWhile (· ≠ '=')), value? with
  | "target", _ => .target value?
  | "emit", _ => .emit value?
  | "debug", none => .debug
  | _, _ => .unknown (String.ofList text)

/-- What an argument is. A single dash is a path. -/
def Argument.ofText (text : String) : Argument :=
  match text.toList with
  | ['-', '-'] => .endOfOptions
  | '-' :: '-' :: long => .ofLong long
  | ['-', 't'] => .target none
  | '-' :: 't' :: '=' :: value => .target (some (String.ofList value))
  | '-' :: 't' :: value => .target (some (String.ofList value))
  | '-' :: _ :: _ => .unknown text
  | _ => .path text

/-! ## Command lines -/

/-- What the arguments read so far have chosen. -/
structure Choices where
  paths : List String
  target : Option Target
  emit : Option Emit
  debug : Bool
  deriving DecidableEq, Repr

namespace Choices

/-- Nothing chosen. -/
def none : Choices := ⟨[], .none, .none, false⟩

/-- Adds a path. -/
def addPath (c : Choices) (path : String) : Except UsageError Choices :=
  if path = "" then .error .emptyPath
  else if 2 ≤ c.paths.length then .error (.extraPath path)
  else .ok { c with paths := c.paths ++ [path] }

/-- Asks for details of errors. -/
def setDebug (c : Choices) : Except UsageError Choices :=
  if c.debug then .error (.repeated "--debug") else .ok { c with debug := true }

/-- Chooses the target. -/
def setTarget (c : Choices) (value : String) : Except UsageError Choices :=
  match c.target, Target.ofOption? value with
  | some _, _ => .error (.repeated "--target")
  | .none, some target => .ok { c with target := some target }
  | .none, .none => .error (.badValue "--target" value)

/-- Chooses what to produce. -/
def setEmit (c : Choices) (value : String) : Except UsageError Choices :=
  match c.emit, Emit.ofName? value with
  | some _, _ => .error (.repeated "--emit")
  | .none, some emit => .ok { c with emit := some emit }
  | .none, .none => .error (.badValue "--emit" value)

/-- Reads arguments on top of the choices made before them. -/
def read (c : Choices) : List String → Except UsageError Choices
  | [] => .ok c
  | argument :: rest =>
    match Argument.ofText argument with
    | .path path => do (← c.addPath path).read rest
    | .endOfOptions => rest.foldlM addPath c
    | .debug => do (← c.setDebug).read rest
    | .target (some value) => do (← c.setTarget value).read rest
    | .emit (some value) => do (← c.setEmit value).read rest
    | .target .none =>
      match rest with
      | [] => .error (.missingValue "--target")
      | value :: rest => do (← c.setTarget value).read rest
    | .emit .none =>
      match rest with
      | [] => .error (.missingValue "--emit")
      | value :: rest => do (← c.setEmit value).read rest
    | .unknown text => .error (.unknownOption text)

end Choices

/-- Whether details of errors are asked for: by the flag or else by the variable `DEBUG`, which
has to be `true` or `false` if it is set. -/
def wantsDebug (flag : Bool) (setting? : Option String) : Except UsageError Bool :=
  match flag, setting? with
  | true, _ => .ok true
  | false, none => .ok false
  | false, some "true" => .ok true
  | false, some "false" => .ok false
  | false, some value => .error (.badValue "DEBUG" value)

/-- Reads a command line, under the value of the variable `DEBUG`. The default is to compile to
JavaScript. -/
def Invocation.ofArguments (arguments : List String) (setting? : Option String) :
    Except UsageError Invocation := do
  let choices ← Choices.none.read arguments
  let debug ← wantsDebug choices.debug setting?
  let target := choices.target.getD .javaScript
  let emit := choices.emit.getD .code
  match choices.paths with
  | [] => .error .missingInput
  | input :: more => .ok ⟨input, more.head?, target, emit, debug⟩

end Tabscript
