/-!
# Target languages

The languages a program can be compiled to, and the names they are chosen by. Names are
compared without regard to the case of ASCII letters.
-/

namespace Tabscript

/-- The languages a program can be compiled to. -/
inductive Target where
  /-- JavaScript, run by a process that has `console` and `process`. -/
  | javaScript
  deriving DecidableEq, Repr, Inhabited

namespace Target

/-- All targets. -/
def all : List Target := [javaScript]

/-- The name of a target in messages. -/
def name : Target → String
  | javaScript => "JavaScript"

/-- Shorter names a target goes by. -/
def aliases : Target → List String
  | javaScript => ["js"]

/-- A text with its ASCII capitals replaced by small letters. -/
def foldCase (text : String) : List Char := text.toList.map Char.toLower

/-- Whether a target goes by a name, in any case. -/
def answersTo (target : Target) (name : String) : Bool :=
  (target.name :: target.aliases).any fun known => foldCase known == foldCase name

/-- The target that goes by a name. -/
def ofName? (name : String) : Option Target := all.find? (·.answersTo name)

end Target

end Tabscript
