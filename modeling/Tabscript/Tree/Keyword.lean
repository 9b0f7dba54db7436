/-!
# Keywords

The words that the grammar reads in a way of their own. They are ordinary identifiers to the
lexer, and the grammar looks for them in two places only: all of them at the start of a statement,
and those for truth values at the start of an expression. Where it does not look, nothing keeps a
keyword from being taken for a name, as `Tabscript.Proofs.Names` shows: a function named `if` is
read, and its code is no JavaScript.
-/

namespace Tabscript

/-- The keywords. -/
inductive Keyword where
  | ifWord
  | printWord
  | returnWord
  | trueWord
  | falseWord
  deriving DecidableEq, Repr, Inhabited

namespace Keyword

/-- The keyword a word is, if it is one. -/
def ofWord? : String → Option Keyword
  | "if" => some ifWord
  | "print" => some printWord
  | "return" => some returnWord
  | "true" => some trueWord
  | "false" => some falseWord
  | _ => none

/-- The truth value a word stands for, if it stands for one. -/
def truth? (word : String) : Option Bool :=
  match ofWord? word with
  | some trueWord => some true
  | some falseWord => some false
  | _ => none

end Keyword

end Tabscript
