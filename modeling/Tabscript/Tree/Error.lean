import Tabscript.Text.Outline
import Tabscript.Token.Basic

/-!
# Syntax errors

Reading stops at the first token that cannot continue what was read before it, or at an end of
the input where a token had to follow. Either way the error lists the kinds that could have stood
there, in the order in which the grammar tries them.
-/

namespace Tabscript

/-- Why tokens could not be read. -/
inductive ParseError where
  /-- A token stands where only the kinds `expected` can. -/
  | unexpected (token : Token) (expected : List TokenKind)
  /-- The tokens end where one of the kinds `expected` has to follow. -/
  | endOfInput (expected : List TokenKind)
  deriving DecidableEq, Repr, Inhabited

namespace ParseError

/-- The error's message. -/
def message : ParseError → String
  | unexpected t _ =>
    "Unexpected " ++ t.kind.name ++ " \"" ++ Text.escape t.value ++ "\" at " ++ t.pos.text
  | endOfInput _ => "Unexpected end of input"

open Text in
/-- The error's details. -/
def outline : ParseError → Outline
  | unexpected t expected =>
    .record "Unexpected"
      [("actual", .leaf t.kind.title), ("value", .leaf (quote t.value)),
        ("pos", .leaf ("Position(" ++ t.pos.text ++ ")")),
        ("expected", .list (expected.map fun kind => .leaf kind.title))]
  | endOfInput expected =>
    .record "UnexpectedEof" [("expected", .list (expected.map fun kind => .leaf kind.title))]

end ParseError

end Tabscript
