/-!
# String literals of JavaScript

A text becomes a literal between double quotes. Quotes and the three control characters that
a source text can hold inside a string are escaped. A backslash passes through, so an escape that
was written in the source keeps its meaning in the output.
-/

namespace Tabscript.JavaScript

/-- A character of a string, as it stands in a literal. -/
def literalChar : Char → List Char
  | '"' => ['\\', '"']
  | '\n' => ['\\', 'n']
  | '\r' => ['\\', 'r']
  | '\t' => ['\\', 't']
  | c => [c]

/-- What stands between the quotes of the literal for a text. -/
def literalBody (text : List Char) : List Char := text.flatMap literalChar

/-- The literal for a text. -/
def literal (text : String) : String :=
  "\"" ++ String.ofList (literalBody text.toList) ++ "\""

end Tabscript.JavaScript
