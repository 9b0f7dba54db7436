/-!
# Reading literals

How the target language reads what stands between double quotes.

* `scan` finds the end of a literal: a backslash takes the next character with it, and the first
  quote that is not so taken closes the literal, which may not hold a raw line break.
* `unescape` gives the pairs of a backslash and a character their meaning.
-/

namespace Tabscript.JavaScript

/-- Whether a character ends a line. -/
def isLineBreak (c : Char) : Bool := c == '\n' || c == '\r'

/-- What follows a literal, given what follows its opening quote. There is no result if the literal
is not closed or a line ends inside it. -/
def scan : List Char → Option (List Char)
  | [] => none
  | '"' :: rest => some rest
  | ['\\'] => none
  | '\\' :: c :: rest => if isLineBreak c then none else scan rest
  | c :: rest => if isLineBreak c then none else scan rest

/-- What a backslash and the character after it stand for. -/
def pairMeaning : Char → List Char
  | 'n' => ['\n']
  | 'r' => ['\r']
  | 't' => ['\t']
  | '"' => ['"']
  | '\\' => ['\\']
  | c => ['\\', c]

/-- A text with its pairs replaced by what they stand for. -/
def unescape : List Char → List Char
  | [] => []
  | ['\\'] => ['\\']
  | '\\' :: c :: rest => pairMeaning c ++ unescape rest
  | c :: rest => c :: unescape rest

end Tabscript.JavaScript
