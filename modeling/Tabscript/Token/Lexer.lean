import Tabscript.Token.Basic

/-!
# From text to tokens

The text is cut between any two neighbours that are not both word characters, so a lexeme is
either a longest run of word characters or one other character. Nothing is skipped and nothing
is refused: a lexeme the grammar has no use for still becomes a token.

* `lexemes` is the cut.
* `lexemeKind` names the kind of a lexeme.
* `place` gives each lexeme the position where it starts.
* `lex` puts the three together. `Tabscript.Proofs.Scanning` shows that a scan of the text,
  character by character, finds the same tokens.
-/

namespace Tabscript

/-- Word characters are the letters and digits of ASCII and the underscore. -/
def isWordChar (c : Char) : Bool := c.isAlphanum || c == '_'

/-- The kind of a character that is a token of its own, where it has one by name. -/
def breakKind? : Char → Option TokenKind
  | '(' => some .parenOpen
  | ')' => some .parenClose
  | '[' => some .bracketOpen
  | ']' => some .bracketClose
  | '{' => some .braceOpen
  | '}' => some .braceClose
  | '#' => some .comment
  | '\t' => some .indent
  | '\n' => some .line
  | '"' => some .string
  | ' ' => some .space
  | _ => none

/-- The kind of a word: a digit anywhere makes it a number, else a capital anywhere makes it a
constant, else a capital in front of a word character makes it the name of a class. The rules are
tried in this order, so no word comes to the third with a capital in it. -/
def wordKind (word : List Char) : TokenKind :=
  if word.any Char.isDigit then .number
  else if word.any Char.isUpper then .constant
  else if (word.zip word.tail).any fun pair => pair.1.isUpper && isWordChar pair.2 then .className
  else .identifier

/-- The kind of a lexeme. A lexeme of one character that is not a word character has that
character's kind, and is a symbol if there is none; every other lexeme is a word. -/
def lexemeKind : List Char → TokenKind
  | [c] => if isWordChar c then wordKind [c] else (breakKind? c).getD .symbol
  | word => wordKind word

/-- The lexemes of a text, in order. -/
def lexemes (text : List Char) : List (List Char) :=
  text.splitBy fun a b => isWordChar a && isWordChar b

/-- The tokens of consecutive lexemes, the first of which starts at `pos`. -/
def place (pos : Position) : List (List Char) → List Token
  | [] => []
  | lexeme :: rest =>
    ⟨lexemeKind lexeme, String.ofList lexeme, pos⟩ :: place (pos.after lexeme) rest

/-- The tokens of a source text. -/
def lex (source : String) : List Token := place .start (lexemes source.toList)

end Tabscript
