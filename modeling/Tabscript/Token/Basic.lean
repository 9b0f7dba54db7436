import Tabscript.Position
import Tabscript.Text.Quoted

/-!
# Tokens

A source text is cut into tokens, each with its kind, the text it covers and the place where
that text starts. Punctuation, blanks and line breaks are tokens too: the grammar is strict about
every one of them.

* `TokenKind.name` is the kind's name in messages and `TokenKind.title` its name in dumps.
* `Token.dump` writes a token on one line, with its text in quotes. `Token.dumpWith` leaves open
  what is escaped there.
-/

namespace Tabscript

/-- The kinds of tokens. -/
inductive TokenKind where
  /-- A word without digits and capitals. -/
  | identifier
  /-- A word with a digit. -/
  | number
  /-- A word without digits that has a capital. -/
  | constant
  /-- A capitalised word. Such a word has a capital, so it is a constant first. -/
  | className
  | parenOpen
  | parenClose
  | bracketOpen
  | bracketClose
  | braceOpen
  | braceClose
  /-- The mark that starts a comment. -/
  | comment
  /-- A tab. -/
  | indent
  /-- A line feed. -/
  | line
  /-- The quote that opens or closes a string. -/
  | string
  | space
  /-- Any other single character. -/
  | symbol
  deriving DecidableEq, Repr, Inhabited

namespace TokenKind

/-- The kind's name in messages. -/
def name : TokenKind → String
  | identifier => "identifier"
  | number => "number"
  | constant => "constant"
  | className => "class"
  | parenOpen => "parenOpen"
  | parenClose => "parenClose"
  | bracketOpen => "bracketOpen"
  | bracketClose => "bracketClose"
  | braceOpen => "braceOpen"
  | braceClose => "braceClose"
  | comment => "comment"
  | indent => "indent"
  | line => "line"
  | string => "string"
  | space => "space"
  | symbol => "symbol"

/-- The kind's name in dumps. -/
def title : TokenKind → String
  | identifier => "Identifier"
  | number => "Number"
  | constant => "Constant"
  | className => "Class"
  | parenOpen => "ParenOpen"
  | parenClose => "ParenClose"
  | bracketOpen => "BracketOpen"
  | bracketClose => "BracketClose"
  | braceOpen => "BraceOpen"
  | braceClose => "BraceClose"
  | comment => "Comment"
  | indent => "Indent"
  | line => "Line"
  | string => "String"
  | space => "Space"
  | symbol => "Symbol"

/-- All kinds. -/
def all : List TokenKind :=
  [identifier, number, constant, className, parenOpen, parenClose, bracketOpen, bracketClose,
    braceOpen, braceClose, comment, indent, line, string, space, symbol]

/-- The kind with a given name. -/
def ofName? (name : String) : Option TokenKind := all.find? (·.name == name)

theorem mem_all (kind : TokenKind) : kind ∈ all := by cases kind <;> decide

end TokenKind

/-- A token: a piece of text with its kind and its place. -/
structure Token where
  kind : TokenKind
  value : String
  /-- Where the text starts. -/
  pos : Position
  deriving DecidableEq, Repr, Inhabited

namespace Token

/-- A token on one line: its kind, its text between quotes and its place. -/
def dumpWith (style : Text.Escaping) (t : Token) : String :=
  "Token(" ++ t.kind.title ++ ", " ++ style.quote t.value ++ ", " ++ t.pos.text ++ ")"

/-- A list of tokens, one to a line. -/
def dumpLinesWith (style : Text.Escaping) (tokens : List Token) : String :=
  String.join (tokens.map fun t => t.dumpWith style ++ "\n")

/-- A token on one line, escaped as in dumps. -/
def dump (t : Token) : String := t.dumpWith .quoted

/-- A list of tokens, one to a line, escaped as in dumps. -/
def dumpLines (tokens : List Token) : String := dumpLinesWith .quoted tokens

end Token

end Tabscript
