/-!
# Positions in a source text

A position is a line and a column, both counted from one in 32-bit words. Columns count
characters, so a character outside ASCII takes one column like any other.

* `Position.advance` moves past one character: a line feed starts the next line, every other
  character takes one column.
* `Position.after` moves past a text.
* `Position.text` is the written form `line:column`.
-/

namespace Tabscript

/-- A place in a source text. -/
structure Position where
  line : UInt32
  column : UInt32
  deriving DecidableEq, Repr, Inhabited

namespace Position

/-- The place of the first character of a text. -/
def start : Position := ⟨1, 1⟩

/-- The place of the character that follows a character `c` placed at `p`. -/
def advance (p : Position) (c : Char) : Position :=
  if c = '\n' then ⟨p.line + 1, 1⟩ else ⟨p.line, p.column + 1⟩

/-- The place of the character that follows a text placed at `p`. -/
def after (p : Position) (text : List Char) : Position := text.foldl advance p

@[simp] theorem after_nil (p : Position) : p.after [] = p := rfl

@[simp] theorem after_cons (p : Position) (c : Char) (text : List Char) :
    p.after (c :: text) = (p.advance c).after text := rfl

theorem after_append (p : Position) (text more : List Char) :
    p.after (text ++ more) = (p.after text).after more := List.foldl_append

/-- The written form `line:column`. -/
def text (p : Position) : String := p.line.toNat.repr ++ ":" ++ p.column.toNat.repr

end Position

end Tabscript
