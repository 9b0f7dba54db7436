import Tabscript.Text.GraphemeExtend
import Tabscript.Text.Unprintable

/-!
# Texts written with escapes

A text is shown to a reader character by character: a few characters have a short escape (a
backslash and a letter), those a reader could not see are written by number, and all others
stand for themselves. What is written by number, and whether an apostrophe is escaped, is the
choice of an `Escaping`.

* `Escaping.escape` writes a text under such a choice, and `Escaping.quote` between double quotes.
* `quote` writes a text between double quotes, as dumps and error details do.
* `escape` writes a text as error messages do, without quotes of its own.
-/

namespace Tabscript.Text

/-- What is escaped beyond the characters that always are. -/
structure Escaping where
  /-- Whether an apostrophe is written with a backslash. -/
  apostrophe : Bool
  /-- Whether a character is written by number. The flag says that it is the first of its text. -/
  byNumber : (first : Bool) → Char → Bool

/-- The letter that, after a backslash, stands for a character. -/
def shortEscape? : Char → Option Char
  | '\x00' => some '0'
  | '\t' => some 't'
  | '\r' => some 'r'
  | '\n' => some 'n'
  | '\\' => some '\\'
  | '"' => some '"'
  | _ => none

/-- A character by number: its code point in lower-case hexadecimal digits. -/
def numericEscape (c : Char) : List Char :=
  '\\' :: 'u' :: '{' :: (Nat.toDigits 16 c.toNat ++ ['}'])

namespace Escaping

/-- One character of a text, written under the choice `style`. -/
def char (style : Escaping) (first : Bool) (c : Char) : List Char :=
  match shortEscape? c with
  | some letter => ['\\', letter]
  | none =>
    if style.apostrophe && c == '\'' then ['\\', c]
    else if style.byNumber first c then numericEscape c
    else [c]

/-- A text, written under the choice `style`. -/
def escape (style : Escaping) : List Char → List Char
  | [] => []
  | c :: rest => style.char true c ++ rest.flatMap (style.char false)

/-- A text between double quotes, written under the choice `style`. -/
def quote (style : Escaping) (text : String) : String :=
  "\"" ++ String.ofList (style.escape text.toList) ++ "\""

/-- Between double quotes an apostrophe stands for itself, and every character that extends the
one before it or has no glyph is written by number. -/
def quoted : Escaping where
  apostrophe := false
  byNumber _ c := isGraphemeExtend c || isUnprintable c

/-- In a message an apostrophe is escaped, and a character that extends the one before it is
written by number only where nothing stands before it. -/
def message : Escaping where
  apostrophe := true
  byNumber first c := (first && isGraphemeExtend c) || isUnprintable c

end Escaping

/-- A text between double quotes. -/
def quote (text : String) : String := Escaping.quoted.quote text

/-- A text as a message shows it. -/
def escape (text : String) : String :=
  String.ofList (Escaping.message.escape text.toList)

end Tabscript.Text
