import Tabscript.Token.Lexer

/-!
# Token buffers

A buffer holds tokens between the reading of one source and its use. It can be edited by hand,
and it is filled from a source text only while it is empty.

* `Buffer.fill` fills an empty buffer, and refuses any other with `NotClean`.
* `Buffer.append`, `Buffer.truncate`, `Buffer.erase` and `Buffer.clear` edit it.
-/

namespace Tabscript

/-- A list of tokens under edit. -/
structure Buffer where
  tokens : List Token
  deriving DecidableEq, Repr

/-- The refusal to fill a buffer that already holds tokens. -/
structure NotClean where
  /-- How many tokens the buffer holds. -/
  size : Nat
  deriving DecidableEq, Repr

/-- The wording of the refusal. -/
def NotClean.message (e : NotClean) : String :=
  "assertion `left == right` failed: must pass clean tokens buffer\n  left: "
    ++ e.size.repr ++ "\n right: 0"

namespace Buffer

/-- The buffer without tokens. -/
def empty : Buffer := ⟨[]⟩

/-- How many tokens the buffer holds. -/
def size (b : Buffer) : Nat := b.tokens.length

/-- Fills an empty buffer with the tokens of a source text. -/
def fill (b : Buffer) (source : String) : Except NotClean Buffer :=
  if b.tokens.isEmpty then .ok ⟨lex source⟩ else .error ⟨b.size⟩

/-- Adds tokens at the end. -/
def append (b : Buffer) (more : List Token) : Buffer := ⟨b.tokens ++ more⟩

/-- Keeps at most the first `n` tokens. -/
def truncate (b : Buffer) (n : Nat) : Buffer := ⟨b.tokens.take n⟩

/-- Drops the token at index `i`, if there is one. -/
def erase (b : Buffer) (i : Nat) : Buffer := ⟨b.tokens.eraseIdx i⟩

/-- Drops all tokens. -/
def clear (_ : Buffer) : Buffer := empty

end Buffer

end Tabscript
