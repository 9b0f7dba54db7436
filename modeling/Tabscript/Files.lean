/-!
# Files

What the compiler needs of a file system: to read a file whole and to write one whole. Either can
fail for a few causes, which are values here, so that the same run can be made on the files of the
machine and on a directory that is itself a value.

* `Files` is the interface.
* `FileError.text` is the wording of a cause.
* `decode` reads bytes as text.
-/

namespace Tabscript

/-- Why a file could not be read or written. -/
inductive FileError where
  | notFound
  /-- The path goes through a file as if it were a directory. -/
  | notADirectory
  | isADirectory
  /-- The file's bytes are no text. -/
  | notText
  /-- Any other cause, in the words of the system. -/
  | other (description : String)
  deriving DecidableEq, Repr

/-- The wording of a cause. -/
def FileError.text : FileError → String
  | notFound => "No such file or directory (os error 2)"
  | notADirectory => "Not a directory (os error 20)"
  | isADirectory => "Is a directory (os error 21)"
  | notText => "stream did not contain valid UTF-8"
  | other description => description

/-- Reading and writing whole files by their paths. -/
class Files (m : Type → Type) where
  read : (path : String) → m (Except FileError ByteArray)
  /-- Replaces the content of a file, which need not exist before. -/
  write : (path : String) → (content : ByteArray) → m (Except FileError Unit)

/-- Bytes read as UTF-8 text. -/
def decode (content : ByteArray) : Except FileError String :=
  match String.fromUTF8? content with
  | some text => .ok text
  | none => .error .notText

end Tabscript
