import Tabscript.Files

/-!
# A directory as a value

The working directory of a run, without subdirectories and with nothing known around it: a path
that leaves it finds no file. Paths are followed component by component, where an empty component
and a single dot stay in place.

* `Directory.read` and `Directory.write` follow a path and read or replace the file it leads to.
* `Directory.changes` lists the files that differ between two states.
-/

namespace Tabscript

/-- The files of a directory, each with its name and its content. -/
structure Directory where
  /-- The files. The first entry of a name counts. -/
  entries : List (String × ByteArray)

/-- Where a path leads. -/
inductive Destination where
  | directory
  /-- To a name in the working directory. The flag says that slashes follow the name. -/
  | entry (name : String) (slash : Bool)
  deriving DecidableEq, Repr

namespace Directory

/-- The content of the file with a name. -/
def get? (d : Directory) (name : String) : Option ByteArray := d.entries.lookup name

/-- Gives the file with a name a new content. -/
def insert (d : Directory) (name : String) (content : ByteArray) : Directory :=
  ⟨(name, content) :: d.entries.filter (·.1 != name)⟩

theorem get?_insert_self (d : Directory) (name : String) (content : ByteArray) :
    (d.insert name content).get? name = some content := by
  simp [get?, insert]

/-- No other file changes. -/
theorem get?_insert_of_ne (d : Directory) {name other : String} (content : ByteArray)
    (h : other ≠ name) : (d.insert name content).get? other = d.get? other := by
  obtain ⟨entries⟩ := d
  have hn : (other == name) = false := beq_false_of_ne h
  simp only [get?, insert, List.lookup_cons, hn]
  induction entries with
  | nil => rfl
  | cons entry rest ih =>
    obtain ⟨key, value⟩ := entry
    by_cases hk : key = name
    · have ho : (other == key) = false := by rw [hk]; exact hn
      simp only [List.filter_cons, hk, bne_self_eq_false, List.lookup_cons]
      rw [← hk, ho]
      simpa [hk] using ih
    · simp only [List.filter_cons, bne_iff_ne.2 hk, if_true, List.lookup_cons]
      rw [ih]

/-- Follows the components of a path. The flag says that the walk is still in the working
directory, where names are known. -/
def follow (d : Directory) (inside : Bool) : List String → Except FileError Destination
  | [] => .ok .directory
  | name :: rest =>
    if name = "" ∨ name = "." then d.follow inside rest
    else if name = ".." then d.follow false rest
    else if !inside then .error .notFound
    else if rest.all (· == "") then .ok (.entry name !rest.isEmpty)
    else if (d.get? name).isSome then .error .notADirectory
    else .error .notFound

/-- Where a path leads. A path that starts with a slash starts outside. -/
def resolve (d : Directory) (path : String) : Except FileError Destination :=
  d.follow (path.toList.head? ≠ some '/') ((path.toList.splitOn '/').map String.ofList)

/-- The content of the file a path leads to. -/
def read (d : Directory) (path : String) : Except FileError ByteArray := do
  match ← d.resolve path with
  | .directory => .error .isADirectory
  | .entry name slash =>
    match d.get? name with
    | none => .error .notFound
    | some content => if slash then .error .notADirectory else .ok content

/-- The directory after the file a path leads to was given a new content. -/
def write (d : Directory) (path : String) (content : ByteArray) : Except FileError Directory := do
  match ← d.resolve path with
  | .directory => .error .isADirectory
  | .entry name slash => if slash then .error .isADirectory else .ok (d.insert name content)

/-- The files of `after` that `before` does not hold with the same content. -/
def changes (before after : Directory) : List (String × ByteArray) :=
  after.entries.filter fun (name, content) => before.get? name != some content

end Directory

instance : Files (StateM Directory) where
  read path := do return (← get).read path
  write path content := do
    match (← get).write path content with
    | .ok after => set after; return .ok ()
    | .error e => return .error e

end Tabscript
