/-!
# Outlines of values

An outline is the shape a value is shown in: a leaf, a named wrapper around one value, a named
record of fields, or a list. The same outline has two layouts.

* `Outline.inline` writes it on one line: `Name(x)`, `Name { a: x, b: y }`, `[x, y]`.
* `Outline.expanded` gives every wrapped value, field and item a line of its own, four spaces
  deeper than what encloses it and closed by a comma. An empty list stays `[]`.
-/

namespace Tabscript.Text

/-- The shape a value is shown in. -/
inductive Outline where
  /-- A value shown by its own text. -/
  | leaf (text : String)
  /-- A named wrapper around one value. -/
  | wrap (name : String) (content : Outline)
  /-- A named record with its fields in order. -/
  | record (name : String) (fields : List (String × Outline))
  /-- A list with its items in order. -/
  | list (items : List Outline)

namespace Outline

/-- The left margin of the expanded layout. -/
def margin (depth : Nat) : String := String.ofList (List.replicate (4 * depth) ' ')

mutual

/-- The layout on one line. -/
def inline : Outline → String
  | leaf text => text
  | wrap name content => name ++ "(" ++ content.inline ++ ")"
  | record name fields =>
    name ++ " \x7b " ++ ", ".intercalate (inlineFields fields) ++ " \x7d"
  | list items => "[" ++ ", ".intercalate (inlineItems items) ++ "]"

/-- The items of a list, each on one line. -/
def inlineItems : List Outline → List String
  | [] => []
  | item :: rest => item.inline :: inlineItems rest

/-- The fields of a record, each on one line after its name. -/
def inlineFields : List (String × Outline) → List String
  | [] => []
  | (name, value) :: rest => (name ++ ": " ++ value.inline) :: inlineFields rest

end

mutual

/-- The layout over several lines, for a value that starts on a line with `depth` steps of
margin. -/
def expanded (depth : Nat) : Outline → String
  | leaf text => text
  | wrap name content =>
    name ++ "(\n" ++ margin (depth + 1) ++ content.expanded (depth + 1) ++ ",\n"
      ++ margin depth ++ ")"
  | record name fields =>
    name ++ " \x7b\n" ++ expandedFields (depth + 1) fields ++ margin depth ++ "\x7d"
  | list [] => "[]"
  | list (item :: rest) =>
    "[\n" ++ expandedItems (depth + 1) (item :: rest) ++ margin depth ++ "]"

/-- The items of a list, one under the other. -/
def expandedItems (depth : Nat) : List Outline → String
  | [] => ""
  | item :: rest =>
    margin depth ++ item.expanded depth ++ ",\n" ++ expandedItems depth rest

/-- The fields of a record, one under the other. -/
def expandedFields (depth : Nat) : List (String × Outline) → String
  | [] => ""
  | (name, value) :: rest =>
    margin depth ++ name ++ ": " ++ value.expanded depth ++ ",\n" ++ expandedFields depth rest

end

end Outline

end Tabscript.Text
