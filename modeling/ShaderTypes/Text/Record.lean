import ShaderTypes.Text.Quoted

/-!
# Records as text

The written form of a record: its name, and its fields with their names between braces.
-/

namespace ShaderTypes.Text

/-- The texts between brackets of the given kind, separated by commas. -/
def listed (opening : String) (texts : List String) (closing : String) : String :=
  opening ++ ", ".intercalate texts ++ closing

/-- The text of a record. -/
def record (name : String) (fields : List (String × String)) : String :=
  listed (name ++ " \x7b ") (fields.map fun (field, value) => field ++ ": " ++ value) " \x7d"

/-- The text of a value that may be absent. -/
def optional : Option String → String
  | none => "None"
  | some text => listed "Some(" [text] ")"

/-- The text of a truth value. -/
def boolean (b : Bool) : String :=
  if b then "true" else "false"

end ShaderTypes.Text
