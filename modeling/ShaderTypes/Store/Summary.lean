import ShaderTypes.Store.Basic
import ShaderTypes.Text.Record

/-!
# Summaries of debug nodes

A one-line text of a composite, a member or a template for people who read logs.  Composites and
members refer to each other, so a summary gives only the names of the nodes around.
-/

namespace ShaderTypes.Store

open Text

/-- The text of a word. -/
def wordText (n : UInt32) : String :=
  toString n.toNat

/-- The text of a name that may be absent. -/
def nameText (name : Option String) : String :=
  optional (name.map quoted)

/-- The text of the flags with their kind. -/
def flagsText (f : Debug.Flags) : String :=
  listed "DebugInfoFlags(" [f.text] ")"

/-- The text of a number type. -/
def numberText : Shape → Option String
  | .integer bits signed =>
    some (record "Integer" [("bitwidth", wordText bits), ("signed", boolean signed)])
  | .float bits => some (record "Float" [("bitwidth", wordText bits)])
  | _ => none

/-- The text of the value of a constant. -/
def scalarText : Debug.Scalar → String
  | .int v => listed "Int(" [toString v.toInt] ")"
  | .float v => listed "Float(" [v.text] ")"

/-- The text of a constant.  Constants are numbers, so their type has a text of its own. -/
def constantText (s : Store) (c : Debug.Constant) : String :=
  let type := ((s.types.shape? c.type).bind numberText).getD (s.types.name c.type)
  record "SpirvConstant" [("ty", type), ("value", scalarText c.value)]

/-- The summary of a composite. -/
def compositeText (s : Store) (c : Debug.Composite) : String :=
  record "DebugTypeComposite"
    [("name", quoted c.name), ("line", wordText c.site.line), ("column", wordText c.site.column),
      ("linkage_name", quoted c.linkageName), ("flags", flagsText c.flags), ("tag", c.tag.name),
      ("size_in_bits", wordText c.size),
      ("members", listed "[" (c.members.map fun m => nameText (s.nodes.name? m)) "]"),
      ("has_template", boolean c.template.isSome)]

/-- The summary of a member. -/
def memberText (s : Store) (m : Debug.Member) : String :=
  record "DebugTypeMember"
    [("name", quoted m.name), ("debug_type", nameText (s.nodes.name? m.type)),
      ("line", wordText m.site.line), ("column", wordText m.site.column),
      ("parent", nameText (s.nodes.name? m.parent)), ("offset_in_bits", wordText m.offset),
      ("size_in_bits", wordText m.size), ("flags", flagsText m.flags),
      ("value", optional (m.value.map s.constantText))]

/-- The summary of a template. -/
def templateText (s : Store) (t : Debug.Template) : String :=
  record "DebugTypeTemplate"
    [("target", nameText (s.nodes.name? t.target)), ("params", toString t.params.length)]

/-- The summary of a node, for the kinds that have one. -/
def summary? (s : Store) (n : NodeId) : Option String :=
  match s.nodes.entry? n with
  | some (.composite c) => some (s.compositeText c)
  | some (.member m) => some (s.memberText m)
  | some (.template t) => some (s.templateText t)
  | _ => none

end ShaderTypes.Store
