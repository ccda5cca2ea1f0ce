import ShaderTypes.Lowering.Extent
import ShaderTypes.Lowering.Pairing
import ShaderTypes.Store.Registry

/-!
# Describing types to a debugger

`lower` gives the debug type of a type and makes it when it is first needed, together with those of
the types it is built from.  A pointer has no debug type of its own and is described as what it
points to.  Kinds of types that cannot be described share one placeholder.

A struct that remembers its record is described as a composite.  The composite is listed before its
members are made, because each member refers to it.

The recursion follows operands, which stand before the type in the table.  Each step is written
over an arbitrary way to lower an operand, and `lower` ties the knot.
-/

namespace ShaderTypes

/-- A computation on the store that a fault may end. -/
abbrev Lower := StateT Store (Except Fault)

namespace Lowering

variable (b : BuilderId) (operand : TypeId → Lower NodeId)

/-! ### Types without parts -/

/-- A basic type of the given size, under a type that has no debug type yet. -/
def basicType (s : Store) (a : TypeId) (name : String) (bits : UInt32) (encoding : Debug.Encoding) :
    NodeId × Store :=
  let (word, s) := s.internType (.integer 32 false)
  let size := ⟨word, .int (Int64.ofNat bits.toNat)⟩
  s.keyedNode (some a) (.basic { name, size := some size, encoding })

/-- The name of a number of the given width: only the width of thirty-two bits goes without
saying. -/
def numberName (kind : String) (bits : UInt32) : String :=
  if bits = 32 then kind else kind ++ toString bits.toNat ++ "_t"

/-- The placeholder for all types that cannot be described. -/
def placeholder (s : Store) : NodeId × Store :=
  s.keyedNode none (.basic { name := "Unknown", size := none, encoding := .unspecified })

/-- The node for an enumeration.  Enumerations cannot be described, so there is none. -/
def enumType (_struct : Struct) : Option NodeId :=
  none

/-! ### Composites -/

/-- The kind of composite that a record is described as.  An enumeration has no members to lay out
and is none. -/
def compositeTag (r : Decl.Record) : Except Fault Debug.CompositeTag :=
  match r.keyword with
  | .structKeyword => .ok .structureTag
  | .classKeyword => .ok .classTag
  | .unionKeyword => .ok .unionTag
  | .enumKeyword => .error (.enumComposite r.name)

/-- The heading of the composite for a struct and its record, declared in the given file. -/
def heading (struct : Struct) (r : Decl.Record) (tag : Debug.CompositeTag) (file : Debug.File) :
    Debug.Heading :=
  { name := struct.name
    site := ⟨file.source, r.location.line, r.location.column⟩
    parent := file.unit
    linkageName := struct.name
    flags := .visibility r.isPrivate
    tag }

/-- The constant operand for the value of an initializer: integers and truth values are 32-bit
integers, floating numbers are 32-bit ones, and other values have none. -/
def literalConstant (s : Store) : Option Literal → Option Debug.Constant × Store
  | some (.int v) =>
    let (int, s) := s.internType (.integer 32 true)
    (some ⟨int, .int v⟩, s)
  | some (.float v) =>
    let (float, s) := s.internType (.float 32)
    (some ⟨float, .float v⟩, s)
  | some (.bool v) =>
    let (int, s) := s.internType (.integer 32 true)
    (some ⟨int, .int (if v then 1 else 0)⟩, s)
  | some .other | none => (none, s)

/-- A new member of a composite for a data field whose type is described by `type`, and the extent
of the layout with it. -/
def addMember (s : Store) (composite : NodeId) (extent : Extent) (decl : Decl.Field) (field : Field)
    (type : NodeId) : Extent × Store :=
  let size := s.nodes.sizeInBits type
  let offset := extent.offset field.offset
  let (value, s) := literalConstant s decl.value
  let (file, s) := s.openFile decl.location.file
  let (member, s) := s.unkeyedNode (.member
    { name := field.name.getD decl.name
      type
      site := ⟨file.source, decl.location.line, decl.location.column⟩
      parent := composite
      offset
      size
      flags := .visibility decl.isPrivate
      value })
  let s := (s.stamp member b).pushMember composite member
  (extent.place offset size, s)

/-- One member of a composite: the function of a method, or a new member for a data field. -/
def addSlot (record : String) (composite : NodeId) (extent : Extent) : Slot → Lower Extent
  | .method decl => do
    match (← get).function? decl.id with
    | some function =>
      modify (·.pushMember composite function)
      return extent
    | none => throw (.missingFunction record decl.name)
  | .data decl field => do
    let type ← operand field.type
    modifyGet (addMember b · composite extent decl field type)

/-- All members of a composite, and its size. -/
def populate (record : Decl.Record) (struct : Struct) (composite : NodeId) : Lower Unit := do
  let pairing := pair record struct
  let extent ← pairing.slots.foldlM (addSlot b operand record.name composite) {}
  match pairing.fault with
  | some fault => throw fault
  | none => modify (·.setSize composite extent.size)

/-- The composite for a struct and its record, under the type `a`.  One that already has members is
left as it is. -/
def compositeWith (a : TypeId) (struct : Struct) (record : Decl.Record) : Lower NodeId := do
  let tag ← compositeTag record
  let file ← modifyGet (·.openFile record.location.file)
  let n ← modifyGet (·.compositeType a (heading struct record tag file) 0)
  match (← get).nodes.composite? n with
  | none => throw (.compositeExpected struct.name)
  | some composite =>
    if composite.members.isEmpty then populate b operand record struct n
    return n

/-! ### All types -/

/-- The node for a function type. -/
def functionType (a : TypeId) (signature : Signature) : Lower NodeId := do
  let returnsVoid := (← get).types.has signature.result Shape.isVoid
  let result ← if returnsVoid then pure none else some <$> operand signature.result
  let params ← signature.params.mapM operand
  modifyGet (·.keyedNode (some a) (.functionType { flags := .isPublic, result, params }))

/-- The node for a type of the given shape, which is no pointer. -/
def describe (a : TypeId) : Shape → Lower NodeId
  | .bool => modifyGet (basicType · a "bool" 32 .boolean)
  | .integer bits signed =>
    let name := numberName (if signed then "int" else "uint") bits
    modifyGet (basicType · a name bits (if signed then .signed else .unsigned))
  | .float bits => modifyGet (basicType · a (numberName "float" bits) bits .float)
  | .vector component count => do
    let element ← operand component
    modifyGet (·.keyedNode (some a) (.vector { element, count }))
  | .array element count _ => do
    let element ← operand element
    modifyGet (·.keyedNode (some a) (.array { element, counts := [count] }))
  | .function signature => functionType operand a signature
  | .struct struct =>
    match struct.record with
    | some record =>
      if record.isEnum then
        match enumType struct with
        | some n => return n
        | none => modifyGet placeholder
      else compositeWith b operand a struct record
    | none => modifyGet placeholder
  | _ => modifyGet placeholder

/-- The debug type of a type: the one listed, or else a new one, which becomes an instruction of the
builder's module. -/
def lowerWith (a : TypeId) : Lower NodeId := do
  let s ← get
  match s.debugType? a, s.types.shape? a with
  | some n, _ => return n
  | none, some (.pointer pointee _) => operand pointee
  | none, some shape =>
    let n ← describe b operand a shape
    modify (·.stamp n b)
    return n
  | none, none => throw .unknownHandle

end Lowering

/-- The debug type of a type. -/
def lower (b : BuilderId) (a : TypeId) : Lower NodeId :=
  Lowering.lowerWith b
    (fun u => if _h : u.index < a.index then lower b u else throw .unknownHandle) a
termination_by a.index

/-- The composite for a struct and its record, under the type `a`. -/
def lowerComposite (b : BuilderId) (a : TypeId) (struct : Struct) (record : Decl.Record) :
    Lower NodeId :=
  Lowering.compositeWith b (lower b) a struct record

/-- A type that has a debug type is not described again. -/
theorem lower_of_debugType? {b : BuilderId} {a : TypeId} {n : NodeId} {s : Store}
    (h : s.debugType? a = some n) : lower b a s = .ok (n, s) := by
  rw [lower]
  change (Lowering.lowerWith b _ a).run s = _
  simp only [Lowering.lowerWith, StateT.run_bind, StateT.run_get, pure_bind, h]
  rfl

end ShaderTypes
