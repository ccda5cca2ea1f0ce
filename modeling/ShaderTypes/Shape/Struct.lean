import ShaderTypes.Decl
import ShaderTypes.Handle

/-!
# Structs

A struct in the type table lists its fields by type, name and offset, and may remember the record
and the field declarations that it was made from.  What it remembers is for describing it to a
debugger and takes no part in which struct it is.

A hybrid struct has fields whose types are still unresolved.
-/

namespace ShaderTypes

/-- How a struct is used at the interface of a shader. -/
inductive Interface where
  | internalStorage
  | storageBuffer
  | uniformBuffer
deriving DecidableEq

instance : Named Interface where
  table :=
    ⟨[("InternalStorage", .internalStorage), ("StorageBuffer", .storageBuffer),
      ("UniformBuffer", .uniformBuffer)]⟩
  distinct := by decide
  complete x := by cases x <;> decide

/-- The use of the given name. -/
def Interface.ofName? : String → Option Interface :=
  Named.ofName?

/-- The code of the use. -/
def Interface.code : Interface → Nat :=
  Named.place

/-- A field of a struct. -/
structure Field where
  /-- The type of the field. -/
  type : TypeId
  /-- Its name, if it has one. -/
  name : Option String := none
  /-- Its offset in bytes, if the layout fixed one. -/
  offset : Option UInt32 := none
  /-- The declaration it was made from, if that is known. -/
  decl : Option Decl.Field := none
deriving DecidableEq

/-- Whether two fields have related types, and equal names and offsets. -/
def Field.agrees (same : TypeId → TypeId → Bool) (a b : Field) : Bool :=
  same a.type b.type && a.name == b.name && a.offset == b.offset

/-- A struct. -/
structure Struct where
  /-- The fields in order. -/
  fields : List Field
  /-- The name. -/
  name : String
  /-- Whether the shader may only read it. -/
  readOnly : Bool := false
  /-- How it is used at the interface. -/
  interface : Interface := .internalStorage
  /-- The record it was made from, if that is known. -/
  record : Option Decl.Record := none
deriving DecidableEq

/-- Whether two structs have equal names and uses, and fields that agree one by one. -/
def Struct.agrees (same : TypeId → TypeId → Bool) (a b : Struct) : Bool :=
  a.name == b.name && a.readOnly == b.readOnly && a.interface == b.interface &&
    a.fields.isEqv b.fields (Field.agrees same)

/-- A field of a hybrid struct. -/
structure HybridField where
  /-- The unresolved type of the field. -/
  type : Unresolved
  /-- Its name, if it has one. -/
  name : Option String := none
  /-- Its offset in bytes, if the layout fixed one. -/
  offset : Option UInt32 := none
deriving DecidableEq

/-- Whether two fields have the same unresolved type, and equal names and offsets. -/
def HybridField.agrees (a b : HybridField) : Bool :=
  a.type.agrees b.type && a.name == b.name && a.offset == b.offset

/-- A struct whose fields are not resolved. -/
structure HybridStruct where
  /-- The fields in order. -/
  fields : List HybridField
  /-- The name. -/
  name : String
  /-- Whether the shader may only read it. -/
  readOnly : Bool := false
  /-- How it is used at the interface. -/
  interface : Interface := .internalStorage
deriving DecidableEq

/-- Whether two hybrid structs have equal names and uses, and fields that agree one by one. -/
def HybridStruct.agrees (a b : HybridStruct) : Bool :=
  a.name == b.name && a.readOnly == b.readOnly && a.interface == b.interface &&
    a.fields.isEqv b.fields HybridField.agrees

end ShaderTypes
