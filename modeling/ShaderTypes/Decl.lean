import ShaderTypes.Binary64
import ShaderTypes.Named

/-!
# Declarations of the front end

What a front end says about the program it compiles: records with their members in order, and for a
static field the value of its initializer.  Every declaration is an individual.  Two declarations
with the same contents are still two, so each carries an identity, and only identities are ever
compared.
-/

namespace ShaderTypes

/-- A place in a source file. -/
structure Location where
  /-- The name of the file. -/
  file : String
  /-- The line. -/
  line : UInt32
  /-- The column. -/
  column : UInt32
deriving DecidableEq

/-- The value of a constant initializer. -/
inductive Literal where
  | int (value : Int64)
  | float (value : Binary64)
  | bool (value : Bool)
  /-- A value that is not a scalar. -/
  | other
deriving DecidableEq

namespace Decl

/-- The identity of a field declaration. -/
structure FieldId where
  /-- The number of the declaration. -/
  index : Nat
deriving DecidableEq

/-- The identity of a method declaration. -/
structure MethodId where
  /-- The number of the declaration. -/
  index : Nat
deriving DecidableEq

/-- The identity of a record declaration. -/
structure RecordId where
  /-- The number of the declaration. -/
  index : Nat
deriving DecidableEq

/-- The declaration of a data field. -/
structure Field where
  /-- Which declaration this is. -/
  id : FieldId
  /-- The name of the field. -/
  name : String
  /-- Where the field is declared. -/
  location : Location
  /-- Whether the field is private to its module. -/
  isPrivate : Bool := false
  /-- The value of the initializer, for a static field that has a constant one. -/
  value : Option Literal := none
deriving DecidableEq

/-- The declaration of a method. -/
structure Method where
  /-- Which declaration this is. -/
  id : MethodId
  /-- The name of the method. -/
  name : String
  /-- Where the method is declared. -/
  location : Location
deriving DecidableEq

/-- The keyword that a record is declared with. -/
inductive Keyword where
  | structKeyword
  | classKeyword
  | unionKeyword
  | enumKeyword
deriving DecidableEq

instance : Named Keyword where
  table :=
    ⟨[("Struct", .structKeyword), ("Class", .classKeyword), ("Union", .unionKeyword),
      ("Enum", .enumKeyword)]⟩
  distinct := by decide
  complete x := by cases x <;> decide

/-- The keyword of the given name. -/
def Keyword.ofName? : String → Option Keyword :=
  Named.ofName?

/-- A member of a record.  A record declared inside another one takes no part in its layout, so it
is only named. -/
inductive Member where
  | field (decl : Field)
  | method (decl : Method)
  | record (id : RecordId)
deriving DecidableEq

/-- The declaration of a record. -/
structure Record where
  /-- Which declaration this is. -/
  id : RecordId
  /-- The name of the record. -/
  name : String
  /-- The keyword it is declared with. -/
  keyword : Keyword
  /-- Where the record is declared. -/
  location : Location
  /-- Whether the record is private to its module. -/
  isPrivate : Bool := false
  /-- The members in the order of their declaration. -/
  members : List Member := []
deriving DecidableEq

/-- Whether the record is an enumeration. -/
def Record.isEnum (r : Record) : Bool :=
  r.keyword == .enumKeyword

end Decl

/-- A type of the source language that has no place in the type table yet. -/
inductive Unresolved where
  /-- A built-in type, known by its spelling. -/
  | named (spelling : String)
  | record (decl : Decl.Record)
deriving DecidableEq

namespace Unresolved

/-- The spelling of a built-in type, the name of a record. -/
def name : Unresolved → String
  | named spelling => spelling
  | record decl => decl.name

/-- Whether two unresolved types are the same: built-in types by their spelling, records by which
declaration they are. -/
def agrees : Unresolved → Unresolved → Bool
  | named a, named b => a == b
  | record a, record b => a.id == b.id
  | _, _ => false

/-- Agreement of unresolved types is symmetric. -/
theorem agrees_comm (s t : Unresolved) : s.agrees t = t.agrees s := by
  cases s <;> cases t <;> simp [agrees, Bool.beq_comm]

end Unresolved

end ShaderTypes
