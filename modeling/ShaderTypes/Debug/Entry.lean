import ShaderTypes.Binary64
import ShaderTypes.Debug.Flags
import ShaderTypes.Handle
import ShaderTypes.Named

/-!
# Debug entries

What the debug instructions of a module say, one structure a kind of instruction.  Entries refer to
each other and to types by their handles.
-/

namespace ShaderTypes.Debug

/-- The value of a constant operand. -/
inductive Scalar where
  | int (value : Int64)
  | float (value : Binary64)
deriving DecidableEq

/-- A constant operand. -/
structure Constant where
  /-- The type of the constant. -/
  type : TypeId
  /-- Its value. -/
  value : Scalar
deriving DecidableEq

/-- Where something is declared. -/
structure Site where
  /-- The source node of the file. -/
  source : NodeId
  /-- The line. -/
  line : UInt32
  /-- The column. -/
  column : UInt32
deriving DecidableEq

/-- A source file. -/
structure Source where
  /-- The name of the file. -/
  file : String
  /-- Its text, if it is embedded. -/
  text : Option String := none
deriving DecidableEq

/-- A compilation unit, the outermost scope of a source file. -/
structure CompilationUnit where
  /-- The version of the binary format. -/
  spirvVersion : UInt32
  /-- The DWARF version. -/
  dwarfVersion : UInt32
  /-- The source file. -/
  source : NodeId
  /-- The code of the source language. -/
  language : UInt32
deriving DecidableEq

/-- A lexical block. -/
structure LexicalBlock where
  /-- Where the block opens. -/
  site : Site
  /-- The scope around it. -/
  parent : NodeId
deriving DecidableEq

/-- A function. -/
structure Function where
  /-- The name. -/
  name : String
  /-- Where it is declared. -/
  site : Site
  /-- The scope around it. -/
  parent : NodeId
  /-- The name that the linker sees. -/
  linkageName : String
  /-- The flags. -/
  flags : Flags
  /-- The line on which its scope opens. -/
  scopeLine : UInt32
  /-- The type to describe, if it is known. -/
  type : Option TypeId
deriving DecidableEq

/-- A global variable. -/
structure GlobalVariable where
  /-- The name. -/
  name : String
  /-- Where it is declared. -/
  site : Site
  /-- The scope around it. -/
  parent : NodeId
  /-- The name that the linker sees. -/
  linkageName : String
  /-- The flags. -/
  flags : Flags
  /-- The type to describe, if it is known. -/
  type : Option TypeId
deriving DecidableEq

/-- A local variable. -/
structure LocalVariable where
  /-- The name. -/
  name : String
  /-- Where it is declared. -/
  site : Site
  /-- The scope around it. -/
  parent : NodeId
  /-- The flags. -/
  flags : Flags
  /-- The place among the parameters, counted from one, for a parameter. -/
  argument : Option UInt32
  /-- The type to describe, if it is known. -/
  type : Option TypeId
deriving DecidableEq

/-- How the bits of a basic type are read. -/
inductive Encoding where
  | unspecified
  | address
  | boolean
  | float
  | signed
  | signedChar
  | unsigned
  | unsignedChar
deriving DecidableEq

instance : Named Encoding where
  table :=
    ⟨[("Unspecified", .unspecified), ("Address", .address), ("Boolean", .boolean), ("Float", .float),
      ("Signed", .signed), ("SignedChar", .signedChar), ("Unsigned", .unsigned),
      ("UnsignedChar", .unsignedChar)]⟩
  distinct := by decide
  complete x := by cases x <;> decide

/-- The encoding of the given name. -/
def Encoding.ofName? : String → Option Encoding :=
  Named.ofName?

/-- The code of the encoding. -/
def Encoding.code : Encoding → Nat :=
  Named.place

/-- A type without parts. -/
structure Basic where
  /-- The name. -/
  name : String
  /-- The size in bits, if it is known. -/
  size : Option Constant
  /-- How the bits are read. -/
  encoding : Encoding
deriving DecidableEq

/-- The kind of a composite. -/
inductive CompositeTag where
  | classTag
  | structureTag
  | unionTag
deriving DecidableEq

instance : Named CompositeTag where
  table :=
    ⟨[("Class", .classTag), ("Structure", .structureTag), ("Union", .unionTag)]⟩
  distinct := by decide
  complete x := by cases x <;> decide

/-- The kind of the given name. -/
def CompositeTag.ofName? : String → Option CompositeTag :=
  Named.ofName?

/-- The code of the kind. -/
def CompositeTag.code : CompositeTag → Nat :=
  Named.place

/-- The name of the kind. -/
def CompositeTag.name : CompositeTag → String :=
  Named.name

/-- What is fixed about a composite when it is created. -/
structure Heading where
  /-- The name. -/
  name : String
  /-- Where it is declared. -/
  site : Site
  /-- The scope around it. -/
  parent : NodeId
  /-- The name that the linker sees. -/
  linkageName : String
  /-- The flags. -/
  flags : Flags
  /-- The kind. -/
  tag : CompositeTag
deriving DecidableEq

/-- A type with members.  Members, size and template are filled in after its creation, so that
members can refer to it. -/
structure Composite extends Heading where
  /-- The size in bits. -/
  size : UInt32
  /-- The members in order: data members and functions. -/
  members : List NodeId := []
  /-- The template it is an instance of, if one is attached. -/
  template : Option NodeId := none
deriving DecidableEq

/-- A data member of a composite. -/
structure Member where
  /-- The name. -/
  name : String
  /-- The debug type of the member. -/
  type : NodeId
  /-- Where it is declared. -/
  site : Site
  /-- The composite it belongs to. -/
  parent : NodeId
  /-- The offset in bits. -/
  offset : UInt32
  /-- The size in bits. -/
  size : UInt32
  /-- The flags. -/
  flags : Flags
  /-- Its value, for a static member with a constant one. -/
  value : Option Constant
deriving DecidableEq

/-- A type of a fixed number of equal elements, in one or more dimensions. -/
structure ArrayType where
  /-- The type of the elements. -/
  element : NodeId
  /-- The number of elements in each dimension. -/
  counts : List UInt32
deriving DecidableEq

/-- A vector type. -/
structure VectorType where
  /-- The type of the components. -/
  element : NodeId
  /-- The number of components. -/
  count : UInt32
deriving DecidableEq

/-- A function type. -/
structure FunctionType where
  /-- The flags. -/
  flags : Flags
  /-- The type returned, absent for `void`. -/
  result : Option NodeId
  /-- The types of the parameters in order. -/
  params : List NodeId
deriving DecidableEq

/-- A template. -/
structure Template where
  /-- What the template is of. -/
  target : NodeId
  /-- The parameters in order. -/
  params : List NodeId := []
deriving DecidableEq

/-- A parameter of a template. -/
structure TemplateParameter where
  /-- The name. -/
  name : String
  /-- The type given for it, for a type parameter. -/
  actual : Option TypeId
  /-- The value given for it, for a value parameter. -/
  value : Option Constant
  /-- Where it is declared. -/
  site : Site
deriving DecidableEq

/-- What a debug instruction says. -/
inductive Entry where
  | source (e : Source)
  | compilationUnit (e : CompilationUnit)
  | lexicalBlock (e : LexicalBlock)
  | function (e : Function)
  | globalVariable (e : GlobalVariable)
  | localVariable (e : LocalVariable)
  | basic (e : Basic)
  | composite (e : Composite)
  | member (e : Member)
  | array (e : ArrayType)
  | vector (e : VectorType)
  | functionType (e : FunctionType)
  | template (e : Template)
  | templateParameter (e : TemplateParameter)
deriving DecidableEq

namespace Entry

/-- The name of the instruction in its instruction set. -/
def opcode : Entry → String
  | .source _ => "DebugSource"
  | .compilationUnit _ => "DebugCompilationUnit"
  | .lexicalBlock _ => "DebugLexicalBlock"
  | .function _ => "DebugFunction"
  | .globalVariable _ => "DebugGlobalVariable"
  | .localVariable _ => "DebugLocalVariable"
  | .basic _ => "DebugTypeBasic"
  | .composite _ => "DebugTypeComposite"
  | .member _ => "DebugTypeMember"
  | .array _ => "DebugTypeArray"
  | .vector _ => "DebugTypeVector"
  | .functionType _ => "DebugTypeFunction"
  | .template _ => "DebugTypeTemplate"
  | .templateParameter _ => "DebugTypeTemplateParameter"

/-- The name that the entry gives to what it describes. -/
def name? : Entry → Option String
  | .source e => some e.file
  | .function e => some e.name
  | .globalVariable e => some e.name
  | .localVariable e => some e.name
  | .basic e => some e.name
  | .composite e => some e.name
  | .member e => some e.name
  | .templateParameter e => some e.name
  | _ => none

/-- Whether the entry describes a type or a part of one. -/
def isDebugType : Entry → Bool
  | .basic _ | .composite _ | .member _ | .array _ | .vector _ | .functionType _ | .template _
  | .templateParameter _ => true
  | _ => false

/-- Whether the entry describes a variable or a function, which has a type. -/
def carriesType : Entry → Bool
  | .function _ | .globalVariable _ | .localVariable _ => true
  | _ => false

/-- The type of a variable or a function, if it is known. -/
def type? : Entry → Option TypeId
  | .function e => e.type
  | .globalVariable e => e.type
  | .localVariable e => e.type
  | _ => none

/-- The function that the entry describes. -/
def function? : Entry → Option Function
  | .function e => some e
  | _ => none

/-- The composite that the entry describes. -/
def composite? : Entry → Option Composite
  | .composite e => some e
  | _ => none

/-- The member that the entry describes. -/
def member? : Entry → Option Member
  | .member e => some e
  | _ => none

/-- The entry with `f` applied to the composite it describes. -/
def mapComposite (f : Composite → Composite) : Entry → Entry
  | .composite e => .composite (f e)
  | e => e

/-- The entry with `f` applied to the template it describes. -/
def mapTemplate (f : Template → Template) : Entry → Entry
  | .template e => .template (f e)
  | e => e

/-- The constant that the entry has as an operand. -/
def constant? : Entry → Option Constant
  | .basic e => e.size
  | .member e => e.value
  | .templateParameter e => e.value
  | _ => none

/-- The types that the entry refers to. -/
def types (e : Entry) : List TypeId :=
  let own :=
    match e with
    | .templateParameter e => e.actual.toList
    | e => e.type?.toList
  own ++ e.constant?.toList.map Constant.type

/-- The nodes that the entry refers to. -/
def nodes : Entry → List NodeId
  | .source _ | .basic _ => []
  | .compilationUnit e => [e.source]
  | .lexicalBlock e => [e.site.source, e.parent]
  | .function e => [e.site.source, e.parent]
  | .globalVariable e => [e.site.source, e.parent]
  | .localVariable e => [e.site.source, e.parent]
  | .composite e => [e.site.source, e.parent] ++ e.members ++ e.template.toList
  | .member e => [e.type, e.site.source, e.parent]
  | .array e => [e.element]
  | .vector e => [e.element]
  | .functionType e => e.result.toList ++ e.params
  | .template e => e.target :: e.params
  | .templateParameter e => [e.site.source]

end Entry

end ShaderTypes.Debug
