import ShaderTypes.Shape.Image
import ShaderTypes.Shape.Storage
import ShaderTypes.Shape.Struct

/-!
# Shapes of types

The shape of a type says how it is built from other types.  The types it is built from are its
operands.  A hybrid shape wraps an unresolved type of the front end instead and has no operands.

`Shape.agrees` compares two shapes up to a relation on their operands.  With identity for the
relation it says that two shapes are built from the very same types, with likeness that they look
the same all the way down.
-/

namespace ShaderTypes

/-- A function type. -/
structure Signature where
  /-- The type returned. -/
  result : TypeId
  /-- The types of the parameters in order. -/
  params : List TypeId
  /-- Whether the function is a member of a record. -/
  isMember : Bool := false
deriving DecidableEq

/-- Whether two function types have related results and parameters. -/
def Signature.agrees (same : TypeId → TypeId → Bool) (a b : Signature) : Bool :=
  same a.result b.result && a.params.isEqv b.params same && a.isMember == b.isMember

/-- How a type is built. -/
inductive Shape where
  | void
  | bool
  | integer (bits : UInt32) (signed : Bool)
  | float (bits : UInt32)
  | vector (component : TypeId) (count : UInt32)
  /-- A matrix of floating columns; an integer matrix is an array of vectors. -/
  | matrix (column : TypeId) (count : UInt32)
  | array (element : TypeId) (count : UInt32) (stride : Option UInt32)
  | runtimeArray (element : TypeId) (stride : Option UInt32)
  | image (image : Image)
  | sampledImage (image : TypeId)
  | sampler
  | accelerationStructure
  | pointer (pointee : TypeId) (storage : Storage)
  | function (signature : Signature)
  | struct (struct : Struct)
  | hybridPointer (pointee : Unresolved) (storage : Storage)
  | hybridSampledImage (image : Unresolved)
  | hybridStruct (struct : HybridStruct)
deriving DecidableEq

namespace Shape

/-- Whether the shape is `void`. -/
def isVoid : Shape → Bool
  | .void => true
  | _ => false

/-- Whether the shape is an integer. -/
def isInteger : Shape → Bool
  | .integer .. => true
  | _ => false

/-- Whether the shape is a floating number. -/
def isFloat : Shape → Bool
  | .float _ => true
  | _ => false

/-- Whether the shape is a number. -/
def isNumerical (s : Shape) : Bool :=
  s.isInteger || s.isFloat

/-- Whether the shape is a number or a truth value. -/
def isScalar : Shape → Bool
  | .bool => true
  | s => s.isNumerical

/-- Whether the shape is an image. -/
def isImage : Shape → Bool
  | .image _ => true
  | _ => false

/-- Whether the shape wraps an unresolved type. -/
def isHybrid : Shape → Bool
  | .hybridPointer .. | .hybridSampledImage _ | .hybridStruct _ => true
  | _ => false

/-- The struct that the shape is, if it is one. -/
def struct? : Shape → Option Struct
  | .struct s => some s
  | _ => none

/-- The function type that the shape is, if it is one. -/
def signature? : Shape → Option Signature
  | .function s => some s
  | _ => none

/-- The types that the shape is built from, in order. -/
def operands : Shape → List TypeId
  | .vector u _ | .matrix u _ | .array u _ _ | .runtimeArray u _ | .sampledImage u
  | .pointer u _ => [u]
  | .image i => [i.sampled]
  | .function s => s.result :: s.params
  | .struct s => s.fields.map Field.type
  | _ => []

/-- Whether two shapes are built the same way from operands that are related one by one.  The
declarations that a struct remembers are not compared. -/
def agrees (same : TypeId → TypeId → Bool) : Shape → Shape → Bool
  | .void, .void => true
  | .bool, .bool => true
  | .integer b s, .integer b' s' => b == b' && s == s'
  | .float b, .float b' => b == b'
  | .vector u n, .vector u' n' => same u u' && n == n'
  | .matrix u n, .matrix u' n' => same u u' && n == n'
  | .array u n d, .array u' n' d' => same u u' && n == n' && d == d'
  | .runtimeArray u d, .runtimeArray u' d' => same u u' && d == d'
  | .image i, .image i' => i.agrees same i'
  | .sampledImage u, .sampledImage u' => same u u'
  | .sampler, .sampler => true
  | .accelerationStructure, .accelerationStructure => true
  | .pointer u c, .pointer u' c' => same u u' && c == c'
  | .function s, .function s' => s.agrees same s'
  | .struct s, .struct s' => s.agrees same s'
  | .hybridPointer u c, .hybridPointer u' c' => u.agrees u' && c == c'
  | .hybridSampledImage u, .hybridSampledImage u' => u.agrees u'
  | .hybridStruct s, .hybridStruct s' => s.agrees s'
  | _, _ => false

/-- Whether the table tells shapes of this kind apart by the identity of their operand.  The other
kinds are told apart by what their operands look like. -/
def isKeyedByIdentity : Shape → Bool
  | .vector .. | .matrix .. | .sampledImage _ | .pointer .. => true
  | _ => false

/-- A hybrid shape has no operands. -/
theorem operands_of_isHybrid {s : Shape} (h : s.isHybrid = true) : s.operands = [] := by
  cases s <;> simp_all [isHybrid, operands]

/-- The name of a type of this shape, from the names of its operands. -/
def name (operand : TypeId → String) : Shape → String
  | .void => "void"
  | .bool => "bool"
  | .integer bits signed =>
    (if signed then "int" else "uint") ++ if bits = 32 then "" else toString bits.toNat
  | .float bits => "float" ++ if bits = 32 then "" else toString bits.toNat
  | .vector u n => "v" ++ toString n.toNat ++ operand u
  | .matrix u n => "mat" ++ toString n.toNat ++ operand u
  | .array u n _ => "_arr_" ++ operand u ++ "_" ++ toString n.toNat
  | .runtimeArray u _ => "_runtimearr_" ++ operand u
  | .image i => "type.image." ++ operand i.sampled
  | .sampledImage u => "type.sampled." ++ operand u
  | .sampler => "type.sampler"
  | .accelerationStructure => "accelerationStructureNV"
  | .pointer u c => "_ptr_" ++ c.name ++ "_" ++ operand u
  | .function s => "fn(" ++ ", ".intercalate (s.params.map operand) ++ ") -> " ++ operand s.result
  | .struct s => s.name
  | .hybridPointer u c => "_ptr_" ++ c.name ++ "_" ++ u.name
  | .hybridSampledImage u => "type.sampled." ++ u.name
  | .hybridStruct s => s.name

end Shape

end ShaderTypes
