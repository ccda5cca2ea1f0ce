import ShaderTypes.Block
import ShaderTypes.Debug.File
import ShaderTypes.Debug.NodeTable
import ShaderTypes.Options
import ShaderTypes.OrderedMap
import ShaderTypes.TypeTable.Request

/-!
# The store of one compilation

The store holds every type and every debug node that a compilation made.  It is a plain value: an
operation takes a store and gives back the next one, and handles into the older store stay good in
the newer one because both tables only grow.

This file has the store itself and the operations that touch one of its parts; the files beside it
have those that keep several parts in step.
-/

namespace ShaderTypes

/-- Everything that one compilation made. -/
structure Store where
  /-- The options of the compilation. -/
  options : Options := {}
  /-- The texts interned so far, each once, in the order of their first request. -/
  texts : List String := []
  /-- The types. -/
  types : TypeTable := {}
  /-- The debug nodes. -/
  nodes : Debug.NodeTable := {}
  /-- The source files, in the order in which they were first needed. -/
  files : OrderedMap String Debug.File := {}
  /-- The scope most recently opened, or returned to by closing one, in any file. -/
  currentScope : Option NodeId := none
  /-- The debug type of each type that has one of its own; without a type, the placeholder shared
  by all types that cannot be described. -/
  debugTypes : OrderedMap (Option TypeId) NodeId := {}
  /-- The nodes that describe no type of their own (members, templates and template parameters), in
  the order of creation. -/
  unkeyed : List NodeId := []
  /-- The debug function of each method that has one. -/
  methods : OrderedMap Decl.MethodId NodeId := {}
deriving DecidableEq

namespace Store

/-- The store that a compilation starts from. -/
def new (options : Options) : Store :=
  { options }

/-- The place of a text among the interned ones, where it is put if it is new. -/
def internText (s : Store) (text : String) : Nat × Store :=
  match s.texts.findIdx? (· == text) with
  | some i => (i, s)
  | none => (s.texts.length, { s with texts := s.texts ++ [text] })

/-- The type of the given shape, which the caller knows to be a possible one. -/
def internType (s : Store) (shape : Shape) : TypeId × Store :=
  let (a, types) := s.types.intern shape
  (a, { s with types })

/-- The type of the given shape, if there can be one. -/
def requestType (s : Store) (shape : Shape) : Except Fault (TypeId × Store) := do
  let (a, types) ← s.types.request shape
  return (a, { s with types })

/-- The type of a buffer of raw bytes. -/
def byteAddressBuffer (s : Store) (writable : Bool) : TypeId × Store :=
  let (a, types) := s.types.byteAddressBuffer writable
  (a, { s with types })

/-- The type of the counter beside an append and consume buffer. -/
def counterBuffer (s : Store) : TypeId × Store :=
  let (a, types) := s.types.counterBuffer
  (a, { s with types })

/-- A new node. -/
def addNode (s : Store) (e : Debug.Entry) : NodeId × Store :=
  (⟨s.nodes.size⟩, { s with nodes := s.nodes.push e })

/-- The store with one node changed. -/
def modifyNode (s : Store) (n : NodeId) (f : Debug.Node → Debug.Node) : Store :=
  { s with nodes := s.nodes.modify n f }

/-- The integer constant of the given type. -/
def intConstant (s : Store) (a : TypeId) (value : Int64) : Except Fault Debug.Constant :=
  if s.types.has a Shape.isInteger then .ok ⟨a, .int value⟩
  else .error (.integerConstant (s.types.name a))

/-- The floating constant of the given type. -/
def floatConstant (s : Store) (a : TypeId) (value : Binary64) : Except Fault Debug.Constant :=
  if s.types.has a Shape.isFloat then .ok ⟨a, .float value⟩
  else .error (.floatConstant (s.types.name a))

/-- Acceptance of a request for a raw block, of which nothing else is kept. -/
def allocate (b : Block) : Except Fault Unit :=
  if !b.isValid then .error (.invalidBlock b.size b.align)
  else if b.fits then .ok ()
  else .error .outOfMemory

end Store

end ShaderTypes
