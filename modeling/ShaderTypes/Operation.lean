import ShaderTypes.Lowering.Pass
import ShaderTypes.Store.Registry

/-!
# Operations on the store

Everything that a compiler can ask of the store, as data.  Running a list of operations from a new
store is a compilation, and the stores that occur in one are exactly those reached this way.

The handles in an operation have to be ones that the store gave out, and the constants have to fit
their types; an operation with any others is a fault and changes nothing.
-/

namespace ShaderTypes

/-- A request to the store. -/
inductive Operation where
  /-- Finds or adds a text. -/
  | internText (text : String)
  /-- Asks for a raw block of memory. -/
  | allocate (block : Block)
  /-- Changes the shader model. -/
  | setModel (model : ShaderModel)
  /-- Changes the major version of the profile. -/
  | setMajor (version : UInt32)
  /-- Changes the minor version of the profile. -/
  | setMinor (version : UInt32)
  /-- Finds or makes the type of a shape. -/
  | type (shape : Shape)
  /-- Finds or makes the type of a buffer of raw bytes. -/
  | byteAddressBuffer (writable : Bool)
  /-- Finds or makes the type of the counter beside an append and consume buffer. -/
  | counterBuffer
  /-- Makes a source file known. -/
  | openFile (name : String)
  /-- Opens a scope in a source file. -/
  | pushScope (file : String) (scope : NodeId)
  /-- Closes the innermost scope of a source file. -/
  | popScope (file : String)
  /-- Saves the debug function of a method. -/
  | saveFunction (method : Decl.MethodId) (function : NodeId)
  /-- Makes a lexical block. -/
  | lexicalBlock (e : Debug.LexicalBlock)
  /-- Makes a function. -/
  | function (e : Debug.Function)
  /-- Makes a global variable. -/
  | globalVariable (e : Debug.GlobalVariable)
  /-- Makes a local variable. -/
  | localVariable (e : Debug.LocalVariable)
  /-- Lists a node under a type. -/
  | recordDebugType (a : TypeId) (n : NodeId)
  /-- Finds a node or makes a basic type, under a type or as the shared placeholder. -/
  | basic (a : Option TypeId) (e : Debug.Basic)
  /-- Finds a node or makes a composite under a type. -/
  | composite (a : TypeId) (heading : Debug.Heading) (size : UInt32)
  /-- Finds a node or makes an array type under a type. -/
  | array (a : TypeId) (e : Debug.ArrayType)
  /-- Finds a node or makes a vector type under a type. -/
  | vector (a : TypeId) (e : Debug.VectorType)
  /-- Finds a node or makes a function type under a type. -/
  | functionType (a : TypeId) (e : Debug.FunctionType)
  /-- Makes a member. -/
  | member (e : Debug.Member)
  /-- Finds or makes the template of the composite under a type. -/
  | template (a : TypeId) (target : NodeId)
  /-- Makes a template parameter. -/
  | templateParameter (e : Debug.TemplateParameter)
  /-- Adds a member to a composite. -/
  | pushMember (n member : NodeId)
  /-- Sets the size of a composite. -/
  | setSize (n : NodeId) (size : UInt32)
  /-- Adds a parameter to a template. -/
  | pushParam (n param : NodeId)
  /-- Sets the result type of an instruction. -/
  | setResultType (n : NodeId) (a : TypeId)
  /-- Sets the instruction set of an instruction. -/
  | setInstructionSet (n : NodeId) (b : BuilderId)
  /-- Sets the debug type of a variable or a function. -/
  | setDebugType (n type : NodeId)
  /-- Describes a type. -/
  | lower (b : BuilderId) (a : TypeId)
  /-- Describes a struct and its record under a type. -/
  | lowerComposite (b : BuilderId) (a : TypeId) (struct : Struct) (record : Decl.Record)
  /-- Completes the debug section of a module. -/
  | lowerModule (b : BuilderId) (m : Module)
deriving DecidableEq

/-- What the store answers. -/
inductive Reply where
  /-- Nothing but that it is done. -/
  | done
  /-- The place of a text. -/
  | text (place : Nat)
  /-- A type. -/
  | type (a : TypeId)
  /-- The debug state of a source file. -/
  | file (state : Debug.File)
  /-- A debug node. -/
  | node (n : NodeId)
  /-- A module after a pass, and whether the pass came to its end. -/
  | module (completed : Bool) (m : Module)
  /-- That the request was turned down. -/
  | refused (reason : Refusal)
deriving DecidableEq

namespace Operation

/-- The entry of the node that the operation makes, if it makes one from an entry of the caller. -/
def entry? : Operation → Option Debug.Entry
  | .lexicalBlock e => some (.lexicalBlock e)
  | .function e => some (.function e)
  | .globalVariable e => some (.globalVariable e)
  | .localVariable e => some (.localVariable e)
  | .basic _ e => some (.basic e)
  | .composite _ heading size => some (.composite { heading with size })
  | .array _ e => some (.array e)
  | .vector _ e => some (.vector e)
  | .functionType _ e => some (.functionType e)
  | .member e => some (.member e)
  | .templateParameter e => some (.templateParameter e)
  | _ => none

/-- The types that the operation mentions outside its entry. -/
def subjects : Operation → List TypeId
  | .type shape => shape.operands
  | .recordDebugType a _ | .composite a _ _ | .array a _ | .vector a _ | .functionType a _
  | .template a _ | .setResultType _ a | .lower _ a => [a]
  | .basic a _ => a.toList
  | .lowerComposite _ a struct _ => a :: struct.fields.map Field.type
  | _ => []

/-- The nodes that the operation mentions outside its entry. -/
def targets : Operation → List NodeId
  | .pushScope _ n | .saveFunction _ n | .recordDebugType _ n | .template _ n | .setSize n _
  | .setResultType n _ | .setInstructionSet n _ => [n]
  | .pushMember n m | .pushParam n m | .setDebugType n m => [n, m]
  | .lowerModule _ m => m.instructions
  | _ => []

/-- The types that the operation mentions. -/
def types (op : Operation) : List TypeId :=
  op.subjects ++ (op.entry?.map Debug.Entry.types).getD []

/-- The nodes that the operation mentions. -/
def nodes (op : Operation) : List NodeId :=
  op.targets ++ (op.entry?.map Debug.Entry.nodes).getD []

/-- The constant that the operation mentions. -/
def constant? (op : Operation) : Option Debug.Constant :=
  op.entry?.bind Debug.Entry.constant?

end Operation

namespace Store

/-- Whether a constant fits its type. -/
def fits (s : Store) (c : Debug.Constant) : Bool :=
  match c.value with
  | .int _ => s.types.has c.type Shape.isInteger
  | .float _ => s.types.has c.type Shape.isFloat

/-- Whether the store gave out every handle of an operation, and its constant fits. -/
def knows (s : Store) (op : Operation) : Bool :=
  op.types.all (·.index < s.types.size) && op.nodes.all (·.index < s.nodes.size) &&
    op.constant?.all s.fits

/-- The answer to an operation with known handles, and the store after it. -/
def perform (s : Store) : Operation → Except Fault (Reply × Store)
  | .internText text => let (i, s) := s.internText text; .ok (.text i, s)
  | .allocate block => do Store.allocate block; return (.done, s)
  | .setModel model => .ok (.done, { s with options := { s.options with model } })
  | .setMajor major => .ok (.done, { s with options := { s.options with major } })
  | .setMinor minor => .ok (.done, { s with options := { s.options with minor } })
  | .type shape => do let (a, s) ← s.requestType shape; return (.type a, s)
  | .byteAddressBuffer writable => let (a, s) := s.byteAddressBuffer writable; .ok (.type a, s)
  | .counterBuffer => let (a, s) := s.counterBuffer; .ok (.type a, s)
  | .openFile name => let (file, s) := s.openFile name; .ok (.file file, s)
  | .pushScope name scope => .ok (.done, s.pushScope name scope)
  | .popScope name =>
    let s := (s.openFile name).2
    match s.popScope name with
    | .ok s => .ok (.done, s)
    | .error reason => .ok (.refused reason, s)
  | .saveFunction method n => .ok (.done, s.saveFunction method n)
  | .lexicalBlock e => let (n, s) := s.addNode (.lexicalBlock e); .ok (.node n, s)
  | .function e => let (n, s) := s.addNode (.function e); .ok (.node n, s)
  | .globalVariable e => let (n, s) := s.addNode (.globalVariable e); .ok (.node n, s)
  | .localVariable e => let (n, s) := s.addNode (.localVariable e); .ok (.node n, s)
  | .recordDebugType a n => .ok (.done, s.recordDebugType a n)
  | .basic a e => let (n, s) := s.keyedNode a (.basic e); .ok (.node n, s)
  | .composite a heading size => let (n, s) := s.compositeType a heading size; .ok (.node n, s)
  | .array a e => let (n, s) := s.keyedNode (some a) (.array e); .ok (.node n, s)
  | .vector a e => let (n, s) := s.keyedNode (some a) (.vector e); .ok (.node n, s)
  | .functionType a e => let (n, s) := s.keyedNode (some a) (.functionType e); .ok (.node n, s)
  | .member e => let (n, s) := s.unkeyedNode (.member e); .ok (.node n, s)
  | .template a target =>
    match s.template a target with
    | .ok (n, s) => .ok (.node n, s)
    | .error reason => .ok (.refused reason, s)
  | .templateParameter e => let (n, s) := s.unkeyedNode (.templateParameter e); .ok (.node n, s)
  | .pushMember n member => .ok (.done, s.pushMember n member)
  | .setSize n size => .ok (.done, s.setSize n size)
  | .pushParam n param => .ok (.done, s.pushParam n param)
  | .setResultType n a => .ok (.done, s.setResultType n a)
  | .setInstructionSet n b => .ok (.done, s.setInstructionSet n b)
  | .setDebugType n type => do let s ← s.setDebugType n type; return (.done, s)
  | .lower b a => do let (n, s) ← ShaderTypes.lower b a s; return (.node n, s)
  | .lowerComposite b a struct record => do
    let (n, s) ← ShaderTypes.lowerComposite b a struct record s
    return (.node n, s)
  | .lowerModule b m => do
    let (completed, m, s) ← ShaderTypes.lowerModule b m s
    return (.module completed m, s)

/-- The answer to an operation, and the store after it. -/
def run (s : Store) (op : Operation) : Except Fault (Reply × Store) :=
  if s.knows op then s.perform op else .error .unknownHandle

/-- The answers to a list of operations, and the store after them. -/
def runAll (s : Store) : List Operation → Except Fault (List Reply × Store)
  | [] => .ok ([], s)
  | op :: ops => do
    let (reply, s) ← s.run op
    let (replies, s) ← s.runAll ops
    return (reply :: replies, s)

/-- Whether a store occurs in a compilation. -/
def Reachable (s : Store) : Prop :=
  ∃ options ops replies, (Store.new options).runAll ops = .ok (replies, s)

/-- A new store is reachable. -/
theorem reachable_new (options : Options) : (Store.new options).Reachable :=
  ⟨options, [], [], rfl⟩

/-- A list of operations runs like its parts one after the other. -/
theorem runAll_append (s : Store) (ops ops' : List Operation) :
    s.runAll (ops ++ ops') = (do
      let (replies, s) ← s.runAll ops
      let (replies', s) ← s.runAll ops'
      return (replies ++ replies', s)) := by
  induction ops generalizing s with
  | nil => cases h : s.runAll ops' <;> simp [runAll, bind, Except.bind, pure, Except.pure, h]
  | cons op ops ih =>
    simp only [List.cons_append, runAll, ih, bind, Except.bind]
    cases s.run op with
    | error fault => rfl
    | ok result =>
      simp only
      cases result.2.runAll ops with
      | error fault => rfl
      | ok result' =>
        simp only [pure, Except.pure]
        cases result'.2.runAll ops' <;> rfl

/-- What an operation makes of a reachable store is reachable. -/
theorem Reachable.run {s t : Store} {op : Operation} {reply : Reply} (hs : s.Reachable)
    (h : s.run op = .ok (reply, t)) : t.Reachable := by
  obtain ⟨options, ops, replies, hops⟩ := hs
  refine ⟨options, ops ++ [op], replies ++ [reply], ?_⟩
  simp [runAll_append, hops, runAll, h, bind, Except.bind, pure, Except.pure]

end Store

end ShaderTypes
