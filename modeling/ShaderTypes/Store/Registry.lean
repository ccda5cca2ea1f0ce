import ShaderTypes.Store.Scope

/-!
# The registry of debug types

Most debug types describe one type, and the registry lists them under that type, so that it is
described once.  Members, templates and template parameters describe no type of their own; they are
made anew each time and listed apart.
-/

namespace ShaderTypes.Store

/-- The debug type listed under a type. -/
def debugType? (s : Store) (a : TypeId) : Option NodeId :=
  s.debugTypes.get? (some a)

/-- The store with a node listed under a type, in place of the one listed there before. -/
def recordDebugType (s : Store) (a : TypeId) (n : NodeId) : Store :=
  { s with debugTypes := s.debugTypes.insert (some a) n }

/-- The node listed under a key, whatever it says, or else a new one that says `e`. -/
def keyedNode (s : Store) (key : Option TypeId) (e : Debug.Entry) : NodeId × Store :=
  match s.debugTypes.get? key with
  | some n => (n, s)
  | none =>
    let (n, s) := s.addNode e
    (n, { s with debugTypes := s.debugTypes.insert key n })

/-- A new node that is listed without a type of its own. -/
def unkeyedNode (s : Store) (e : Debug.Entry) : NodeId × Store :=
  let (n, s) := s.addNode e
  (n, { s with unkeyed := s.unkeyed ++ [n] })

/-- A new composite with the given heading and size, not yet with members or a template, under a
type that has no debug type yet. -/
def compositeType (s : Store) (a : TypeId) (heading : Debug.Heading) (size : UInt32) :
    NodeId × Store :=
  s.keyedNode (some a) (.composite { heading with size })

/-- The template attached to the composite listed under a type.  It is made, of the given target,
when it is first asked for. -/
def template (s : Store) (a : TypeId) (target : NodeId) : Except Refusal (NodeId × Store) :=
  match s.debugType? a with
  | none => .error (.unregisteredType (s.types.name a))
  | some n =>
    match s.nodes.composite? n with
    | none => .error (.notAComposite (s.types.name a))
    | some composite =>
      match composite.template with
      | some template => .ok (template, s)
      | none =>
        let (template, s) := s.unkeyedNode (.template { target })
        .ok (template, s.modifyNode n fun node =>
          { node with entry := node.entry.mapComposite ({ · with template := some template }) })

/-- The store with the debug function of a method saved. -/
def saveFunction (s : Store) (m : Decl.MethodId) (n : NodeId) : Store :=
  { s with methods := s.methods.insert m n }

/-- The debug function saved for a method. -/
def function? (s : Store) (m : Decl.MethodId) : Option NodeId :=
  s.methods.get? m

/-! ### What is filled in later -/

/-- The store with a member added to a composite. -/
def pushMember (s : Store) (n member : NodeId) : Store :=
  s.modifyNode n fun node =>
    { node with
      entry := node.entry.mapComposite fun c => { c with members := c.members ++ [member] } }

/-- The store with the size of a composite set. -/
def setSize (s : Store) (n : NodeId) (size : UInt32) : Store :=
  s.modifyNode n fun node => { node with entry := node.entry.mapComposite ({ · with size }) }

/-- The store with a parameter added to a template. -/
def pushParam (s : Store) (n param : NodeId) : Store :=
  s.modifyNode n fun node =>
    { node with
      entry := node.entry.mapTemplate fun t => { t with params := t.params ++ [param] } }

/-- The store with the result type of an instruction set. -/
def setResultType (s : Store) (n : NodeId) (a : TypeId) : Store :=
  s.modifyNode n ({ · with resultType := some a })

/-- The store with the instruction set of an instruction set. -/
def setInstructionSet (s : Store) (n : NodeId) (b : BuilderId) : Store :=
  s.modifyNode n ({ · with instructionSet := some b })

/-- The store with the debug type of a variable or a function set. -/
def setDebugType (s : Store) (n type : NodeId) : Except Fault Store :=
  if (s.nodes.entry? n).any Debug.Entry.carriesType then
    .ok (s.modifyNode n ({ · with debugType := some type }))
  else .error .noDebugType

/-- The store with a node marked as an instruction of a module: it yields `void`, and it belongs to
the instruction set that the builder imported. -/
def stamp (s : Store) (n : NodeId) (b : BuilderId) : Store :=
  let (void, s) := s.internType .void
  (s.setResultType n void).setInstructionSet n b

variable {s : Store} {a : TypeId} {n target : NodeId} {e : Debug.Entry} {key : Option TypeId}

/-- A node that is listed is not made again. -/
theorem keyedNode_of_get? (h : s.debugTypes.get? key = some n) : s.keyedNode key e = (n, s) := by
  simp [keyedNode, h]

/-- The node returned is the one listed. -/
theorem get?_debugTypes_keyedNode :
    (s.keyedNode key e).2.debugTypes.get? key = some (s.keyedNode key e).1 := by
  unfold keyedNode
  split <;> simp_all

end ShaderTypes.Store
