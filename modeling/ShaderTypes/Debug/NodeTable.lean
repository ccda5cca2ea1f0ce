import ShaderTypes.Debug.Entry

/-!
# The node table

Debug nodes are kept in one table in the order of their creation and are only ever added at its end.
A node is an entry together with what is filled in later: the result type and the instruction set of
the instruction, and for a variable or a function its debug type.

Nodes may refer to each other in cycles, since a member names its composite and the composite lists
its members.  The element of an array or a vector is fixed when the node is made and stands before
it, which is why sizes can be computed.
-/

namespace ShaderTypes.Debug

/-- A debug instruction. -/
structure Node where
  /-- What the instruction says. -/
  entry : Entry
  /-- The type of its result, once it is part of a module. -/
  resultType : Option TypeId := none
  /-- The builder whose import of the instruction set it belongs to, once it is part of a module. -/
  instructionSet : Option BuilderId := none
  /-- The debug type of a variable or a function, once it is known. -/
  debugType : Option NodeId := none
deriving DecidableEq

/-- The name of the instruction set that every debug instruction belongs to. -/
def instructionSetName : String :=
  "OpenCL.DebugInfo.100"

/-- The nodes made so far. -/
structure NodeTable where
  /-- The nodes, in the order of creation. -/
  nodes : List Node := []
deriving DecidableEq

namespace NodeTable

/-- The number of nodes. -/
def size (t : NodeTable) : Nat :=
  t.nodes.length

/-- The node at a handle. -/
def node? (t : NodeTable) (n : NodeId) : Option Node :=
  t.nodes[n.index]?

/-- What the node at a handle says. -/
def entry? (t : NodeTable) (n : NodeId) : Option Entry :=
  (t.node? n).map Node.entry

/-- The composite at a handle. -/
def composite? (t : NodeTable) (n : NodeId) : Option Composite :=
  (t.entry? n).bind Entry.composite?

/-- The name of the node at a handle. -/
def name? (t : NodeTable) (n : NodeId) : Option String :=
  (t.entry? n).bind Entry.name?

/-- The table with a new node at its end. -/
def push (t : NodeTable) (e : Entry) : NodeTable :=
  ⟨t.nodes ++ [{ entry := e }]⟩

/-- The table with the node at a handle changed. -/
def modify (t : NodeTable) (n : NodeId) (f : Node → Node) : NodeTable :=
  ⟨t.nodes.modify n.index f⟩

/-- The size in bits that a constant stands for: its value if that fits a word, and nothing
otherwise. -/
def constantSize (c : Constant) : UInt32 :=
  match c.value with
  | .int v =>
    let bits := v.toInt
    if 0 ≤ bits ∧ bits < 0x100000000 then UInt32.ofNat bits.toNat else 0
  | .float _ => 0

/-- The size in bits of the type that a node describes, and zero if it describes none.  Sizes are
words and wrap around. -/
def sizeInBits (t : NodeTable) (n : NodeId) : UInt32 :=
  match t.entry? n with
  | some (.basic e) => (e.size.map constantSize).getD 0
  | some (.composite e) => e.size
  | some (.member e) => e.size
  | some (.array e) =>
    if _h : e.element.index < n.index then e.counts.foldl (· * ·) (t.sizeInBits e.element) else 0
  | some (.vector e) =>
    if _h : e.element.index < n.index then t.sizeInBits e.element * e.count else 0
  | _ => 0
termination_by n.index

variable {t : NodeTable} {n : NodeId} {e : Entry} {f : Node → Node}

/-- A new node leaves the older ones as they are. -/
theorem node?_push_of_lt (h : n.index < t.size) : (t.push e).node? n = t.node? n :=
  List.getElem?_append_left h

/-- The new node stands at the end and is part of no module yet. -/
theorem node?_push_size : (t.push e).node? ⟨t.size⟩ = some { entry := e } := by
  simp [node?, push, size]

@[simp]
theorem size_push : (t.push e).size = t.size + 1 := by
  simp [size, push]

@[simp]
theorem size_modify : (t.modify n f).size = t.size := by
  simp [size, modify]

/-- A change is seen at its handle. -/
theorem node?_modify_self : (t.modify n f).node? n = (t.node? n).map f := by
  simp [node?, modify]

/-- A change is seen at no other handle. -/
theorem node?_modify_of_ne {m : NodeId} (h : m ≠ n) : (t.modify n f).node? m = t.node? m := by
  have h' : n.index ≠ m.index := by
    intro hi
    cases n
    cases m
    simp_all
  simp [node?, modify, h']

end NodeTable

end ShaderTypes.Debug
