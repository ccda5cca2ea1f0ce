import ShaderTypes.Operation
import ShaderTypes.Proofs.Lowering.Change
import ShaderTypes.Proofs.Lowering.Walk

/-!
# What operations do

An operation that succeeds does one of fifteen things to the store.  `Store.Effect` has a case for
each of them: which types, nodes, keys and files are touched, and that the handles in the operation
are known.  Operations that differ only in what they say are one case together, such as all those
that make a node of an entry and list it under a key.

`Store.effect_of_run` is the only place where all operations are told apart.  What is kept by every
operation, or by all but some, is proved along the effects.
-/

namespace ShaderTypes

namespace Operation

/-- Operations that touch no type, no node and no file, given the answer: those on options, texts and
raw memory, and a request for a template that is turned down. -/
inductive Idles : Operation → Reply → Prop
  | internText {text : String} {place : Nat} : Idles (.internText text) (.text place)
  | allocate {block : Block} : Idles (.allocate block) .done
  | setModel {model : ShaderModel} : Idles (.setModel model) .done
  | setMajor {version : UInt32} : Idles (.setMajor version) .done
  | setMinor {version : UInt32} : Idles (.setMinor version) .done
  | template {a : TypeId} {target : NodeId} {reason : Refusal} :
      Idles (.template a target) (.refused reason)

/-- Operations that open a file and nothing else, given the answer.  A request to close a scope where
none is open is one of them. -/
inductive Opens : Operation → Reply → String → Prop
  | openFile {name : String} {file : Debug.File} : Opens (.openFile name) (.file file) name
  | popScope {name : String} : Opens (.popScope name) (.refused (.scopeUnderflow name)) name

/-- Operations that make a node of an entry and do not list it. -/
inductive Adds : Operation → Debug.Entry → Prop
  | lexicalBlock {e : Debug.LexicalBlock} : Adds (.lexicalBlock e) (.lexicalBlock e)
  | function {e : Debug.Function} : Adds (.function e) (.function e)
  | globalVariable {e : Debug.GlobalVariable} : Adds (.globalVariable e) (.globalVariable e)
  | localVariable {e : Debug.LocalVariable} : Adds (.localVariable e) (.localVariable e)

/-- Operations that make a node of an entry under a key, unless a node is listed there. -/
inductive Lists : Operation → Option TypeId → Debug.Entry → Prop
  | basic {key : Option TypeId} {e : Debug.Basic} : Lists (.basic key e) key (.basic e)
  | composite {a : TypeId} {heading : Debug.Heading} {size : UInt32} :
      Lists (.composite a heading size) (some a) (.composite { heading with size })
  | array {a : TypeId} {e : Debug.ArrayType} : Lists (.array a e) (some a) (.array e)
  | vector {a : TypeId} {e : Debug.VectorType} : Lists (.vector a e) (some a) (.vector e)
  | functionType {a : TypeId} {e : Debug.FunctionType} :
      Lists (.functionType a e) (some a) (.functionType e)

/-- Operations that make a node of an entry and list it under no key. -/
inductive ListsUnkeyed : Operation → Debug.Entry → Prop
  | member {e : Debug.Member} : ListsUnkeyed (.member e) (.member e)
  | templateParameter {e : Debug.TemplateParameter} :
      ListsUnkeyed (.templateParameter e) (.templateParameter e)

variable {op : Operation} {key : Option TypeId} {e : Debug.Entry}

/-- What is not listed describes no type. -/
lemma Adds.isDebugType_eq_false (h : op.Adds e) : e.isDebugType = false := by
  cases h <;> rfl

/-- Neither a variable nor a function is listed. -/
lemma Lists.type?_eq_none (h : op.Lists key e) : e.type? = none := by
  cases h <;> rfl

lemma ListsUnkeyed.type?_eq_none (h : op.ListsUnkeyed e) : e.type? = none := by
  cases h <;> rfl

end Operation

namespace Store

/-- The store gave out every handle in an entry. -/
structure KnowsParts (s : Store) (e : Debug.Entry) : Prop where
  nodes : ∀ n ∈ e.nodes, n.index < s.nodes.size
  types : ∀ a ∈ e.types, a.index < s.types.size

/-- Operations that ask for a type, with the type that is given and the types from then on. -/
inductive Grants (s : Store) : Operation → TypeId → TypeTable → Prop
  | type {x : Shape} {a : TypeId} {types : TypeTable}
      (known : ∀ u ∈ x.operands, u.index < s.types.size)
      (granted : s.types.request x = .ok (a, types)) : Grants s (.type x) a types
  | byteAddressBuffer {writable : Bool} : Grants s (.byteAddressBuffer writable)
      (s.types.byteAddressBuffer writable).1 (s.types.byteAddressBuffer writable).2
  | counterBuffer : Grants s .counterBuffer s.types.counterBuffer.1 s.types.counterBuffer.2

/-- Operations that change one node. -/
inductive Fills (s : Store) : Operation → Store → Prop
  | pushMember {n m : NodeId} (known : m.index < s.nodes.size) :
      Fills s (.pushMember n m) (s.pushMember n m)
  | setSize {n : NodeId} {size : UInt32} : Fills s (.setSize n size) (s.setSize n size)
  | pushParam {n p : NodeId} (known : p.index < s.nodes.size) :
      Fills s (.pushParam n p) (s.pushParam n p)
  | setResultType {n : NodeId} {a : TypeId} (known : a.index < s.types.size) :
      Fills s (.setResultType n a) (s.setResultType n a)
  | setInstructionSet {n : NodeId} {b : BuilderId} :
      Fills s (.setInstructionSet n b) (s.setInstructionSet n b)
  | setDebugType {n d : NodeId} : Fills s (.setDebugType n d) (s.withDebugType n d)

/-- What an operation does that gives the answer `reply` and leaves the store `t`. -/
inductive Effect (s : Store) : Operation → Reply → Store → Prop
  | idle {op : Operation} {reply : Reply} {options : Options} {texts : List String}
      (idles : op.Idles reply) : Effect s op reply { s with options, texts }
  | types {op : Operation} {a : TypeId} {types : TypeTable} (grants : s.Grants op a types) :
      Effect s op (.type a) { s with types }
  | add {op : Operation} {e : Debug.Entry} (adds : op.Adds e) (known : s.KnowsParts e) :
      Effect s op (.node (s.addNode e).1) (s.addNode e).2
  | keyed {op : Operation} {key : Option TypeId} {e : Debug.Entry} (lists : op.Lists key e)
      (known : s.KnowsParts e) : Effect s op (.node (s.keyedNode key e).1) (s.keyedNode key e).2
  | unkeyed {op : Operation} {e : Debug.Entry} (lists : op.ListsUnkeyed e)
      (known : s.KnowsParts e) : Effect s op (.node (s.unkeyedNode e).1) (s.unkeyedNode e).2
  | fill {op : Operation} {t : Store} (fills : s.Fills op t) : Effect s op .done t
  | opened {op : Operation} {reply : Reply} {name : String} (opens : op.Opens reply name) :
      Effect s op reply (s.openFile name).2
  | pushScope {name : String} {scope : NodeId} (known : scope.index < s.nodes.size) :
      Effect s (.pushScope name scope) .done (s.pushScope name scope)
  | popScope {name : String} {t : Store} (popped : (s.openFile name).2.popScope name = .ok t) :
      Effect s (.popScope name) .done t
  | saveFunction {method : Decl.MethodId} {n : NodeId} (known : n.index < s.nodes.size) :
      Effect s (.saveFunction method n) .done (s.saveFunction method n)
  | recordDebugType {a : TypeId} {n : NodeId} (known : n.index < s.nodes.size) :
      Effect s (.recordDebugType a n) .done (s.recordDebugType a n)
  | template {a : TypeId} {target p : NodeId} {t : Store} (known : target.index < s.nodes.size)
      (attached : s.template a target = .ok (p, t)) : Effect s (.template a target) (.node p) t
  | lower {b : BuilderId} {a : TypeId} {n : NodeId} {t : Store} (known : a.index < s.types.size)
      (lowered : ShaderTypes.lower b a s = .ok (n, t)) : Effect s (.lower b a) (.node n) t
  | lowerComposite {b : BuilderId} {a : TypeId} {struct : Struct} {record : Decl.Record}
      {n : NodeId} {t : Store} (known : ∀ field ∈ struct.fields, field.type.index < s.types.size)
      (lowered : ShaderTypes.lowerComposite b a struct record s = .ok (n, t)) :
      Effect s (.lowerComposite b a struct record) (.node n) t
  | lowerModule {b : BuilderId} {m : Module} {t : Store}
      (known : ∀ n ∈ m.instructions, n.index < s.nodes.size)
      (walk : Lowering.Walk b m.instructions s t) :
      Effect s (.lowerModule b m) (.module true (m.append t.emitted)) t

variable {s t : Store} {a : TypeId} {n : NodeId} {b : BuilderId} {op : Operation} {reply : Reply}

/-! ### Single operations -/

/-- An operation that succeeds mentions known handles only. -/
lemma run_eq_ok (h : s.run op = .ok (reply, t)) :
    (∀ a ∈ op.types, a.index < s.types.size) ∧ (∀ n ∈ op.nodes, n.index < s.nodes.size) ∧
      s.perform op = .ok (reply, t) := by
  rw [run] at h
  split at h
  case isFalse => cases h
  case isTrue hknows =>
    simp only [knows, Bool.and_eq_true, List.all_eq_true, decide_eq_true_eq] at hknows
    exact ⟨hknows.1.1, hknows.1.2, h⟩

/-- A faulty part of an operation ends it. -/
lemma perform_bind_eq_ok {α : Type} {x : Except Fault α} {f : α → Except Fault (Reply × Store)}
    (h : (x >>= f) = .ok (reply, t)) : ∃ r, x = .ok r ∧ f r = .ok (reply, t) := by
  cases x with
  | error fault => cases h
  | ok r => exact ⟨r, rfl, h⟩

/-- A type that is granted is all that a request adds. -/
lemma exists_of_requestType {x : Shape} (h : s.requestType x = .ok (a, t)) :
    ∃ types, s.types.request x = .ok (a, types) ∧ t = { s with types } := by
  rw [requestType] at h
  cases hgranted : s.types.request x with
  | error fault => simp [hgranted, bind, Except.bind] at h
  | ok p =>
    simp only [hgranted, bind, Except.bind, pure, Except.pure, Except.ok.injEq,
      Prod.mk.injEq] at h
    obtain ⟨rfl, rfl⟩ := h
    exact ⟨p.2, rfl, rfl⟩

lemma perform_type_eq_ok {x : Shape} (h : s.perform (.type x) = .ok (reply, t)) :
    ∃ a types, s.types.request x = .ok (a, types) ∧ reply = .type a ∧ t = { s with types } := by
  obtain ⟨⟨a, r⟩, hrequest, h⟩ := perform_bind_eq_ok h
  cases h
  obtain ⟨types, hgranted, rfl⟩ := exists_of_requestType hrequest
  exact ⟨a, types, hgranted, rfl, rfl⟩

/-- Closing a scope is turned down when none is open inside the compilation unit, and then the file
is opened and nothing else. -/
lemma perform_popScope_cases {name : String} (h : s.perform (.popScope name) = .ok (reply, t)) :
    reply = .refused (.scopeUnderflow name) ∧ t = (s.openFile name).2 ∨
      reply = .done ∧ (s.openFile name).2.popScope name = .ok t := by
  simp only [perform] at h
  split at h
  case h_1 hpop =>
    cases h
    exact Or.inr ⟨rfl, hpop⟩
  case h_2 reason hpop =>
    cases h
    rw [Store.popScope] at hpop
    split at hpop
    · cases hpop
    · cases hpop
      exact Or.inl ⟨rfl, rfl⟩

lemma perform_template_cases {target : NodeId}
    (h : s.perform (.template a target) = .ok (reply, t)) :
    (∃ reason, reply = .refused reason ∧ t = s) ∨
      ∃ p, reply = .node p ∧ s.template a target = .ok (p, t) := by
  simp only [perform] at h
  split at h
  case h_1 p _ hattached =>
    cases h
    exact Or.inr ⟨p, rfl, hattached⟩
  case h_2 reason _ =>
    cases h
    exact Or.inl ⟨reason, rfl, rfl⟩

lemma perform_lower_eq_ok (h : s.perform (.lower b a) = .ok (reply, t)) :
    ∃ n, reply = .node n ∧ lower b a s = .ok (n, t) := by
  obtain ⟨⟨n, r⟩, hlower, h⟩ := perform_bind_eq_ok h
  cases h
  exact ⟨n, rfl, hlower⟩

lemma perform_lowerComposite_eq_ok {struct : Struct} {record : Decl.Record}
    (h : s.perform (.lowerComposite b a struct record) = .ok (reply, t)) :
    ∃ n, reply = .node n ∧ lowerComposite b a struct record s = .ok (n, t) := by
  obtain ⟨⟨n, r⟩, hlower, h⟩ := perform_bind_eq_ok h
  cases h
  exact ⟨n, rfl, hlower⟩

lemma perform_lowerModule_eq_ok {m : Module} (h : s.perform (.lowerModule b m) = .ok (reply, t)) :
    ∃ completed m', reply = .module completed m' ∧
      lowerModule b m s = .ok (completed, m', t) := by
  obtain ⟨⟨completed, m', r⟩, hpass, h⟩ := perform_bind_eq_ok h
  cases h
  exact ⟨completed, m', rfl, hpass⟩

/-! ### All operations -/

/-- What an operation does that succeeds. -/
theorem effect_of_run (h : s.run op = .ok (reply, t)) : s.Effect op reply t := by
  obtain ⟨htypes, hnodes, h⟩ := run_eq_ok h
  -- The handles of an entry are among those of the operation that makes a node of it.
  have parts {e : Debug.Entry} (he : op.entry? = some e) : s.KnowsParts e := by
    refine ⟨fun n hn => hnodes n (List.mem_append_right _ ?_),
      fun a ha => htypes a (List.mem_append_right _ ?_)⟩
    · rwa [he]
    · rwa [he]
  have target {n : NodeId} (hn : n ∈ op.targets) : n.index < s.nodes.size :=
    hnodes n (List.mem_append_left _ hn)
  have subject {a : TypeId} (ha : a ∈ op.subjects) : a.index < s.types.size :=
    htypes a (List.mem_append_left _ ha)
  cases op with
  | internText text =>
    cases h
    split
    · exact .idle .internText
    · exact .idle .internText
  | allocate block =>
    obtain ⟨-, -, h⟩ := perform_bind_eq_ok h
    cases h
    exact .idle .allocate
  | setModel => cases h; exact .idle .setModel
  | setMajor => cases h; exact .idle .setMajor
  | setMinor => cases h; exact .idle .setMinor
  | type shape =>
    obtain ⟨a, types, hgranted, rfl, rfl⟩ := perform_type_eq_ok h
    exact .types (.type (fun u hu => subject hu) hgranted)
  | byteAddressBuffer => cases h; exact .types .byteAddressBuffer
  | counterBuffer => cases h; exact .types .counterBuffer
  | openFile => cases h; exact .opened .openFile
  | pushScope name scope => cases h; exact .pushScope (target List.mem_cons_self)
  | popScope name =>
    rcases perform_popScope_cases h with ⟨rfl, rfl⟩ | ⟨rfl, hpop⟩
    · exact .opened .popScope
    · exact .popScope hpop
  | saveFunction method n => cases h; exact .saveFunction (target List.mem_cons_self)
  | lexicalBlock => cases h; exact .add .lexicalBlock (parts rfl)
  | function => cases h; exact .add .function (parts rfl)
  | globalVariable => cases h; exact .add .globalVariable (parts rfl)
  | localVariable => cases h; exact .add .localVariable (parts rfl)
  | recordDebugType a n => cases h; exact .recordDebugType (target List.mem_cons_self)
  | basic => cases h; exact .keyed .basic (parts rfl)
  | composite => cases h; exact .keyed .composite (parts rfl)
  | array => cases h; exact .keyed .array (parts rfl)
  | vector => cases h; exact .keyed .vector (parts rfl)
  | functionType => cases h; exact .keyed .functionType (parts rfl)
  | member => cases h; exact .unkeyed .member (parts rfl)
  | template a n =>
    rcases perform_template_cases h with ⟨reason, rfl, rfl⟩ | ⟨p, rfl, hattached⟩
    · exact .idle .template
    · exact .template (target List.mem_cons_self) hattached
  | templateParameter => cases h; exact .unkeyed .templateParameter (parts rfl)
  | pushMember n m => cases h; exact .fill (.pushMember (target (by simp [Operation.targets])))
  | setSize => cases h; exact .fill .setSize
  | pushParam n p => cases h; exact .fill (.pushParam (target (by simp [Operation.targets])))
  | setResultType n a => cases h; exact .fill (.setResultType (subject List.mem_cons_self))
  | setInstructionSet => cases h; exact .fill .setInstructionSet
  | setDebugType n d =>
    obtain ⟨r, hset, h⟩ := perform_bind_eq_ok h
    cases h
    obtain rfl := setDebugType_eq_ok hset
    exact .fill .setDebugType
  | lower b a =>
    obtain ⟨n, rfl, hlower⟩ := perform_lower_eq_ok h
    exact .lower (subject List.mem_cons_self) hlower
  | lowerComposite b a struct record =>
    obtain ⟨n, rfl, hlower⟩ := perform_lowerComposite_eq_ok h
    refine .lowerComposite (fun field hfield => subject ?_) hlower
    exact List.mem_cons_of_mem _ (List.mem_map_of_mem hfield)
  | lowerModule b m =>
    obtain ⟨completed, m', rfl, hpass⟩ := perform_lowerModule_eq_ok h
    obtain ⟨rfl, rfl, walk⟩ := lowerModule_eq_ok hpass
    exact .lowerModule (fun n hn => target hn) walk

/-! ### What the kinds of operations have in common -/

lemma Grants.grows {types : TypeTable} (h : s.Grants op a types) : s.types.Grows types := by
  cases h with
  | type known granted => exact TypeTable.grows_request known granted
  | byteAddressBuffer => exact TypeTable.grows_byteAddressBuffer _ _
  | counterBuffer => exact TypeTable.grows_counterBuffer _

/-- The type of a variable or a function is known before the node is made. -/
lemma KnowsParts.type_lt {e : Debug.Entry} (h : s.KnowsParts e) (ha : e.type? = some a) :
    a.index < s.types.size := by
  refine h.types a (List.mem_append_left _ ?_)
  cases e <;> first | exact Option.mem_toList.2 ha | cases ha

end Store

end ShaderTypes
