import ShaderTypes.Proofs.Lowering.Order
import ShaderTypes.Proofs.Lowering.Stability
import ShaderTypes.Proofs.Store.Course

/-!
# What operations leave of nodes

Whatever the operation, a node says what it said, but for composites and templates, which are filled
in.  A composite keeps the members that it has, and there are few operations that add to them or set
its size: `Store.Keeps`, for every operation in `keeps_of_run`.

Where the debug types are left to lowering an operation lowers a type, completes a module, or does
something beside: `Store.Tending`.  What the caller may do beside differs from one property to the
other, so `Store.ReachedBy` are the stores of sessions in which every operation is permitted, and
`ReachedBy.induction` has a case for what is done beside and one for lowering a type.
-/

namespace ShaderTypes

/-- Whether something about the entry may be filled in after it was made. -/
def Debug.Entry.isFillable : Debug.Entry → Bool
  | .composite _ | .template _ => true
  | _ => false

/-- What stays of an entry when something about it is filled in.  A composite keeps its members, and
if so stated its size, or has no other members. -/
inductive Debug.Entry.Retains (sized closed : Prop) : Debug.Entry → Debug.Entry → Prop
  | same {e : Debug.Entry} : Retains sized closed e e
  | composite {c c' : Debug.Composite} (size : sized → c'.size = c.size)
      (members : closed → c'.members = c.members) (more : c.members <+: c'.members) :
      Retains sized closed (.composite c) (.composite c')
  | template {t t' : Debug.Template} : Retains sized closed (.template t) (.template t')

namespace Operation

/-- Whether the operation may set the size of a composite that there is. -/
def setsSize : Operation → Bool
  | .setSize .. | .lowerComposite .. => true
  | _ => false

/-- Whether the operation may add members to a composite that there is. -/
def addsMembers : Operation → Bool
  | .pushMember .. | .lowerComposite .. => true
  | _ => false

/-- Whether the operation may list nodes under no key by itself, without lowering. -/
def listsApart : Operation → Bool
  | .member .. | .template .. | .templateParameter .. => true
  | _ => false

end Operation

namespace Store

/-- A later store in which the nodes say what they said, but for what is filled in. -/
def Keeps (sized closed : Prop) (s t : Store) : Prop :=
  ∀ n e, s.nodes.entry? n = some e → ∃ e', t.nodes.entry? n = some e' ∧ e.Retains sized closed e'

/-- What an operation beside the debug types does: it leaves the registry, may list templates and
their parameters apart, and may save a function for a method. -/
structure Beside (s : Store) (op : Operation) (t : Store) : Prop where
  grows : s.types.Grows t.types
  keeps : s.Keeps (op.setsSize = false) (op.addsMembers = false) t
  debugTypes : t.debugTypes = s.debugTypes
  unkeyed : op.listsApart = false → t.unkeyed = s.unkeyed
  functions : ∀ {id : Decl.MethodId} {n : NodeId}, t.function? id = some n →
    s.function? id = some n ∨ op = .saveFunction id n

/-- What completing a module does between its lowerings. -/
structure Stays (s t : Store) : Prop where
  after : s.Extends t
  debugTypes : t.debugTypes = s.debugTypes
  unkeyed : t.unkeyed = s.unkeyed
  methods : t.methods = s.methods

/-- What an operation does that leaves the debug types to lowering. -/
inductive Tending (s : Store) (op : Operation) (t : Store) : Prop
  | beside (h : s.Beside op t)
  | lower {b : BuilderId} {a : TypeId} {n : NodeId} (h : ShaderTypes.lower b a s = .ok (n, t))
  | walk {b : BuilderId} {instructions : List NodeId} (h : Lowering.Walk b instructions s t)

/-- The stores of sessions in which every operation is permitted in the store that it meets. -/
inductive ReachedBy (permitted : Store → Operation → Bool) : Store → Prop
  | new (options : Options) : ReachedBy permitted (Store.new options)
  | run {s t : Store} {op : Operation} {reply : Reply} (h : ReachedBy permitted s)
      (hop : permitted s op = true) (hrun : s.run op = .ok (reply, t)) : ReachedBy permitted t

/-- Whether every operation of a session is permitted in the store that it meets. -/
def permittedAll (permitted : Store → Operation → Bool) (s : Store) : List Operation → Bool
  | [] => true
  | op :: ops =>
    permitted s op && (s.run op).toOption.all fun result => result.2.permittedAll permitted ops

end Store

variable {sized closed sized' closed' : Prop} {e e' e'' : Debug.Entry}

lemma Debug.Entry.Retains.trans (h : e.Retains sized closed e') (h' : e'.Retains sized closed e'') :
    e.Retains sized closed e'' := by
  cases h with
  | same => exact h'
  | template =>
    cases h' with
    | same => exact .template
    | template => exact .template
  | composite size members more =>
    cases h' with
    | same => exact .composite size members more
    | composite size' members' more' =>
      exact .composite (fun h => (size' h).trans (size h))
        (fun h => (members' h).trans (members h)) (more.trans more')

lemma Debug.Entry.Retains.imp (h : e.Retains sized closed e') (hsized : sized' → sized)
    (hclosed : closed' → closed) : e.Retains sized' closed' e' := by
  cases h with
  | same => exact .same
  | composite size members more =>
    exact .composite (fun h => size (hsized h)) (fun h => members (hclosed h)) more
  | template => exact .template

namespace Store

variable {s t u : Store} {a : TypeId} {n d : NodeId} {b : BuilderId} {op : Operation}
  {reply : Reply} {keys : Store → TypeId → Prop} {base : Nat}
  {permitted : Store → Operation → Bool}

/-! ### What is kept -/

namespace Keeps

lemma refl (s : Store) : s.Keeps sized closed s :=
  fun _ e he => ⟨e, he, .same⟩

lemma trans (h : s.Keeps sized closed t) (h' : t.Keeps sized closed u) :
    s.Keeps sized closed u := by
  intro n e he
  obtain ⟨e', he', retains⟩ := h n e he
  obtain ⟨e'', he'', retains'⟩ := h' n e' he'
  exact ⟨e'', he'', retains.trans retains'⟩

lemma imp (h : s.Keeps sized closed t) (hsized : sized' → sized) (hclosed : closed' → closed) :
    s.Keeps sized' closed' t := by
  intro n e he
  obtain ⟨e', he', retains⟩ := h n e he
  exact ⟨e', he', retains.imp hsized hclosed⟩

/-- What is neither a composite nor a template says what it said. -/
lemma entry?_eq (h : s.Keeps sized closed t) (he : s.nodes.entry? n = some e)
    (settled : e.isFillable = false) : t.nodes.entry? n = some e := by
  obtain ⟨e', he', retains⟩ := h n e he
  cases retains with
  | same => exact he'
  | composite => cases settled
  | template => cases settled

/-- Where the registry is left, what is listed under no type stays the placeholder. -/
lemma entry?_placeholder (h : s.Keeps sized closed t) (debugTypes : t.debugTypes = s.debugTypes)
    (old : ∀ {n}, s.debugTypes.get? none = some n → s.nodes.entry? n = some placeholderEntry)
    (hn : t.debugTypes.get? none = some n) : t.nodes.entry? n = some placeholderEntry := by
  rw [debugTypes] at hn
  exact h.entry?_eq (old hn) rfl

/-- A composite was one before, with no other members but those at the end. -/
lemma exists_composite {c : Debug.Composite} (h : s.Keeps sized closed t)
    (known : n.index < s.nodes.size) (hc : t.nodes.entry? n = some (.composite c)) :
    ∃ c', s.nodes.entry? n = some (.composite c') ∧ (closed → c.members = c'.members) ∧
      c'.members <+: c.members := by
  obtain ⟨node, hnode⟩ := Debug.NodeTable.exists_node? known
  have he := Debug.NodeTable.entry?_of_node? hnode
  obtain ⟨e', he', retains⟩ := h n _ he
  obtain rfl : e' = .composite c := Option.some.inj (he'.symm.trans hc)
  generalize node.entry = e at he retains
  cases retains with
  | same => exact ⟨c, he, fun _ => rfl, List.prefix_refl _⟩
  | composite _ members more => exact ⟨_, he, members, more⟩

end Keeps

lemma keeps_of_entries (h : ∀ {n e}, s.nodes.entry? n = some e → t.nodes.entry? n = some e) :
    s.Keeps sized closed t :=
  fun _ e he => ⟨e, h he, .same⟩

lemma keeps_of_extends (h : s.Extends t) : s.Keeps sized closed t :=
  keeps_of_entries h.entries

lemma keeps_of_nodes (h : s.nodes.nodes <+: t.nodes.nodes) : s.Keeps sized closed t :=
  keeps_of_entries (Debug.NodeTable.entry?_mono h)

lemma keeps_modifyNode {f : Debug.Node → Debug.Node}
    (hf : ∀ node : Debug.Node, node.entry.Retains sized closed (f node).entry) :
    s.Keeps sized closed (s.modifyNode n f) := by
  intro m e he
  obtain ⟨node, hnode, rfl⟩ := Option.map_eq_some_iff.1 he
  rw [modifyNode, Debug.NodeTable.entry?, Debug.NodeTable.node?_modify, hnode]
  split
  · exact ⟨_, rfl, hf node⟩
  · exact ⟨_, rfl, .same⟩

lemma keeps_mapComposite {f : Debug.Composite → Debug.Composite}
    (hf : ∀ c, (Debug.Entry.composite c).Retains sized closed (.composite (f c))) :
    s.Keeps sized closed
      (s.modifyNode n fun node => { node with entry := node.entry.mapComposite f }) := by
  refine keeps_modifyNode fun node => ?_
  obtain ⟨e, _, _, _⟩ := node
  cases e <;> first | exact hf _ | exact .same

lemma keeps_mapTemplate {f : Debug.Template → Debug.Template} :
    s.Keeps sized closed
      (s.modifyNode n fun node => { node with entry := node.entry.mapTemplate f }) := by
  refine keeps_modifyNode fun node => ?_
  obtain ⟨e, _, _, _⟩ := node
  cases e <;> first | exact .template | exact .same

lemma keeps_template {target template : NodeId} (h : s.template a target = .ok (template, t)) :
    s.Keeps sized closed t := by
  rcases template_eq_ok h with rfl | ⟨n, rfl⟩
  · exact .refl t
  · refine (keeps_of_nodes nodes_le_unkeyedNode).trans (keeps_mapComposite fun c => ?_)
    exact .composite (fun _ => rfl) (fun _ => rfl) (List.prefix_refl _)

/-- However composites are filled, they keep the members that they have. -/
lemma keeps_of_changes (h : Lowering.Changes b keys base s t) : s.Keeps False False t := by
  refine h.induction (P := fun r => s.Keeps False False r) (.refl s) fun r r' change hr => ?_
  refine hr.trans ?_
  cases change with
  | internType => exact .refl r
  | openFile => exact keeps_of_nodes nodes_le_openFile
  | keyedNode => exact keeps_of_nodes nodes_le_keyedNode
  | unkeyedNode => exact keeps_of_nodes nodes_le_unkeyedNode
  | stamp => exact keeps_of_entries entry?_stamp.trans
  | pushMember =>
    exact keeps_mapComposite fun _ => .composite False.elim False.elim (List.prefix_append _ _)
  | setSize =>
    exact keeps_mapComposite fun _ => .composite False.elim False.elim (List.prefix_refl _)

lemma keeps_of_fills (h : s.Fills op t) :
    s.Keeps (op.setsSize = false) (op.addsMembers = false) t := by
  cases h with
  | pushMember =>
    exact keeps_mapComposite fun _ =>
      .composite (fun _ => rfl) (by simp [Operation.addsMembers]) (List.prefix_append _ _)
  | setSize =>
    exact keeps_mapComposite fun _ =>
      .composite (by simp [Operation.setsSize]) (fun _ => rfl) (List.prefix_refl _)
  | pushParam => exact keeps_mapTemplate
  | setResultType => exact keeps_modifyNode fun _ => .same
  | setInstructionSet => exact keeps_modifyNode fun _ => .same
  | setDebugType => exact keeps_of_extends extends_withDebugType

/-- What an operation leaves of the nodes. -/
theorem keeps_of_run (h : s.run op = .ok (reply, t)) :
    s.Keeps (op.setsSize = false) (op.addsMembers = false) t := by
  cases effect_of_run h with
  | idle => exact .refl s
  | types => exact .refl s
  | add => exact keeps_of_nodes (List.prefix_append _ _)
  | keyed => exact keeps_of_nodes nodes_le_keyedNode
  | unkeyed => exact keeps_of_nodes nodes_le_unkeyedNode
  | fill fills => exact keeps_of_fills fills
  | opened => exact keeps_of_nodes nodes_le_openFile
  | pushScope => exact keeps_of_nodes nodes_le_openFile
  | popScope popped =>
    obtain ⟨file, scope, -, rfl⟩ := popScope_eq_ok popped
    exact keeps_of_nodes nodes_le_openFile
  | saveFunction => exact .refl s
  | recordDebugType => exact .refl s
  | template _ attached => exact keeps_template attached
  | lower _ lowered => exact keeps_of_extends (extends_lower lowered)
  | lowerComposite _ lowered =>
    have kept := keeps_of_changes (lowerComposite_changes lowered)
    exact kept.imp (by simp [Operation.setsSize]) (by simp [Operation.addsMembers])
  | lowerModule _ walk => exact keeps_of_extends (extends_of_walk walk)

/-! ### Leaving the debug types to lowering -/

/-- An operation that leaves the debug types to lowering. -/
theorem tending_of_run (leaves : op.leavesDebugTypes = true) (h : s.run op = .ok (reply, t)) :
    s.Tending op t := by
  have grows := (run_edits h).grows
  have keeps := keeps_of_run h
  have beside (debugTypes : t.debugTypes = s.debugTypes) (methods : t.methods = s.methods)
      (unkeyed : op.listsApart = false → t.unkeyed = s.unkeyed) : s.Tending op t := by
    refine .beside ⟨grows, keeps, debugTypes, unkeyed, fun hn => Or.inl ?_⟩
    rwa [function?, methods] at hn
  cases effect_of_run h with
  | idle => exact beside rfl rfl fun _ => rfl
  | types => exact beside rfl rfl fun _ => rfl
  | add => exact beside rfl rfl fun _ => rfl
  | keyed lists => cases lists <;> cases leaves
  | unkeyed lists =>
    cases lists with
    | member => cases leaves
    | templateParameter => exact beside rfl rfl (by simp [Operation.listsApart])
  | fill fills => cases fills <;> exact beside rfl rfl fun _ => rfl
  | opened => exact beside debugTypes_openFile methods_openFile fun _ => unkeyed_openFile
  | pushScope => exact beside debugTypes_openFile methods_openFile fun _ => unkeyed_openFile
  | popScope popped =>
    obtain ⟨file, scope, -, rfl⟩ := popScope_eq_ok popped
    exact beside debugTypes_openFile methods_openFile fun _ => unkeyed_openFile
  | @saveFunction method m =>
    refine .beside ⟨grows, keeps, rfl, fun _ => rfl, fun {id n} hn => ?_⟩
    by_cases hid : id = method
    · subst hid
      obtain rfl : m = n := Option.some.inj (OrderedMap.get?_insert_self.symm.trans hn)
      exact Or.inr rfl
    · exact Or.inl ((OrderedMap.get?_insert_of_ne hid).symm.trans hn)
  | recordDebugType => cases leaves
  | template _ attached =>
    rcases template_eq_ok attached with rfl | ⟨n, rfl⟩
    · exact beside rfl rfl fun _ => rfl
    · exact beside rfl rfl (by simp [Operation.listsApart])
  | lower _ lowered => exact .lower lowered
  | lowerComposite => cases leaves
  | lowerModule _ walk => exact .walk walk

/-! ### Sessions of permitted operations -/

namespace ReachedBy

/-- If every permitted operation leaves the debug types to lowering, the session does. -/
lemma leftToLowering (h : s.ReachedBy permitted)
    (leaves : ∀ {s op}, permitted s op = true → op.leavesDebugTypes = true) : s.LeftToLowering := by
  induction h with
  | new options => exact ⟨options, [], [], by simp, rfl⟩
  | run _ hop hrun ih => exact ih.run (leaves hop) hrun

/-- What holds of a new store and is kept by lowering a type, by what is done between the lowerings
of a module, and by what permitted operations do beside, holds in every session. -/
theorem induction {P : Store → Prop} (h : s.ReachedBy permitted)
    (leaves : ∀ {s op}, permitted s op = true → op.leavesDebugTypes = true)
    (start : ∀ options, P (Store.new options))
    (beside : ∀ {s op t}, s.Regular → permitted s op = true → s.Beside op t → P s → P t)
    (stays : ∀ {s t}, s.Regular → s.Stays t → P s → P t)
    (lower : ∀ {s b a n t}, s.Regular → s.Staged → ShaderTypes.lower b a s = .ok (n, t) →
      P s → P t) : P s := by
  have walk {b s t} {instructions : List NodeId} (h : Lowering.Walk b instructions s t)
      (regular : s.Regular) (staged : s.Staged) (hs : P s) : P t := by
    induction h with
    | nil => exact hs
    | @untyped n _ s _ _ _ ih =>
      have stamp : s.Stays (s.stamp n b) := ⟨extends_stamp, rfl, rfl, rfl⟩
      exact ih (regular.of_extends stamp.after (edits_stamp.sound regular.sound))
        (advances_stamp.staged staged) (stays regular stamp hs)
    | @typed n d _ _ s s' _ _ lowered _ ih =>
      have stamp : s.Stays (s.stamp n b) := ⟨extends_stamp, rfl, rfl, rfl⟩
      have regular₁ := regular.of_extends stamp.after (edits_stamp.sound regular.sound)
      have staged₁ : (s.stamp n b).Staged := advances_stamp.staged staged
      have regular₂ := regular₁.of_changes (lower_changes lowered)
      have set : s'.Stays (s'.withDebugType n d) := ⟨extends_withDebugType, rfl, rfl, rfl⟩
      exact ih (regular₂.of_extends set.after (edits_withDebugType.sound regular₂.sound))
        (advances_withDebugType.staged ((advances_of_lower lowered).1.staged staged₁))
        (stays regular₂ set (lower regular₁ staged₁ lowered (stays regular stamp hs)))
  induction h with
  | new options => exact start options
  | run hs hop hrun ih =>
    have left := hs.leftToLowering leaves
    cases tending_of_run (leaves hop) hrun with
    | beside h => exact beside left.regular hop h ih
    | lower h => exact lower left.regular left.staged h ih
    | walk h => exact walk h left.regular left.staged ih

lemma runAll {ops : List Operation} {replies : List Reply} (h : s.ReachedBy permitted)
    (hops : s.permittedAll permitted ops = true) (hrun : s.runAll ops = .ok (replies, t)) :
    t.ReachedBy permitted := by
  induction ops generalizing s replies with
  | nil =>
    cases hrun
    exact h
  | cons op ops ih =>
    rw [permittedAll, Bool.and_eq_true] at hops
    obtain ⟨reply, r, replies', hop, hrest, -⟩ := runAll_cons_eq_ok hrun
    refine ih (h.run hops.1 hop) ?_ hrest
    simpa [hop, Except.toOption] using hops.2

end ReachedBy

lemma permittedAll_of_forall {ops : List Operation}
    (h : ∀ op ∈ ops, ∀ s, permitted s op = true) : s.permittedAll permitted ops = true := by
  induction ops generalizing s with
  | nil => rfl
  | cons op ops ih =>
    obtain ⟨hop, hops⟩ := List.forall_mem_cons.1 h
    rw [permittedAll, hop s, Bool.true_and, Option.all_eq_true]
    exact fun result _ => ih hops

/-- In particular a session in which all operations leave the debug types to lowering. -/
lemma LeftToLowering.reachedBy (h : s.LeftToLowering) :
    s.ReachedBy fun _ op => op.leavesDebugTypes := by
  obtain ⟨options, ops, replies, leaves, hrun⟩ := h
  exact ReachedBy.runAll (.new options) (permittedAll_of_forall fun op hop _ => leaves op hop) hrun

end Store

end ShaderTypes
