import ShaderTypes.Proofs.Lowering.Stamping
import ShaderTypes.Proofs.Store.Extension
import ShaderTypes.Proofs.Store.Soundness

/-!
# Compilations that leave debug types to lowering

In most compilations the caller asks for types, makes scopes, variables and functions, and lets
lowering describe the types.  `Store.LoweringBuilt` are the stores reached in this way.  An operation
of such a compilation lowers a type, completes a module, or leaves the debug types as they are:
`LoweringBuilt.induction` has one case for each.

A store does not tell which builders made its instructions, and a function that was saved for a
method may have been replaced by another.  So both are bounded from outside, by the builders and the
functions that the compilation uses.
-/

namespace ShaderTypes

/-- The builder for which an operation makes instructions. -/
def Operation.builder? : Operation → Option BuilderId
  | .lower b _ | .lowerModule b _ => some b
  | _ => none

/-- The method for which an operation saves a function, and the function. -/
def Operation.saved? : Operation → Option (Decl.MethodId × NodeId)
  | .saveFunction method n => some (method, n)
  | _ => none

namespace Store

/-- Whether an operation leaves the debug types to lowering.  It makes and lists none by itself, sets
nothing of a node, and saves nothing but functions for methods. -/
def permits (s : Store) : Operation → Bool
  | .recordDebugType .. | .basic .. | .composite .. | .array .. | .vector .. | .functionType ..
  | .member .. | .template .. | .templateParameter .. => false
  | .pushMember .. | .setSize .. | .pushParam .. | .setResultType .. | .setInstructionSet ..
  | .setDebugType .. => false
  | .lowerComposite .. => false
  | .saveFunction _ n => (s.nodes.entry? n).any (·.function?.isSome)
  | _ => true

/-- The stores that a compilation reaches when it leaves the debug types to lowering, for builders
among the given ones, and saves no functions but the given ones for methods. -/
inductive LoweringBuilt (builders : BuilderId → Prop) (saved : Decl.MethodId → NodeId → Prop) :
    Store → Prop
  | new (options : Options) : LoweringBuilt builders saved (Store.new options)
  | run {s t : Store} {op : Operation} {reply : Reply} (h : LoweringBuilt builders saved s)
      (permitted : s.permits op = true) (builder : ∀ b, op.builder? = some b → builders b)
      (function : ∀ method n, op.saved? = some (method, n) → saved method n)
      (hrun : s.run op = .ok (reply, t)) : LoweringBuilt builders saved t

/-- An operation beside the debug types: it adds types and nodes, and leaves the registry. -/
structure Preserves (saved : Decl.MethodId → NodeId → Prop) (s t : Store) : Prop where
  types : s.types.Grows t.types
  nodes : s.nodes.nodes <+: t.nodes.nodes
  debugTypes : t.debugTypes = s.debugTypes
  unkeyed : t.unkeyed = s.unkeyed
  files : ∀ {name : String} {file : Debug.File}, s.files.get? name = some file →
    ∃ file', t.files.get? name = some file' ∧ file'.source = file.source ∧ file'.unit = file.unit
  methods : ∀ {id : Decl.MethodId} {n : NodeId}, t.function? id = some n →
    s.function? id = some n ∨ saved id n ∧ ∃ f, s.nodes.entry? n = some (.function f)

/-- What an operation that leaves the debug types to lowering does. -/
inductive Progress (builders : BuilderId → Prop) (saved : Decl.MethodId → NodeId → Prop)
    (s t : Store) : Prop
  | preserves (h : s.Preserves saved t)
  | lower {b : BuilderId} {a : TypeId} {n : NodeId} (hb : builders b)
      (h : ShaderTypes.lower b a s = .ok (n, t))
  | walk {b : BuilderId} {instructions : List NodeId} (hb : builders b)
      (h : Lowering.Walk b instructions s t)

variable {builders : BuilderId → Prop} {saved : Decl.MethodId → NodeId → Prop} {s t u : Store}
  {a : TypeId} {n : NodeId}

lemma LoweringBuilt.reachable (h : s.LoweringBuilt builders saved) : s.Reachable := by
  induction h with
  | new options => exact reachable_new options
  | run _ _ _ _ hrun ih => exact ih.run hrun

lemma Preserves.extends (h : s.Preserves saved t) : s.Extends t := by
  refine extends_of_nodes h.types h.nodes.length_le h.debugTypes h.unkeyed ?_ h.files
  exact Debug.NodeTable.entry?_mono h.nodes

lemma Progress.extends (h : s.Progress builders saved t) : s.Extends t := by
  cases h with
  | preserves h => exact h.extends
  | lower _ h => exact extends_lower h
  | walk _ h => exact extends_of_walk h

/-! ### Permitted operations -/

/-- Nodes may be added, and parts that lowering only reads may change. -/
lemma preserves_of_nodes (nodes : s.nodes.nodes <+: t.nodes.nodes) (types : t.types = s.types)
    (debugTypes : t.debugTypes = s.debugTypes) (unkeyed : t.unkeyed = s.unkeyed)
    (methods : t.methods = s.methods)
    (files : ∀ {name file}, s.files.get? name = some file → ∃ file',
      t.files.get? name = some file' ∧ file'.source = file.source ∧ file'.unit = file.unit) :
    s.Preserves saved t where
  types := by
    rw [types]
    exact .refl
  nodes := nodes
  debugTypes := debugTypes
  unkeyed := unkeyed
  files := files
  methods := by
    intro id n h
    rw [function?, methods] at h
    exact Or.inl h

lemma preserves_addNode {e : Debug.Entry} : s.Preserves saved (s.addNode e).2 :=
  preserves_of_nodes (List.prefix_append _ _) rfl rfl rfl rfl fun h => ⟨_, h, rfl, rfl⟩

lemma preserves_of_grows {types : TypeTable} (h : s.types.Grows types) :
    s.Preserves saved { s with types } where
  types := h
  nodes := List.prefix_refl _
  debugTypes := rfl
  unkeyed := rfl
  files := fun h => ⟨_, h, rfl, rfl⟩
  methods := Or.inl

lemma preserves_openFile {name : String} : s.Preserves saved (s.openFile name).2 := by
  refine preserves_of_nodes nodes_le_openFile types_openFile debugTypes_openFile unkeyed_openFile
    methods_openFile fun h => ⟨_, get?_files_openFile_of_get? h, rfl, rfl⟩

/-- A file of which the open scopes change keeps its source and its unit. -/
lemma get?_files_insert {name : String} {file : Debug.File} (opened : Debug.File)
    (h : s.files.get? name = some file) (source : opened.source = file.source)
    (unit : opened.unit = file.unit) {name' : String} {file' : Debug.File}
    (hfile : s.files.get? name' = some file') : ∃ file'',
      (s.files.insert name opened).get? name' = some file'' ∧ file''.source = file'.source ∧
        file''.unit = file'.unit := by
  by_cases hname : name' = name
  · subst hname
    obtain rfl : file = file' := Option.some.inj (h.symm.trans hfile)
    exact ⟨opened, OrderedMap.get?_insert_self, source, unit⟩
  · exact ⟨file', (OrderedMap.get?_insert_of_ne hname).trans hfile, rfl, rfl⟩

lemma preserves_pushScope {name : String} {scope : NodeId} :
    s.Preserves saved (s.pushScope name scope) := by
  refine preserves_of_nodes nodes_le_openFile types_openFile debugTypes_openFile unkeyed_openFile
    methods_openFile fun h => ?_
  exact get?_files_insert ((s.openFile name).1.push scope) get?_files_openFile rfl rfl
    (get?_files_openFile_of_get? h)

lemma preserves_popScope {name : String} (h : (s.openFile name).2.popScope name = .ok t) :
    s.Preserves saved t := by
  obtain ⟨file, scope, hopened, rfl⟩ := popScope_eq_ok h
  refine preserves_of_nodes nodes_le_openFile types_openFile debugTypes_openFile unkeyed_openFile
    methods_openFile fun h => ?_
  exact get?_files_insert file hopened rfl rfl (get?_files_openFile_of_get? h)

lemma preserves_saveFunction {method : Decl.MethodId} {f : Debug.Function} (known : saved method n)
    (h : s.nodes.entry? n = some (.function f)) :
    s.Preserves saved (s.saveFunction method n) where
  types := .refl
  nodes := List.prefix_refl _
  debugTypes := rfl
  unkeyed := rfl
  files := fun h => ⟨_, h, rfl, rfl⟩
  methods := by
    intro id m hm
    by_cases hid : id = method
    · subst hid
      have hm' : (s.methods.insert id n).get? id = some m := hm
      rw [OrderedMap.get?_insert_self, Option.some.injEq] at hm'
      exact Or.inr ⟨hm' ▸ known, f, hm' ▸ h⟩
    · exact Or.inl ((OrderedMap.get?_insert_of_ne hid).symm.trans hm)

/-- A permitted operation lowers a type, completes a module, or leaves the debug types. -/
theorem progress_of_run {op : Operation} {reply : Reply} (permitted : s.permits op = true)
    (builder : ∀ b, op.builder? = some b → builders b)
    (function : ∀ method n, op.saved? = some (method, n) → saved method n)
    (h : s.run op = .ok (reply, t)) :
    s.Progress builders saved t := by
  cases effect_of_run h with
  | idle =>
    refine .preserves (preserves_of_nodes (List.prefix_refl _) rfl rfl rfl rfl ?_)
    exact fun h => ⟨_, h, rfl, rfl⟩
  | types grants => exact .preserves (preserves_of_grows grants.grows)
  | add => exact .preserves preserves_addNode
  | keyed lists => cases lists <;> simp [permits] at permitted
  | unkeyed lists => cases lists <;> simp [permits] at permitted
  | fill fills => cases fills <;> simp [permits] at permitted
  | opened => exact .preserves preserves_openFile
  | pushScope => exact .preserves preserves_pushScope
  | popScope popped => exact .preserves (preserves_popScope popped)
  | @saveFunction method n =>
    -- Permitted is the saving of a function only.
    obtain ⟨e, he, hfunction⟩ := (Option.any_eq_true _ _).1 permitted
    obtain ⟨f, hf⟩ := Option.isSome_iff_exists.1 hfunction
    cases e <;> simp only [Debug.Entry.function?, reduceCtorEq] at hf
    exact .preserves (preserves_saveFunction (function method n rfl) he)
  | recordDebugType => simp [permits] at permitted
  | template => simp [permits] at permitted
  | @lower b _ _ _ _ lowered => exact .lower (builder b rfl) lowered
  | lowerComposite => simp [permits] at permitted
  | @lowerModule b _ _ _ walk => exact .walk (builder b rfl) walk

/-- What holds of a new store and is kept by lowering, by completing modules and by operations
beside the debug types, holds of every store that leaves the debug types to lowering. -/
theorem LoweringBuilt.induction {P : Store → Prop} (h : s.LoweringBuilt builders saved)
    (start : ∀ options, P (Store.new options))
    (step : ∀ s t, s.LoweringBuilt builders saved → t.LoweringBuilt builders saved →
      s.Progress builders saved t → P s → P t) : P s := by
  induction h with
  | new options => exact start options
  | run h permitted builder function hrun ih =>
    exact step _ _ h (h.run permitted builder function hrun)
      (progress_of_run permitted builder function hrun) ih

/-! ### Sessions -/

/-- Whether every operation of a session leaves the debug types to lowering. -/
def permitsAll (s : Store) : List Operation → Bool
  | [] => true
  | op :: ops => s.permits op && (s.run op).toOption.all fun result => result.2.permitsAll ops

/-- A session of permitted operations leaves the debug types to lowering. -/
lemma LoweringBuilt.runAll {ops : List Operation} {replies : List Reply}
    (h : s.LoweringBuilt builders saved) (permitted : s.permitsAll ops = true)
    (builder : ∀ op ∈ ops, ∀ b, op.builder? = some b → builders b)
    (function : ∀ op ∈ ops, ∀ method n, op.saved? = some (method, n) → saved method n)
    (hrun : s.runAll ops = .ok (replies, t)) : t.LoweringBuilt builders saved := by
  induction ops generalizing s replies with
  | nil =>
    cases hrun
    exact h
  | cons op ops ih =>
    rw [permitsAll, Bool.and_eq_true] at permitted
    obtain ⟨reply, r, replies', hop, hops, -⟩ := runAll_cons_eq_ok hrun
    have hr : r.LoweringBuilt builders saved :=
      h.run permitted.1 (builder op List.mem_cons_self) (function op List.mem_cons_self) hop
    refine ih hr ?_ (fun op' hop' => builder op' (List.mem_cons_of_mem _ hop'))
      (fun op' hop' => function op' (List.mem_cons_of_mem _ hop')) hops
    simpa [hop, Except.toOption] using permitted.2

end Store

end ShaderTypes
