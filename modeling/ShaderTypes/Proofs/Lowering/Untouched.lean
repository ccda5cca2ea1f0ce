import ShaderTypes.Proofs.Store.Files
import ShaderTypes.Proofs.TypeTable.Section

/-!
# What lowering leaves alone

Lowering a type makes files, types and nodes on its way, and it fills and stamps nodes as it goes.
Whatever the registry listed before, all of this is done to what this very lowering made.  What was
there is left as it is, with one exception: the placeholder is stamped each time a type that cannot
be described is lowered.  `Store.Untouched` has it part by part.

The nodes are the part that takes an argument.  A change touches nodes from its base on, or the node
listed under no type; and no change lists a node there that is older than the lowering.
-/

namespace ShaderTypes

/-! ### Types that are gained -/

lemma Shape.isIncidental_iff {x : Shape} : x.isIncidental = true ↔
    x ∈ [Shape.void, .integer 32 false, .integer 32 true, .float 32] := by
  cases x with
  | integer bits signed => cases signed <;> simp [isIncidental]
  | _ => simp [isIncidental]

lemma Shape.isHybrid_of_isIncidental {x : Shape} (h : x.isIncidental = true) :
    x.isHybrid = false := by
  cases x <;> first | rfl | cases h

namespace TypeTable

variable {t u : TypeTable} {a : TypeId}

/-- No two types of an interned table have the same shape, unresolved types apart. -/
lemma Interned.shape?_ne {v : TypeId} {x : Shape} (h : t.Interned) (hlt : a.index < v.index)
    (hx : t.shape? a = some x) (hybrid : x.isHybrid = false) : t.shape? a ≠ t.shape? v := by
  intro heq
  have hself : t.answers x x = true := answers_iff_sameKey.2 (.refl hybrid)
  cases hself.symm.trans (h.distinct hlt hx (heq ▸ hx))

/-- The canonical types that a table gains come last and each have a shape of their own. -/
lemma Gains.canonical (hu : u.Interned) (h : t.Gains Shape.isIncidental u) :
    ∃ more, u.canonical = t.canonical ++ more ∧ (more.map u.shape?).Nodup ∧
      ∀ v ∈ more, ∃ x, u.shape? v = some x ∧ x.isIncidental = true := by
  have shapes : t.shapes <+: u.shapes := by
    obtain ⟨last, hlast, -⟩ := h
    exact ⟨last, hlast.symm⟩
  obtain ⟨more, hmore⟩ := canonical_isPrefix shapes
  have ordered : (t.canonical ++ more).Pairwise fun a b => a.index < b.index :=
    hmore ▸ u.pairwise_canonical
  obtain ⟨-, increasing, behind⟩ := List.pairwise_append.1 ordered
  have incidental : ∀ v ∈ more, ∃ x, u.shape? v = some x ∧ x.isIncidental = true := by
    intro v hv
    obtain ⟨hlt, hybrid⟩ := mem_canonical.1 (hmore ▸ List.mem_append_right _ hv)
    obtain ⟨x, hx⟩ := exists_shape? hlt
    rcases h.shape?_cases hx with hold | ⟨-, hincidental⟩
    · -- An older type is in the first part of the list, so it does not come after it.
      rw [isHybrid_eq hx, ← isHybrid_eq hold] at hybrid
      have := behind v (mem_canonical.2 ⟨shape?_lt hold, hybrid⟩) v hv
      omega
    · exact ⟨x, hx, hincidental⟩
  refine ⟨more, hmore.symm, ?_, incidental⟩
  refine List.pairwise_map.2 (increasing.imp_of_mem fun {v w} hv _ hlt => ?_)
  obtain ⟨x, hx, hincidental⟩ := incidental v hv
  exact hu.shape?_ne hlt hx (Shape.isHybrid_of_isIncidental hincidental)

end TypeTable

namespace Store

/-- What a lowering for a builder leaves of the store.  It adds the types for results and constants
at most; it lists types that can be described, with new nodes; and of the older nodes it stamps the
placeholder and touches no other. -/
structure Untouched (s : Store) (b : BuilderId) (t : Store) : Prop where
  options : t.options = s.options
  files : ∀ {name : String} {file : Debug.File}, s.files.get? name = some file →
    t.files.get? name = some file
  currentScope : t.currentScope = s.currentScope
  methods : t.methods = s.methods
  shapes : s.types.shapes <+: t.types.shapes
  types : ∃ more, t.types.canonical = s.types.canonical ++ more ∧
    (more.map t.types.shape?).Nodup ∧ ∀ u ∈ more, ∃ x, t.types.shape? u = some x ∧
      x ∈ [Shape.void, .integer 32 false, .integer 32 true, .float 32]
  debugTypes : ∃ more, t.debugTypes.entries = s.debugTypes.entries ++ more ∧ ∀ entry ∈ more,
    s.nodes.size ≤ entry.2.index ∧
      ∀ u, entry.1 = some u → ∃ x, t.types.shape? u = some x ∧ x.isDescribed = true
  unkeyed : ∃ more, t.unkeyed = s.unkeyed ++ more ∧ ∀ m ∈ more, s.nodes.size ≤ m.index
  nodes : ∀ {m : NodeId} {node : Debug.Node}, s.nodes.node? m = some node →
    t.nodes.node? m = some node ∨ s.debugTypes.get? none = some m ∧
      ∃ v, t.types.shape? v = some .void ∧
        t.nodes.node? m = some { node with resultType := some v, instructionSet := some b }
  composites : ∀ {m : NodeId} {c : Debug.Composite}, s.nodes.composite? m = some c →
    t.nodes.composite? m = some c

variable {s t : Store} {b : BuilderId} {a : TypeId} {n m : NodeId} {node : Debug.Node}
  {keys : Store → TypeId → Prop} {base : Nat}

/-! ### Nodes -/

/-- A change leaves the nodes from before the base, but for a stamp of the node that is listed under
no type. -/
lemma node?_of_change (h : Lowering.Change b keys base s t) (hm : m.index < base)
    (hnode : s.nodes.node? m = some node) :
    t.nodes.node? m = some node ∨ s.debugTypes.get? none = some m ∧
      ∃ v, t.types.shape? v = some .void ∧
        t.nodes.node? m = some { node with resultType := some v, instructionSet := some b } := by
  have other {l : NodeId} {f : Debug.Node → Debug.Node} (hl : base ≤ l.index) :
      (s.modifyNode l f).nodes.node? m = some node := by
    rw [modifyNode, Debug.NodeTable.node?_modify_of_ne (by rintro rfl; omega)]
    exact hnode
  cases h with
  | internType => exact Or.inl hnode
  | openFile => exact Or.inl (Debug.NodeTable.node?_mono nodes_le_openFile hnode)
  | keyedNode => exact Or.inl (Debug.NodeTable.node?_mono nodes_le_keyedNode hnode)
  | unkeyedNode => exact Or.inl (Debug.NodeTable.node?_mono nodes_le_unkeyedNode hnode)
  | @stamp l recent =>
    rw [nodes_stamp]
    by_cases hl : m = l
    · subst hl
      refine Or.inr ⟨recent.resolve_left (by omega), (s.types.intern .void).1, ?_, ?_⟩
      · exact TypeTable.shape?_intern fun same y => by cases y <;> simp [Shape.agrees.eq_def]
      · rw [Debug.NodeTable.node?_modify_self, hnode]
        rfl
    · exact Or.inl ((Debug.NodeTable.node?_modify_of_ne hl).trans hnode)
  | pushMember recent => exact Or.inl (other recent)
  | setSize recent => exact Or.inl (other recent)

/-- The nodes from before a lowering, but for the placeholder, are left as they are by all of its
changes. -/
lemma node?_of_changes {bound : Nat}
    (h : Lowering.Changes b (Lowering.Listable bound) s.nodes.size s t)
    (hnode : s.nodes.node? m = some node) :
    t.nodes.node? m = some node ∨ s.debugTypes.get? none = some m ∧
      ∃ v, t.types.shape? v = some .void ∧
        t.nodes.node? m = some { node with resultType := some v, instructionSet := some b } := by
  have hm := Debug.NodeTable.node?_lt hnode
  induction h with
  | refl => exact Or.inl hnode
  | @step r t h change ih =>
    -- What the store in between lists under no type was listed there, or is new.
    have listed (hr : r.debugTypes.get? none = some m) : s.debugTypes.get? none = some m := by
      rcases h.get?_cases hr with hs | ⟨-, hnew, -⟩
      · exact hs
      · omega
    rcases ih with hr | ⟨hnone, v, hv, hr⟩
    · exact (node?_of_change change hm hr).imp_right fun ⟨hnone, v, hv, ht⟩ =>
        ⟨listed hnone, v, hv, ht⟩
    · rcases node?_of_change change hm hr with ht | ⟨-, w, hw, ht⟩
      · exact Or.inr ⟨hnone, v, TypeTable.shape?_mono change.grows.shapes_le hv, ht⟩
      · exact Or.inr ⟨hnone, w, hw, ht⟩

/-- Lowering leaves all that was there, but for the stamp of the placeholder, whatever the registry
lists: the options, the files with their scopes, the current scope, the methods, the types, what is
listed, and the nodes. -/
theorem Reachable.untouched_of_lower (hs : s.Reachable) (h : lower b a s = .ok (n, t)) :
    s.Untouched b t := by
  have changes := lower_changes h
  have opens := opening_of_changes changes
  have extended := extends_lower h
  obtain ⟨more, hmore, hnodup, hgained⟩ :=
    changes.gains.canonical (changes.grows.interned hs.sound.types)
  exact
    { options := options_of_changes changes
      files := opens.kept
      currentScope := opens.currentScope
      methods := methods_of_changes changes
      shapes := changes.grows.shapes_le
      types := ⟨more, hmore, hnodup, fun u hu => by
        obtain ⟨x, hx, hincidental⟩ := hgained u hu
        exact ⟨x, hx, Shape.isIncidental_iff.1 hincidental⟩⟩
      debugTypes := extended.keyed
      unkeyed := extended.unkeyed
      nodes := node?_of_changes changes
      composites := fun hc => Debug.NodeTable.composite?_eq_some.2
        (extended.entries (Debug.NodeTable.composite?_eq_some.1 hc)) }

/-- A struct of a struct and a sampler, whose second field has a value. -/
def shellStruct : Struct where
  name := "Outer"
  fields := [{ type := ⟨0⟩ }, { type := ⟨1⟩ }]
  record := some
    { id := ⟨1⟩, name := "Outer", keyword := .structKeyword, location := ⟨"b.hlsl", 1, 1⟩
      members :=
        [.field { id := ⟨0⟩, name := "inner", location := ⟨"b.hlsl", 2, 3⟩ },
          .field
            { id := ⟨1⟩, name := "sampler", location := ⟨"b.hlsl", 3, 3⟩
              value := some (.int 5) }] }

/-- The inner struct has a composite of the caller without members, and the placeholder was stamped
for another builder. -/
def registeredSession : List Operation :=
  [.openFile "a.hlsl",
    .type (.struct
      { name := "Inner", fields := []
        record := some
          { id := ⟨0⟩, name := "Inner", keyword := .structKeyword
            location := ⟨"a.hlsl", 1, 1⟩ } }),
    .composite ⟨0⟩
      { name := "Inner", site := ⟨⟨0⟩, 1, 1⟩, parent := ⟨1⟩, linkageName := "Inner"
        flags := .isPublic, tag := .structureTag } 96,
    .type .sampler, .lower ⟨1⟩ ⟨1⟩, .type (.struct shellStruct)]

/-- The outer struct gets two members, the placeholder is stamped again, and the composite of the
inner struct stays without members and keeps the size that the caller gave it. -/
theorem untouched_of_lower_registered : ∃ s t : Store, s.Reachable ∧
    lower ⟨0⟩ ⟨3⟩ s = .ok (⟨6⟩, t) ∧ s.Untouched ⟨0⟩ t ∧
    (t.nodes.composite? ⟨6⟩).any (·.members.length == 2) = true ∧
    t.nodes.node? ⟨3⟩ ≠ s.nodes.node? ⟨3⟩ ∧
    ∃ c, t.nodes.composite? ⟨2⟩ = some c ∧ c.members = [] ∧ c.size = 96 := by
  obtain ⟨replies, s, hsession, hlowers, hc⟩ := exists_of_runAll {} registeredSession
    (fun s => ((lower ⟨0⟩ ⟨3⟩ s).toOption.any fun r => r.1 = ⟨6⟩ &&
      (r.2.nodes.composite? ⟨6⟩).any (·.members.length == 2) &&
      r.2.nodes.node? ⟨3⟩ ≠ s.nodes.node? ⟨3⟩) = true ∧
      ((s.nodes.composite? ⟨2⟩).any fun c => c.members = [] && c.size = 96) = true)
    (by decide +kernel)
  have reachable : s.Reachable := ⟨{}, registeredSession, replies, hsession⟩
  obtain ⟨⟨_, t⟩, hlower, hchecked⟩ := (Option.any_eq_true _ _).1 hlowers
  obtain ⟨c, hc, hempty⟩ := (Option.any_eq_true _ _).1 hc
  simp only [Bool.and_eq_true, decide_eq_true_eq] at hchecked hempty
  obtain ⟨⟨rfl, hmembers⟩, hstamped⟩ := hchecked
  have hok := eq_ok_of_toOption hlower
  have untouched := reachable.untouched_of_lower hok
  exact ⟨s, t, reachable, hok, untouched, hmembers, hstamped, c, untouched.composites hc, hempty⟩

end Store

end ShaderTypes
