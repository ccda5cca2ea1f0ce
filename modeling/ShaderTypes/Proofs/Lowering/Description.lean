import ShaderTypes.Proofs.Lowering.Alignment
import ShaderTypes.Proofs.Lowering.Lookup
import ShaderTypes.Proofs.Store.Sizes
import ShaderTypes.Proofs.Store.Soundness

/-!
# What debug types say

`Store.Describes` is the specification of the registry: what the node listed under a type has to
say, with the debug types of the parts found in the registry by `Store.resolve?`.  A composite has
the heading and the slots that record and struct call for, `Lowering.Heads` and `Lowering.Aligns`,
and `Store.Members` goes along the slots and the nodes listed by the composite at once.  The
functions of methods are known from outside: `saved` tells which of them belong to a method.

A description mentions types, files, listed nodes, members, functions and sizes.  All but the sizes
stay as they are even while an outer composite is being filled, which is `Store.Sustains`.  So a
description stays right as long as the parts keep their sizes.
-/

namespace ShaderTypes.Store

/-- The debug type of a type in a compilation that leaves the debug types to lowering: that of the
pointee for a pointer, the node listed under the type if it can be described, and the placeholder
otherwise. -/
def resolve? (s : Store) (a : TypeId) : Option NodeId :=
  match s.types.shape? a with
  | some (.pointer p _) => if _h : p.index < a.index then s.resolve? p else none
  | some x => s.debugTypes.get? (if x.isDescribed then some a else none)
  | none => none
termination_by a.index

/-- The constant operand for the value of an initializer. -/
inductive Evaluates (s : Store) : Option Literal → Option Debug.Constant → Prop
  | int {w : TypeId} {v : Int64} (word : s.types.shape? w = some (.integer 32 true)) :
      Evaluates s (some (.int v)) (some ⟨w, .int v⟩)
  | float {w : TypeId} {v : Binary64} (word : s.types.shape? w = some (.float 32)) :
      Evaluates s (some (.float v)) (some ⟨w, .float v⟩)
  | bool {w : TypeId} {v : Bool} (word : s.types.shape? w = some (.integer 32 true)) :
      Evaluates s (some (.bool v)) (some ⟨w, .int (if v then 1 else 0)⟩)
  | other : Evaluates s (some .other) none
  | none : Evaluates s none none

/-- The members of a composite, one for each slot: a function saved for the method, or a member that
says what the declaration and the struct field say, has the debug type of the field's type and the
size of it, and is placed behind the members before it or at the fixed offset of the field. -/
inductive Members (s : Store) (saved : Decl.MethodId → NodeId → Prop) (composite : NodeId) :
    List Lowering.Slot → Lowering.Extent → List NodeId → Lowering.Extent → Prop
  | nil {extent : Lowering.Extent} : Members s saved composite [] extent [] extent
  | method {decl : Decl.Method} {slots : List Lowering.Slot} {extent extent' : Lowering.Extent}
      {m : NodeId} {ms : List NodeId} {f : Debug.Function} (known : saved decl.id m)
      (function : s.nodes.entry? m = some (.function f))
      (tail : Members s saved composite slots extent ms extent') :
      Members s saved composite (.method decl :: slots) extent (m :: ms) extent'
  | data {decl : Decl.Field} {field : Field} {slots : List Lowering.Slot}
      {extent extent' : Lowering.Extent} {m type : NodeId} {ms : List NodeId} {file : Debug.File}
      {value : Option Debug.Constant}
      (described : s.resolve? field.type = some type)
      (located : s.files.get? decl.location.file = some file)
      (evaluated : s.Evaluates decl.value value)
      (member : s.nodes.entry? m = some (.member
        { name := field.name.getD decl.name
          type
          site := ⟨file.source, decl.location.line, decl.location.column⟩
          parent := composite
          offset := extent.offset field.offset
          size := s.nodes.sizeInBits type
          flags := .visibility decl.isPrivate
          value }))
      (tail : Members s saved composite slots
        (extent.place (extent.offset field.offset) (s.nodes.sizeInBits type)) ms extent') :
      Members s saved composite (.data decl field :: slots) extent (m :: ms) extent'

/-- What the node `n` listed under a type of the given shape says. -/
inductive Describes (s : Store) (saved : Decl.MethodId → NodeId → Prop) :
    Shape → NodeId → Debug.Entry → Prop
  | basic {x : Shape} {n : NodeId} {name : String} {bits : UInt32} {encoding : Debug.Encoding}
      {w : TypeId} (basic : x.basic? = some (name, bits, encoding))
      (word : s.types.shape? w = some (.integer 32 false)) :
      Describes s saved x n
        (.basic { name, size := some ⟨w, .int (Int64.ofNat bits.toNat)⟩, encoding })
  | vector {u : TypeId} {count : UInt32} {n element : NodeId}
      (described : s.resolve? u = some element) :
      Describes s saved (.vector u count) n (.vector { element, count })
  | array {u : TypeId} {count : UInt32} {stride : Option UInt32} {n element : NodeId}
      (described : s.resolve? u = some element) :
      Describes s saved (.array u count stride) n (.array { element, counts := [count] })
  | procedure {signature : Signature} {n : NodeId} {params : List NodeId}
      (void : s.types.has signature.result Shape.isVoid = true)
      (described : signature.params.map s.resolve? = params.map some) :
      Describes s saved (.function signature) n
        (.functionType { flags := .isPublic, result := none, params })
  | function {signature : Signature} {n result : NodeId} {params : List NodeId}
      (void : s.types.has signature.result Shape.isVoid = false)
      (returned : s.resolve? signature.result = some result)
      (described : signature.params.map s.resolve? = params.map some) :
      Describes s saved (.function signature) n
        (.functionType { flags := .isPublic, result := some result, params })
  | composite {struct : Struct} {record : Decl.Record} {n : NodeId} {file : Debug.File}
      {heading : Debug.Heading} {slots : List Lowering.Slot} {members : List NodeId}
      {extent : Lowering.Extent} (made : struct.record = some record)
      (located : s.files.get? record.location.file = some file)
      (headed : Lowering.Heads record struct file heading)
      (aligned : Lowering.Aligns record struct slots)
      (filled : s.Members saved n slots {} members extent) :
      Describes s saved (.struct struct) n (.composite { heading with size := extent.size, members })

/-- What the placeholder says. -/
def placeholderEntry : Debug.Entry :=
  .basic { name := "Unknown", size := none, encoding := .unspecified }

/-! ### Descriptions in later stores -/

/-- What a description rests on, as a later store keeps it. -/
structure Sustains (s t : Store) : Prop where
  shapes : s.types.shapes <+: t.types.shapes
  keyed : ∀ {key : Option TypeId} {n : NodeId}, s.debugTypes.get? key = some n →
    t.debugTypes.get? key = some n
  files : ∀ {name : String} {file : Debug.File}, s.files.get? name = some file →
    ∃ file', t.files.get? name = some file' ∧ file'.source = file.source ∧ file'.unit = file.unit
  entries : ∀ {n : NodeId} {e : Debug.Entry}, s.nodes.entry? n = some e → e.composite? = none →
    t.nodes.entry? n = some e

variable {s t u : Store} {a p : TypeId} {n d : NodeId} {b : BuilderId} {x : Shape} {c : Storage}
  {e : Debug.Entry} {saved : Decl.MethodId → NodeId → Prop}

lemma Sustains.refl (s : Store) : s.Sustains s where
  shapes := List.prefix_refl _
  keyed := id
  files := fun h => ⟨_, h, rfl, rfl⟩
  entries := fun h _ => h

lemma Sustains.trans (h : s.Sustains t) (h' : t.Sustains u) : s.Sustains u where
  shapes := h.shapes.trans h'.shapes
  keyed := fun hn => h'.keyed (h.keyed hn)
  files := by
    intro name file hfile
    obtain ⟨file', hfile', hsource, hunit⟩ := h.files hfile
    obtain ⟨file'', hfile'', hsource', hunit'⟩ := h'.files hfile'
    exact ⟨file'', hfile'', hsource'.trans hsource, hunit'.trans hunit⟩
  entries := fun he hcomposite => h'.entries (h.entries he hcomposite) hcomposite

lemma Extends.sustains (h : s.Extends t) : s.Sustains t where
  shapes := h.types.shapes_le
  keyed := h.get?_debugTypes
  files := h.files
  entries := fun he _ => h.entries he

/-- A change that leaves composites alone, or makes something of a composite only. -/
lemma entry?_of_change_of_not_composite {keys : Store → TypeId → Prop} {base : Nat}
    (h : Lowering.Change b keys base s t) (he : s.nodes.entry? n = some e)
    (hcomposite : e.composite? = none) : t.nodes.entry? n = some e := by
  have other {m : NodeId} (f : Debug.Composite → Debug.Composite) :
      (s.modifyNode m fun node =>
        { node with entry := node.entry.mapComposite f }).nodes.entry? n = some e := by
    obtain ⟨node, hnode, rfl⟩ := Option.map_eq_some_iff.1 he
    rw [modifyNode, Debug.NodeTable.entry?, Debug.NodeTable.node?_modify, hnode]
    split
    · rcases hentry : node.entry <;> simp_all [Debug.Entry.composite?, Debug.Entry.mapComposite]
    · rfl
  cases h with
  | internType => exact he
  | openFile => exact Debug.NodeTable.entry?_mono nodes_le_openFile he
  | keyedNode => exact Debug.NodeTable.entry?_mono nodes_le_keyedNode he
  | unkeyedNode => exact Debug.NodeTable.entry?_mono nodes_le_unkeyedNode he
  | stamp => rwa [entry?_stamp]
  | pushMember => exact other _
  | setSize => exact other _

lemma sustains_of_changes {keys : Store → TypeId → Prop} {base : Nat}
    (h : Lowering.Changes b keys base s t) : s.Sustains t := by
  refine h.induction (.refl s) fun r r' change hr => hr.trans ?_
  obtain ⟨more, hmore, -⟩ := change.keyed
  exact
    { shapes := change.grows.shapes_le
      keyed := fun hn => OrderedMap.get?_append hmore hn
      files := fun hfile => ⟨_, files_of_change change hfile, rfl, rfl⟩
      entries := entry?_of_change_of_not_composite change }

/-! ### The cases of resolution -/

lemma resolve?_of_pointer (hx : s.types.shape? a = some (.pointer p c)) (hp : p.index < a.index) :
    s.resolve? a = s.resolve? p := by
  rw [resolve?, hx]
  exact dif_pos hp

lemma resolve?_of_shape? (hx : s.types.shape? a = some x) (pointer : x.isPointer = false) :
    s.resolve? a = s.debugTypes.get? (if x.isDescribed then some a else none) := by
  rw [resolve?, hx]
  cases x <;> first | rfl | simp [Shape.isPointer] at pointer

/-- A type is resolved in one of two ways. -/
lemma resolve?_cases (h : s.resolve? a = some n) :
    (∃ p c, s.types.shape? a = some (.pointer p c) ∧ p.index < a.index ∧ s.resolve? p = some n) ∨
      ∃ x, s.types.shape? a = some x ∧ x.isPointer = false ∧
        s.debugTypes.get? (if x.isDescribed then some a else none) = some n := by
  rcases hx : s.types.shape? a with _ | x
  · rw [resolve?, hx] at h
    cases h
  cases pointer : x.isPointer with
  | true =>
    cases x <;> simp only [Shape.isPointer, Bool.false_eq_true] at pointer
    rename_i p c
    rw [resolve?, hx] at h
    obtain ⟨hp, hn⟩ : p.index < a.index ∧ s.resolve? p = some n := by simpa using h
    exact Or.inl ⟨p, c, rfl, hp, hn⟩
  | false => exact Or.inr ⟨x, rfl, pointer, (resolve?_of_shape? hx pointer).symm.trans h⟩

/-- What is resolved once is resolved to the same node as long as types and keys stay. -/
lemma resolve?_mono (shapes : s.types.shapes <+: t.types.shapes)
    (keyed : ∀ {key n}, s.debugTypes.get? key = some n → t.debugTypes.get? key = some n)
    (ha : s.resolve? a = some n) : t.resolve? a = some n := by
  induction a using TypeId.strongInduction with
  | _ a ih =>
  rcases resolve?_cases ha with ⟨p, c, hx, hp, hn⟩ | ⟨x, hx, pointer, hn⟩
  · rw [resolve?_of_pointer (TypeTable.shape?_mono shapes hx) hp]
    exact ih p hp hn
  · rw [resolve?_of_shape? (TypeTable.shape?_mono shapes hx) pointer]
    exact keyed hn

lemma Sustains.resolve? (h : s.Sustains t) (ha : s.resolve? a = some n) : t.resolve? a = some n :=
  resolve?_mono h.shapes h.keyed ha

/-- In a store that lists no types but such that can be described, lowering finds what resolution
says. -/
lemma found?_eq_resolve? (wf : s.types.WellFormed)
    (described : ∀ {a n}, s.debugType? a = some n →
      ∃ x, s.types.shape? a = some x ∧ x.isDescribed = true) (a : TypeId) :
    s.found? a = s.resolve? a := by
  induction a using TypeId.strongInduction with
  | _ a ih =>
  rcases hx : s.types.shape? a with _ | x
  · have ha : s.debugType? a = none := by
      rw [Option.eq_none_iff_forall_ne_some]
      intro n hn
      obtain ⟨x, hx', -⟩ := described hn
      cases hx.symm.trans hx'
    rw [found?, Store.resolve?, ha, hx]
  -- Pointers and types that cannot be described are not listed in such a store.
  have undescribed (hd : x.isDescribed = false) : s.debugType? a = none := by
    rw [Option.eq_none_iff_forall_ne_some]
    intro n hn
    obtain ⟨y, hy, hdescribed⟩ := described hn
    obtain rfl : x = y := Option.some.inj (hx.symm.trans hy)
    cases hd.symm.trans hdescribed
  rcases pointer : x.isPointer with _ | _
  · rw [resolve?_of_shape? hx pointer]
    rcases hd : x.isDescribed with _ | _
    · exact found?_of_undescribed (undescribed hd) hx hd pointer
    · rcases ha : s.debugType? a with _ | n
      · rw [found?_of_shape? ha hx pointer, hd]
        exact ha.symm
      · exact (found?_of_debugType? ha).trans ha.symm
  · cases x <;> simp only [Shape.isPointer, Bool.false_eq_true] at pointer
    rename_i p c
    have hp := wf a _ hx p List.mem_cons_self
    rw [found?_of_pointer (undescribed rfl) hx hp, resolve?_of_pointer hx hp]
    exact ih p hp

lemma Sustains.map_resolve? {as : List TypeId} {ns : List NodeId} (h : s.Sustains t)
    (has : as.map s.resolve? = ns.map some) : as.map t.resolve? = ns.map some := by
  induction as generalizing ns with
  | nil => exact has
  | cons a as ih =>
    rcases ns with _ | ⟨n, ns⟩
    · cases has
    · rw [List.map_cons, List.map_cons, List.cons.injEq] at has ⊢
      exact ⟨h.resolve? has.1, ih has.2⟩

/-- The types that the shape of a type is built from are in the table. -/
lemma Sound.operand_lt (hs : s.Sound) (hx : s.types.shape? a = some x) :
    ∀ u ∈ x.operands, u.index < s.types.size :=
  fun _ hu => hs.types.wellFormed.operand_lt hx hu

/-- A type is resolved to a node that there is. -/
lemma Sound.resolve?_lt (hs : s.Sound) (ha : s.resolve? a = some n) :
    n.index < s.nodes.size := by
  induction a using TypeId.strongInduction with
  | _ a ih =>
  rcases resolve?_cases ha with ⟨p, -, -, hp, hn⟩ | ⟨x, -, -, hn⟩
  · exact ih p hp hn
  · exact hs.lt_of_get? hn

/-! ### Regular stores -/

/-- What a lowering starts from in a compilation that leaves the debug types to lowering: a sound
store in which types that can be described are listed only. -/
structure Regular (s : Store) : Prop where
  sound : s.Sound
  described : ∀ {a : TypeId} {n : NodeId}, s.debugType? a = some n →
    ∃ x, s.types.shape? a = some x ∧ x.isDescribed = true

/-- In a regular store lowering finds what resolution says. -/
lemma Regular.found?_eq_resolve? (hs : s.Regular) (a : TypeId) : s.found? a = s.resolve? a :=
  Store.found?_eq_resolve? hs.sound.types.wellFormed hs.described a

lemma Regular.of_extends (hs : s.Regular) (h : s.Extends t) (sound : t.Sound) : t.Regular where
  sound := sound
  described := by
    intro a n hn
    rcases h.debugType?_cases hn with hn | ⟨-, -, hx⟩
    · obtain ⟨x, hx, described⟩ := hs.described hn
      exact ⟨x, h.shape? hx, described⟩
    · exact hx

lemma Regular.of_changes {bound base : Nat} (hs : s.Regular)
    (h : Lowering.Changes b (Lowering.Listable bound) base s t) : t.Regular where
  sound := (edits_of_changes h).sound hs.sound
  described := by
    intro a n hn
    rcases h.get?_cases hn with hn | ⟨-, -, hnew⟩
    · obtain ⟨x, hx, described⟩ := hs.described hn
      exact ⟨x, TypeTable.shape?_mono h.grows.shapes_le hx, described⟩
    · exact (hnew a rfl).2

/-- After a lowering the type is resolved to the node that lowering gave. -/
lemma Regular.resolve?_of_lower (hs : s.Regular) (h : lower b a s = .ok (n, t)) :
    t.resolve? a = some n :=
  ((hs.of_changes (lower_changes h)).found?_eq_resolve? a).symm.trans (found?_of_lower h)

/-! ### Descriptions are kept -/

lemma Evaluates.mono {value : Option Literal} {constant : Option Debug.Constant}
    (h : s.Sustains t) (he : s.Evaluates value constant) : t.Evaluates value constant := by
  cases he with
  | int word => exact .int (TypeTable.shape?_mono h.shapes word)
  | float word => exact .float (TypeTable.shape?_mono h.shapes word)
  | bool word => exact .bool (TypeTable.shape?_mono h.shapes word)
  | other => exact .other
  | none => exact .none

lemma Members.mono {slots : List Lowering.Slot} {extent extent' : Lowering.Extent}
    {ms : List NodeId} (h : s.Sustains t)
    (sizes : ∀ decl field, .data decl field ∈ slots → ∀ d, s.resolve? field.type = some d →
      t.nodes.sizeInBits d = s.nodes.sizeInBits d)
    (hm : s.Members saved n slots extent ms extent') :
    t.Members saved n slots extent ms extent' := by
  induction hm with
  | nil => exact .nil
  | method known function _ ih =>
    refine .method known (h.entries function rfl) (ih fun decl field hslot => ?_)
    exact sizes decl field (List.mem_cons_of_mem _ hslot)
  | data described located evaluated member _ ih =>
    obtain ⟨file', hfile', hsource, -⟩ := h.files located
    have hsize := sizes _ _ List.mem_cons_self _ described
    refine .data (h.resolve? described) hfile' (evaluated.mono h) ?_ ?_
    · rw [hsource, hsize]
      exact h.entries member rfl
    · rw [hsize]
      exact ih fun decl field hslot => sizes decl field (List.mem_cons_of_mem _ hslot)

/-- A description stays right, if the types that the shape is built from are in the table and what
they are resolved to keeps its size. -/
lemma Describes.mono (h : s.Sustains t) (hx : ∀ u ∈ x.operands, u.index < s.types.size)
    (sizes : ∀ u ∈ x.operands, ∀ d, s.resolve? u = some d →
      t.nodes.sizeInBits d = s.nodes.sizeInBits d)
    (hd : s.Describes saved x n e) : t.Describes saved x n e := by
  cases hd with
  | basic basic word => exact .basic basic (TypeTable.shape?_mono h.shapes word)
  | vector described => exact .vector (h.resolve? described)
  | array described => exact .array (h.resolve? described)
  | procedure void described =>
    refine .procedure ?_ (h.map_resolve? described)
    rw [TypeTable.has_eq_of_lt h.shapes (hx _ List.mem_cons_self), void]
  | function void returned described =>
    refine .function ?_ (h.resolve? returned) (h.map_resolve? described)
    rw [TypeTable.has_eq_of_lt h.shapes (hx _ List.mem_cons_self), void]
  | composite made located headed aligned filled =>
    obtain ⟨file', hfile', hsource, hunit⟩ := h.files located
    refine .composite made hfile' (headed.of_file hsource hunit) aligned ?_
    exact filled.mono h fun decl field hslot => sizes _ (aligned.mem_operands hslot)

/-- What was described stays so in a store that takes nothing back. -/
lemma Describes.of_extends (h : s.Extends t) (sound : s.Sound)
    (hx : s.types.shape? a = some x) (hd : s.Describes saved x n e) :
    t.Describes saved x n e := by
  refine hd.mono h.sustains (sound.operand_lt hx) ?_
  intro u _ d hu
  exact h.sizeInBits_eq (sound.resolve?_lt hu)

end ShaderTypes.Store
