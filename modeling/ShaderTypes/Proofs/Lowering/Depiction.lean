import ShaderTypes.Proofs.Lowering.Description
import ShaderTypes.Proofs.Lowering.Reach

/-!
# What debug types say when they are made

`Store.Describes` bounds the functions of methods from outside, because a function may be replaced
after a struct was described with it.  While nothing but lowering happens the functions stay, and
more can be said: `Store.Depicts` names the functions that are saved in the store itself, whatever
nodes they are.  It also says that the members made for data fields are newer than their composite,
and the later ones newer than the earlier ones, so that no two of them are the same.

The nodes under the types that a lowering lists are depicted, `Store.ListsDepicted`.
-/

namespace ShaderTypes

/-- What is built from the debug types of the parts is the same in a longer table. -/
lemma TypeTable.Builds.mono {t t' : TypeTable} {x : Shape} {nodes : List NodeId} {e : Debug.Entry}
    (h : t.Builds x nodes e) (shapes : t.shapes <+: t'.shapes)
    (hx : ∀ u ∈ x.operands, u.index < t.size) : t'.Builds x nodes e := by
  cases h with
  | vector => exact .vector
  | array => exact .array
  | procedure void => exact .procedure ((has_eq_of_lt shapes (hx _ List.mem_cons_self)).trans void)
  | function void => exact .function ((has_eq_of_lt shapes (hx _ List.mem_cons_self)).trans void)

namespace Store

/-- The members of a composite, one for each slot: the function that is saved for the method, or a
member made for the data field.  The indices of those that were made increase from `low` on. -/
inductive Populates (s : Store) (composite : NodeId) :
    List Lowering.Slot → Nat → Lowering.Extent → List NodeId → Lowering.Extent → Prop
  | nil {low : Nat} {extent : Lowering.Extent} : Populates s composite [] low extent [] extent
  | method {decl : Decl.Method} {slots : List Lowering.Slot} {low : Nat}
      {extent extent' : Lowering.Extent} {m : NodeId} {ms : List NodeId}
      (saved : s.function? decl.id = some m)
      (tail : Populates s composite slots low extent ms extent') :
      Populates s composite (.method decl :: slots) low extent (m :: ms) extent'
  | data {decl : Decl.Field} {field : Field} {slots : List Lowering.Slot} {low : Nat}
      {extent extent' : Lowering.Extent} {m type : NodeId} {ms : List NodeId} {file : Debug.File}
      {value : Option Debug.Constant} (made : low ≤ m.index)
      (described : s.resolve? field.type = some type)
      (located : s.files.get? decl.location.file = some file)
      (evaluated : s.Evaluates decl.value value)
      (member : s.nodes.entry? m = some (.member
        { name := field.name.getD decl.name
          type
          site := ⟨file.source, decl.location.line, decl.location.column⟩
          parent := composite
          offset := extent.offset field.offset
          size := s.nodes.sizeInBits type
          flags := .visibility decl.isPrivate
          value }))
      (tail : Populates s composite slots (m.index + 1)
        (extent.place (extent.offset field.offset) (s.nodes.sizeInBits type)) ms extent') :
      Populates s composite (.data decl field :: slots) low extent (m :: ms) extent'

/-- What the node `n` says that was made for a type of the given shape. -/
inductive Depicts (s : Store) : Shape → NodeId → Debug.Entry → Prop
  | basic {x : Shape} {n : NodeId} {name : String} {bits : UInt32} {encoding : Debug.Encoding}
      {w : TypeId} (basic : x.basic? = some (name, bits, encoding))
      (word : s.types.shape? w = some (.integer 32 false)) :
      Depicts s x n (.basic { name, size := some ⟨w, .int (Int64.ofNat bits.toNat)⟩, encoding })
  | built {x : Shape} {n : NodeId} {nodes : List NodeId} {e : Debug.Entry}
      (resolved : (s.types.parts x).map s.resolve? = nodes.map some)
      (builds : s.types.Builds x nodes e) : Depicts s x n e
  | composite {struct : Struct} {record : Decl.Record} {n : NodeId} {file : Debug.File}
      {heading : Debug.Heading} {slots : List Lowering.Slot} {members : List NodeId}
      {extent : Lowering.Extent} (made : struct.record = some record)
      (located : s.files.get? record.location.file = some file)
      (headed : Lowering.Heads record struct file heading)
      (aligned : Lowering.Aligns record struct slots)
      (filled : s.Populates n slots (n.index + 1) {} members extent) :
      Depicts s (.struct struct) n (.composite { heading with size := extent.size, members })

/-- Whatever is listed later was listed before, or is depicted by its node. -/
structure ListsDepicted (s t : Store) : Prop where
  typed : ∀ {a : TypeId} {n : NodeId}, t.debugType? a = some n → s.debugType? a = none →
    ∃ x e, t.types.shape? a = some x ∧ t.nodes.entry? n = some e ∧ t.Depicts x n e
  placeholder : ∀ {n : NodeId}, t.debugTypes.get? none = some n → s.debugTypes.get? none = none →
    t.nodes.entry? n = some placeholderEntry

variable {s t u : Store} {a : TypeId} {n m d : NodeId} {b : BuilderId} {x : Shape}
  {e : Debug.Entry} {keys : Store → TypeId → Prop} {base : Nat}

/-! ### Depictions in later stores -/

section Slots

variable {slots : List Lowering.Slot} {low : Nat} {extent extent' : Lowering.Extent}
  {ms : List NodeId}

lemma Populates.of_le {low' : Nat} (h : s.Populates n slots low extent ms extent')
    (hle : low' ≤ low) : s.Populates n slots low' extent ms extent' := by
  induction h generalizing low' with
  | nil => exact .nil
  | method saved _ ih => exact .method saved (ih hle)
  | data made described located evaluated member tail _ =>
    exact .data (Nat.le_trans hle made) described located evaluated member tail

/-- The members of a composite in a later store that has the same functions saved and in which the
debug types of the fields have the same sizes. -/
lemma Populates.of_sustains (kept : s.Sustains t)
    (functions : ∀ id, t.function? id = s.function? id)
    (sizes : ∀ decl field, .data decl field ∈ slots → ∀ d, s.resolve? field.type = some d →
      t.nodes.sizeInBits d = s.nodes.sizeInBits d)
    (hm : s.Populates n slots low extent ms extent') :
    t.Populates n slots low extent ms extent' := by
  induction hm with
  | nil => exact .nil
  | method saved _ ih =>
    refine .method ((functions _).trans saved) (ih fun decl field hslot => ?_)
    exact sizes decl field (List.mem_cons_of_mem _ hslot)
  | data made described located evaluated member _ ih =>
    obtain ⟨file', hfile', hsource, -⟩ := kept.files located
    have hsize := sizes _ _ List.mem_cons_self _ described
    refine .data made (kept.resolve? described) hfile' (evaluated.mono kept) ?_ ?_
    · rw [hsource, hsize]
      exact kept.entries member rfl
    · rw [hsize]
      exact ih fun decl field hslot => sizes decl field (List.mem_cons_of_mem _ hslot)

end Slots

/-- A depiction stays right in a later store that has the same functions saved, if the types that
the shape is built from are in the table and what they are resolved to keeps its size. -/
lemma Depicts.of_sustains (kept : s.Sustains t) (functions : ∀ id, t.function? id = s.function? id)
    (hx : ∀ u ∈ x.operands, u.index < s.types.size)
    (sizes : ∀ u ∈ x.operands, ∀ d, s.resolve? u = some d →
      t.nodes.sizeInBits d = s.nodes.sizeInBits d)
    (hd : s.Depicts x n e) : t.Depicts x n e := by
  cases hd with
  | basic basic word => exact .basic basic (TypeTable.shape?_mono kept.shapes word)
  | built resolved builds =>
    refine .built ?_ (builds.mono kept.shapes hx)
    rw [TypeTable.parts_eq kept.shapes hx]
    exact kept.map_resolve? resolved
  | composite made located headed aligned filled =>
    obtain ⟨file', hfile', hsource, hunit⟩ := kept.files located
    refine .composite made hfile' (headed.of_file hsource hunit) aligned ?_
    exact filled.of_sustains kept functions fun decl field hslot =>
      sizes _ (aligned.mem_operands hslot)

/-- In particular a depiction stays right while lowering goes on. -/
lemma Depicts.mono (h : Lowering.Changes b keys base s t)
    (hx : ∀ u ∈ x.operands, u.index < s.types.size)
    (sizes : ∀ u ∈ x.operands, ∀ d, s.resolve? u = some d →
      t.nodes.sizeInBits d = s.nodes.sizeInBits d)
    (hd : s.Depicts x n e) : t.Depicts x n e :=
  hd.of_sustains (sustains_of_changes h) (fun _ => function?_of_changes h) hx sizes

/-- The element of what an array or a vector says is the debug type of its part. -/
lemma Depicts.exists_of_element? (hd : s.Depicts x n e) (hm : e.element? = some d) :
    ∃ u ∈ x.operands, s.resolve? u = some d := by
  cases hd with
  | basic => cases hm
  | built resolved builds =>
    cases builds with
    | vector =>
      cases hm
      exact ⟨_, List.mem_cons_self, (List.cons.inj resolved).1⟩
    | array =>
      cases hm
      exact ⟨_, List.mem_cons_self, (List.cons.inj resolved).1⟩
    | _ => cases hm
  | composite => cases hm

/-! ### The members one by one -/

section Members

variable {slots : List Lowering.Slot} {low : Nat} {extent extent' : Lowering.Extent}
  {ms : List NodeId}

/-- A member of a composite is the function saved for a method, or one that was made for a data field
and says that it belongs to the composite. -/
lemma Populates.getElem?_cases {i : Nat} (h : s.Populates n slots low extent ms extent')
    (hi : ms[i]? = some m) :
    (∃ decl, slots[i]? = some (.method decl) ∧ s.function? decl.id = some m) ∨
      (∃ decl field, slots[i]? = some (.data decl field)) ∧ low ≤ m.index ∧
        ∃ d, s.nodes.entry? m = some (.member d) ∧ d.parent = n := by
  induction h generalizing i with
  | nil => simp at hi
  | @method decl _ _ _ _ _ _ saved _ ih =>
    cases i with
    | zero =>
      cases hi
      exact Or.inl ⟨decl, rfl, saved⟩
    | succ i => exact ih hi
  | @data decl field _ _ _ _ _ _ _ _ _ made _ _ _ member _ ih =>
    cases i with
    | zero =>
      cases hi
      exact Or.inr ⟨⟨decl, field, rfl⟩, made, _, member, rfl⟩
    | succ i =>
      refine (ih hi).imp_right fun ⟨hslot, hlow, hd⟩ => ⟨hslot, ?_, hd⟩
      omega

lemma Populates.length_eq (h : s.Populates n slots low extent ms extent') :
    ms.length = slots.length := by
  induction h with
  | nil => rfl
  | method _ _ ih => rw [List.length_cons, List.length_cons, ih]
  | data _ _ _ _ _ _ ih => rw [List.length_cons, List.length_cons, ih]

lemma Populates.located {decl : Decl.Field} {field : Field}
    (h : s.Populates n slots low extent ms extent') (hslot : .data decl field ∈ slots) :
    ∃ file, s.files.get? decl.location.file = some file := by
  induction h with
  | nil => cases hslot
  | method _ _ ih => exact ih (by simpa using hslot)
  | data _ _ located _ _ _ ih =>
    rcases List.mem_cons.1 hslot with heq | hslot
    · cases heq
      exact ⟨_, located⟩
    · exact ih hslot

/-- No member that was made is listed twice, if the functions are older. -/
lemma Populates.pairwise_ne {base : Nat} (h : s.Populates n slots low extent ms extent')
    (functions : ∀ {id l}, s.function? id = some l → l.index < base) :
    ms.Pairwise fun m m' => base ≤ m'.index → m ≠ m' := by
  induction h with
  | nil => exact .nil
  | method saved _ ih =>
    refine .cons (fun m' _ fresh => ?_) ih
    rintro rfl
    exact absurd (functions saved) (Nat.not_lt.2 fresh)
  | data _ _ _ _ _ tail ih =>
    refine .cons (fun m' hm' fresh => ?_) ih
    obtain ⟨i, hi⟩ := List.mem_iff_getElem?.1 hm'
    rcases tail.getElem?_cases hi with ⟨_, -, saved⟩ | ⟨-, newer, -⟩
    · exact absurd (functions saved) (Nat.not_lt.2 fresh)
    · rintro rfl
      omega

lemma Populates.eq_of_getElem? {base i j : Nat} (h : s.Populates n slots low extent ms extent')
    (functions : ∀ {id l}, s.function? id = some l → l.index < base) (fresh : base ≤ m.index)
    (hi : ms[i]? = some m) (hj : ms[j]? = some m) : i = j := by
  have ne := List.pairwise_iff_getElem.1 (h.pairwise_ne functions)
  obtain ⟨hib, rfl⟩ := List.getElem?_eq_some_iff.1 hi
  obtain ⟨hjb, heq⟩ := List.getElem?_eq_some_iff.1 hj
  rcases Nat.lt_trichotomy i j with hlt | heq' | hgt
  · exact absurd heq.symm (ne i j hib hjb hlt (heq ▸ fresh))
  · exact heq'
  · exact absurd heq (ne j i hjb hib hgt fresh)

end Members

lemma Depicts.populates {c : Debug.Composite} (hd : s.Depicts x n (.composite c)) :
    ∃ struct record slots extent, x = .struct struct ∧ struct.record = some record ∧
      Lowering.Aligns record struct slots ∧
      s.Populates n slots (n.index + 1) {} c.members extent := by
  cases hd with
  | built _ builds => cases builds
  | composite made _ _ aligned filled => exact ⟨_, _, _, _, rfl, made, aligned, filled⟩

/-- Only what can be described is depicted. -/
lemma Depicts.isDescribed (hd : s.Depicts x n e) : x.isDescribed = true := by
  cases hd with
  | basic basic => exact Shape.isDescribed_of_basic? (Option.isSome_of_eq_some basic)
  | built _ builds => exact builds.isDescribed
  | composite made _ headed => simp [Shape.isDescribed, made, headed.isEnum]

/-- What is depicted is no member, and belongs to no file. -/
lemma Depicts.isDebugType (hd : s.Depicts x n e) : e.isDebugType = true ∧ e.member? = none := by
  cases hd with
  | basic => exact ⟨rfl, rfl⟩
  | built _ builds => cases builds <;> exact ⟨rfl, rfl⟩
  | composite => exact ⟨rfl, rfl⟩

end Store

end ShaderTypes
