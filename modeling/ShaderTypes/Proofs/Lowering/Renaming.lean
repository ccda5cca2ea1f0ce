import Mathlib.Data.Set.Function
import ShaderTypes.Proofs.Lowering.Unfolding

/-!
# Stores that are the same up to renaming

Two stores that unfold from one and list the same keys differ in the order in which nodes and types
were made, and in nothing else: a node of the one is renamed to the node in the same role of the
other, and a type to the type of the same shape.  `Store.Renamed` says what is the same then.

`Store.Matching` is what a pair of renamings is built to satisfy.  From it the entries are compared
along the types that they describe: what two nodes in the same role say is the same once it is for
the operands, because the size of a member is that of its type.
-/

namespace ShaderTypes

namespace Debug

variable (τ : TypeId → TypeId) (ρ : NodeId → NodeId)

/-- The constant with its type renamed. -/
def Constant.rename (c : Constant) : Constant :=
  { c with type := τ c.type }

/-- The place with its source renamed. -/
def Site.rename (x : Site) : Site :=
  { x with source := ρ x.source }

/-- The entry with its types and nodes renamed. -/
def Entry.rename : Entry → Entry
  | .source e => .source e
  | .compilationUnit e => .compilationUnit { e with source := ρ e.source }
  | .lexicalBlock e => .lexicalBlock { site := e.site.rename ρ, parent := ρ e.parent }
  | .function e =>
    .function { e with site := e.site.rename ρ, parent := ρ e.parent, type := e.type.map τ }
  | .globalVariable e =>
    .globalVariable { e with site := e.site.rename ρ, parent := ρ e.parent, type := e.type.map τ }
  | .localVariable e =>
    .localVariable { e with site := e.site.rename ρ, parent := ρ e.parent, type := e.type.map τ }
  | .basic e => .basic { e with size := e.size.map (.rename τ) }
  | .composite e =>
    .composite
      { e with
        site := e.site.rename ρ
        parent := ρ e.parent
        members := e.members.map ρ
        template := e.template.map ρ }
  | .member e =>
    .member
      { e with
        type := ρ e.type
        site := e.site.rename ρ
        parent := ρ e.parent
        value := e.value.map (.rename τ) }
  | .array e => .array { e with element := ρ e.element }
  | .vector e => .vector { e with element := ρ e.element }
  | .functionType e => .functionType { e with result := e.result.map ρ, params := e.params.map ρ }
  | .template e => .template { target := ρ e.target, params := e.params.map ρ }
  | .templateParameter e =>
    .templateParameter
      { e with actual := e.actual.map τ, value := e.value.map (.rename τ), site := e.site.rename ρ }

/-- The state of a file with its nodes renamed. -/
def File.rename (f : File) : File where
  source := ρ f.source
  unit := ρ f.unit
  opened := f.opened.map ρ

variable {τ ρ} {e : Entry} {f : File} {t t' : NodeTable} {n n' : NodeId}

/-- An entry that mentions nothing that is renamed stays as it is. -/
lemma Entry.rename_eq_self (nodes : ∀ n ∈ e.nodes, ρ n = n) (types : ∀ a ∈ e.types, τ a = a) :
    e.rename τ ρ = e := by
  have option {α : Type} {f : α → α} {o : Option α} (h : ∀ x ∈ o, f x = x) : o.map f = o := by
    cases o with
    | none => rfl
    | some x => rw [Option.map_some, h x rfl]
  have list {l : List NodeId} (h : ∀ n ∈ l, ρ n = n) : l.map ρ = l :=
    (List.map_congr_left h).trans (List.map_id l)
  cases e <;> simp_all [Entry.rename, Entry.nodes, Entry.types, Entry.type?, Entry.constant?,
    Site.rename, Constant.rename]

lemma File.rename_eq_self (nodes : ∀ n ∈ f.source :: f.scopes, ρ n = n) : f.rename ρ = f := by
  have opened : f.opened.map ρ = f.opened := by
    refine (List.map_congr_left fun n hn => nodes n ?_).trans (List.map_id _)
    simp [File.scopes, hn]
  rw [File.rename, nodes f.source List.mem_cons_self, opened,
    nodes f.unit (List.mem_cons_of_mem _ List.mem_cons_self)]

lemma Entry.element?_rename : (e.rename τ ρ).element? = e.element?.map ρ := by
  cases e <;> rfl

/-- Nodes that say the same up to renaming are of one size if their elements are. -/
lemma NodeTable.sizeInBits_rename (he : t.entry? n = some e)
    (he' : t'.entry? n' = some (e.rename τ ρ))
    (element : ∀ m, e.element? = some m → m.index < n.index ∧ (ρ m).index < n'.index ∧
      t'.sizeInBits (ρ m) = t.sizeInBits m) : t'.sizeInBits n' = t.sizeInBits n := by
  rw [sizeInBits, sizeInBits, he, he']
  cases e with
  | basic e =>
    simp only [Entry.rename, Option.map_map]
    rfl
  | array e =>
    obtain ⟨hlt, hlt', hsize⟩ := element _ rfl
    simp only [Entry.rename, dif_pos hlt, dif_pos hlt', hsize]
  | vector e =>
    obtain ⟨hlt, hlt', hsize⟩ := element _ rfl
    simp only [Entry.rename, dif_pos hlt, dif_pos hlt', hsize]
  | _ => rfl

end Debug

/-- The heading of a composite whose file is renamed. -/
lemma Lowering.Heads.rename {record : Decl.Record} {struct : Struct} {file : Debug.File}
    {heading : Debug.Heading} (h : Heads record struct file heading) :
    Heads record struct (file.rename ρ)
      { heading with site := heading.site.rename ρ, parent := ρ heading.parent } where
  name := h.name
  linkageName := h.linkageName
  tag := h.tag
  site := by rw [h.site]; rfl
  parent := by rw [h.parent]; rfl
  flags := h.flags

/-- What is built from renamed debug types is what is built from them, renamed. -/
lemma TypeTable.Builds.rename {types types' : TypeTable} {x : Shape} {nodes nodes' : List NodeId}
    {e e' : Debug.Entry} {ρ : NodeId → NodeId} (τ : TypeId → TypeId) (h : types.Builds x nodes e)
    (h' : types'.Builds x nodes' e') (renamed : nodes' = nodes.map ρ)
    (void : ∀ u ∈ x.operands, types'.has u Shape.isVoid = types.has u Shape.isVoid) :
    e' = e.rename τ ρ ∧ e.types = [] := by
  cases h with
  | vector =>
    cases h'
    cases renamed
    exact ⟨rfl, rfl⟩
  | array =>
    cases h'
    cases renamed
    exact ⟨rfl, rfl⟩
  | procedure hvoid =>
    cases h' with
    | procedure =>
      cases renamed
      exact ⟨rfl, rfl⟩
    | function hvoid' => cases (hvoid'.symm.trans (void _ List.mem_cons_self)).trans hvoid
  | function hvoid =>
    cases h' with
    | procedure hvoid' => cases (hvoid'.symm.trans (void _ List.mem_cons_self)).trans hvoid
    | function =>
      cases renamed
      exact ⟨rfl, rfl⟩

namespace Store

/-- What one entry says is said by another one under other names, and the types that are mentioned
have the same shapes. -/
structure SameUpTo (t t' : Store) (τ : TypeId → TypeId) (ρ : NodeId → NodeId)
    (e e' : Debug.Entry) : Prop where
  entry : e' = e.rename τ ρ
  shapes : ∀ a ∈ e.types, t'.types.shape? (τ a) = t.types.shape? a

/-- Two stores that go on from one are the same up to renaming what was made since. -/
structure Renamed (s t t' : Store) (τ : TypeId → TypeId) (ρ : NodeId → NodeId) : Prop where
  types : ∀ a, a.index < s.types.size → τ a = a
  nodes : ∀ n, n.index < s.nodes.size → ρ n = n
  bijective : Set.BijOn ρ {n | n.index < t.nodes.size} {n | n.index < t'.nodes.size}
  keyed : ∀ key, t'.debugTypes.get? key = (t.debugTypes.get? key).map ρ
  unkeyed : ∀ n, n.index < t.nodes.size → (ρ n ∈ t'.unkeyed ↔ n ∈ t.unkeyed)
  files : ∀ name, t'.files.get? name = (t.files.get? name).map (.rename ρ)
  entries : ∀ n e, t.nodes.entry? n = some e →
    ∃ e', t'.nodes.entry? (ρ n) = some e' ∧ SameUpTo t t' τ ρ e e'
  sizes : ∀ n, n.index < t.nodes.size → t'.nodes.sizeInBits (ρ n) = t.nodes.sizeInBits n

/-- Two stores that unfold from one with the same keys, and renamings that keep roles and shapes. -/
structure Matching (b : BuilderId) (s t t' : Store) (τ : TypeId → TypeId)
    (ρ : NodeId → NodeId) : Prop where
  left : Unfolds b s t
  right : Unfolds b s t'
  keys : ∀ key, (∃ n, t.debugTypes.get? key = some n) ↔ ∃ n, t'.debugTypes.get? key = some n
  roles : ∀ {r n}, s.Plays t r n → s.Plays t' r (ρ n)
  types : ∀ {a}, a.index < s.types.size → τ a = a
  shapes : ∀ {a a' x}, x.isHybrid = false → t.types.shape? a = some x →
    t'.types.shape? a' = some x → τ a = a'

variable {s t t' : Store} {a : TypeId} {n m d : NodeId} {b : BuilderId} {key : Option TypeId}
  {c : Debug.Composite} {r : Role} {name : String} {file : Debug.File} {τ : TypeId → TypeId}
  {ρ : NodeId → NodeId} {e e' : Debug.Entry} {x : Shape}

/-! ### Renamings that match -/

/-- Types of the same shape are found for those that were made since. -/
lemma exists_shapes (h : s.types.shapes <+: t.types.shapes) (h' : s.types.shapes <+: t'.types.shapes)
    (interned : t'.types.Interned) : ∃ τ : TypeId → TypeId,
      (∀ {a}, a.index < s.types.size → τ a = a) ∧
      ∀ {a a' x}, x.isHybrid = false → t.types.shape? a = some x → t'.types.shape? a' = some x →
        τ a = a' := by
  have unique {a a' : TypeId} {x : Shape} (hybrid : x.isHybrid = false)
      (ha : t'.types.shape? a = some x) (ha' : t'.types.shape? a' = some x) : a = a' :=
    interned.eq_of_sameKey ha ha' (.refl hybrid)
  have one (a : TypeId) : ∃ v, (a.index < s.types.size → v = a) ∧ ∀ {a' x}, x.isHybrid = false →
      t.types.shape? a = some x → t'.types.shape? a' = some x → v = a' := by
    by_cases known : a.index < s.types.size
    · refine ⟨a, fun _ => rfl, fun {a' x} hybrid ha ha' => unique hybrid ?_ ha'⟩
      rw [TypeTable.shape?_eq_of_lt h' known, ← TypeTable.shape?_eq_of_lt h known, ha]
    · by_cases found : ∃ a' x, x.isHybrid = false ∧ t.types.shape? a = some x ∧
          t'.types.shape? a' = some x
      · obtain ⟨v, x, -, ha, hv⟩ := found
        refine ⟨v, fun hlt => absurd hlt known, fun {a' y} hybrid hy ha' => ?_⟩
        obtain rfl := Option.some.inj (ha.symm.trans hy)
        exact unique hybrid hv ha'
      · refine ⟨a, fun hlt => absurd hlt known, fun {a' x} hybrid ha ha' => ?_⟩
        exact absurd ⟨a', x, hybrid, ha, ha'⟩ found
  choose τ hτ using one
  exact ⟨τ, fun {a} known => (hτ a).1 known, fun {a _ _} => (hτ a).2⟩

/-- Stores that unfold with the same keys match. -/
lemma exists_matching (h : Unfolds b s t) (h' : Unfolds b s t')
    (keys : ∀ key, (∃ n, t.debugTypes.get? key = some n) ↔ ∃ n, t'.debugTypes.get? key = some n) :
    ∃ τ ρ, Matching b s t t' τ ρ := by
  obtain ⟨τ, types, shapes⟩ := exists_shapes h.extends.types.shapes_le h'.extends.types.shapes_le
    h'.after.reachable.sound.types
  have one (n : NodeId) : ∃ n', ∀ {r}, s.Plays t r n → s.Plays t' r n' := by
    by_cases played : ∃ r, s.Plays t r n
    · obtain ⟨r, hr⟩ := played
      obtain ⟨n', hr'⟩ := Unfolds.plays_of_keys h h' (fun hn => (keys _).1 ⟨_, hn⟩) hr
      exact ⟨n', fun hn => h.role_eq hr hn ▸ hr'⟩
    · exact ⟨n, fun hn => absurd ⟨_, hn⟩ played⟩
  choose ρ hρ using one
  exact ⟨τ, ρ, h, h', keys, fun {r n} => hρ n, types, shapes⟩

namespace Matching

variable (M : Matching b s t t' τ ρ)
include M

/-! ### What is found under the same names -/

lemma old (known : n.index < s.nodes.size) : ρ n = n := by
  have played := M.roles (.old known)
  generalize ρ n = m at played ⊢
  cases played
  rfl

lemma shape?_eq (known : a.index < s.types.size) : t'.types.shape? a = t.types.shape? a :=
  (TypeTable.shape?_eq_of_lt M.right.extends.types.shapes_le known).trans
    (TypeTable.shape?_eq_of_lt M.left.extends.types.shapes_le known).symm

lemma get?_debugTypes (key : Option TypeId) :
    t'.debugTypes.get? key = (t.debugTypes.get? key).map ρ := by
  rcases listed : t.debugTypes.get? key with _ | n
  · rw [Option.map_none, Option.eq_none_iff_forall_ne_some]
    intro n' listed'
    obtain ⟨n, hn⟩ := (M.keys key).2 ⟨n', listed'⟩
    cases listed.symm.trans hn
  · rcases new : s.debugTypes.get? key with _ | m
    · cases M.roles (.keyed new listed) with | keyed _ listed' =>
      exact listed'
    · obtain rfl : m = n :=
        Option.some.inj ((M.left.extends.get?_debugTypes new).symm.trans listed)
      have known := M.left.before.staged.lt_of_mem_values (OrderedMap.mem_values_of_get? new)
      rw [Option.map_some, M.old known]
      exact M.right.extends.get?_debugTypes new

lemma get?_files (name : String) : t'.files.get? name = (t.files.get? name).map (.rename ρ) := by
  rcases opened : t.files.get? name with _ | file
  · rw [Option.map_none, Option.eq_none_iff_forall_ne_some]
    intro file' opened'
    have new : s.files.get? name = none := by
      rw [Option.eq_none_iff_forall_ne_some]
      intro file hfile
      cases opened.symm.trans (files_of_changes M.left.changes hfile)
    obtain ⟨n, hn⟩ := Unfolds.plays_of_keys M.right M.left (fun hn => (M.keys _).2 ⟨_, hn⟩)
      (.source new opened')
    cases hn with | source _ opened'' =>
    cases opened.symm.trans opened''
  · rcases new : s.files.get? name with _ | old
    · have source := M.roles (.source new opened)
      have unit := M.roles (.unit new opened)
      generalize hsource : ρ file.source = n at source
      generalize hunit : ρ file.unit = m at unit
      cases source with | @source _ file' _ opened' =>
      cases unit with | unit _ opened'' =>
      obtain rfl := Option.some.inj (opened'.symm.trans opened'')
      have nothing := (M.left.opened new opened).opened
      have nothing' := (M.right.opened new opened').opened
      rw [opened', Option.map_some, Debug.File.rename, hsource, hunit, nothing, List.map_nil,
        ← nothing']
    · obtain rfl : old = file :=
        Option.some.inj ((files_of_changes M.left.changes new).symm.trans opened)
      have known := M.left.before.reachable.grounded.files new
      rw [Option.map_some, Debug.File.rename_eq_self fun n hn => M.old (known n hn)]
      exact files_of_changes M.right.changes new

/-- What a type is resolved to. -/
lemma resolve?_eq (known : a.index < s.types.size) : t'.resolve? a = (t.resolve? a).map ρ := by
  induction a using TypeId.strongInduction with
  | _ a ih =>
  obtain ⟨x, hx⟩ := TypeTable.exists_shape? known
  have hx₁ := M.left.extends.shape? hx
  have hx₂ := M.right.extends.shape? hx
  rcases pointer : x.isPointer with _ | _
  · rw [resolve?_of_shape? hx₁ pointer, resolve?_of_shape? hx₂ pointer, M.get?_debugTypes]
  · cases x <;> simp only [Shape.isPointer, Bool.false_eq_true] at pointer
    rename_i p c
    have wf := M.left.before.reachable.sound.types.wellFormed
    have hp := wf a _ hx p List.mem_cons_self
    rw [resolve?_of_pointer hx₁ hp, resolve?_of_pointer hx₂ hp]
    exact ih p hp (Nat.lt_trans hp known)

lemma parts {nodes nodes' : List NodeId} (known : ∀ u ∈ x.operands, u.index < s.types.size)
    (resolved : (t.types.parts x).map t.resolve? = nodes.map some)
    (resolved' : (t'.types.parts x).map t'.resolve? = nodes'.map some) : nodes' = nodes.map ρ := by
  have parts : t'.types.parts x = t.types.parts x := by
    rw [TypeTable.parts_eq M.right.extends.types.shapes_le known,
      TypeTable.parts_eq M.left.extends.types.shapes_le known]
  refine List.map_injective_iff.2 (Option.some_injective _) ?_
  calc
    nodes'.map some = (t.types.parts x).map t'.resolve? := by rw [← resolved', parts]
    _ = (t.types.parts x).map fun u => (t.resolve? u).map ρ :=
      List.map_congr_left fun u hu => M.resolve?_eq (known u (TypeTable.mem_operands_of_mem_parts hu))
    _ = ((t.types.parts x).map t.resolve?).map (Option.map ρ) := by
      rw [List.map_map]
      rfl
    _ = (nodes.map ρ).map some := by
      rw [resolved, List.map_map, List.map_map]
      rfl

/-! ### What the nodes say -/

/-- Constants of the same value, of types of the same shape. -/
lemma constant {w w' : TypeId} {v : Debug.Scalar} (hybrid : x.isHybrid = false)
    (word : t.types.shape? w = some x) (word' : t'.types.shape? w' = some x) :
    (⟨w', v⟩ : Debug.Constant) = .rename τ ⟨w, v⟩ ∧ t'.types.shape? (τ w) = t.types.shape? w := by
  rw [Debug.Constant.rename, M.shapes hybrid word word']
  exact ⟨rfl, word'.trans word.symm⟩

lemma evaluates {value : Option Literal} {k k' : Option Debug.Constant} (h : t.Evaluates value k)
    (h' : t'.Evaluates value k') : k' = k.map (.rename τ) ∧
      ∀ w ∈ k.toList.map Debug.Constant.type, t'.types.shape? (τ w) = t.types.shape? w := by
  cases h with
  | int word =>
    cases h' with | int word' =>
    obtain ⟨renamed, shape⟩ := M.constant rfl word word'
    exact ⟨congrArg some renamed, by simpa using shape⟩
  | float word =>
    cases h' with | float word' =>
    obtain ⟨renamed, shape⟩ := M.constant rfl word word'
    exact ⟨congrArg some renamed, by simpa using shape⟩
  | bool word =>
    cases h' with | bool word' =>
    obtain ⟨renamed, shape⟩ := M.constant rfl word word'
    exact ⟨congrArg some renamed, by simpa using shape⟩
  | other =>
    cases h'
    exact ⟨rfl, by simp⟩
  | none =>
    cases h'
    exact ⟨rfl, by simp⟩

lemma listed (h : t.debugTypes.get? key = some n) : t'.debugTypes.get? key = some (ρ n) := by
  rw [M.get?_debugTypes, h, Option.map_some]

lemma opened (h : t.files.get? name = some file) : t'.files.get? name = some (file.rename ρ) := by
  rw [M.get?_files, h, Option.map_some]

/-- The composites that are listed newly under one type have their members for the same slots. -/
lemma exists_slots {c' : Debug.Composite} (new : s.debugType? a = none)
    (listed : t.debugType? a = some n) (composite : t.nodes.entry? n = some (.composite c))
    (composite' : t'.nodes.entry? (ρ n) = some (.composite c')) :
    ∃ struct record slots e₁ e₂, s.types.shape? a = some (.struct struct) ∧
      Lowering.Aligns record struct slots ∧ t.Populates n slots (n.index + 1) {} c.members e₁ ∧
      t'.Populates (ρ n) slots ((ρ n).index + 1) {} c'.members e₂ := by
  obtain ⟨struct, record, slots, e₁, hx, made, aligned, filled⟩ :=
    M.left.populates new listed composite
  obtain ⟨struct', record', slots', e₂, hx', made', aligned', filled'⟩ :=
    M.right.populates new (M.listed listed) composite'
  cases hx.symm.trans hx'
  obtain rfl := Option.some.inj (made.symm.trans made')
  obtain rfl := aligned.eq aligned'
  exact ⟨struct, record, slots, e₁, e₂, hx, aligned, filled, filled'⟩

/-- The members of a composite that is listed newly stand at the same places. -/
lemma members {c' : Debug.Composite} (new : s.debugType? a = none) (listed : t.debugType? a = some n)
    (composite : t.nodes.entry? n = some (.composite c))
    (composite' : t'.nodes.entry? (ρ n) = some (.composite c')) :
    c'.members = c.members.map ρ := by
  obtain ⟨struct, record, slots, e₁, e₂, -, -, filled, filled'⟩ :=
    M.exists_slots new listed composite composite'
  have length : c'.members.length = c.members.length := filled'.length_eq.trans filled.length_eq.symm
  refine List.ext_getElem? fun i => ?_
  rw [List.getElem?_map]
  rcases place : c.members[i]? with _ | m
  · rw [List.getElem?_eq_none_iff] at place
    rw [Option.map_none, List.getElem?_eq_none_iff, length]
    exact place
  obtain ⟨m', place'⟩ : ∃ m', c'.members[i]? = some m' := by
    refine ⟨_, List.getElem?_eq_getElem ?_⟩
    rw [length]
    exact (List.getElem?_eq_some_iff.1 place).1
  rw [place', Option.map_some]
  rcases filled.getElem?_cases place with ⟨decl, slot, saved⟩ | ⟨⟨decl, field, slot⟩, newer, -⟩
  · rcases filled'.getElem?_cases place' with ⟨decl', slot', saved'⟩ | ⟨⟨_, _, slot'⟩, -⟩
    · -- Both are the function that is saved for the method.
      cases slot.symm.trans slot'
      have function : t'.function? decl.id = s.function? decl.id :=
        function?_of_changes M.right.changes
      rw [saved', ← function?_of_changes M.left.changes, saved] at function
      rw [M.old (M.left.function_lt saved)]
      exact function
    · cases slot.symm.trans slot'
  · have fresh := (M.left.depicts new listed).1
    have played := M.roles (.member new listed composite place (by omega))
    generalize ρ m = l at played ⊢
    cases played with | member _ listed'' composite'' place'' =>
    obtain rfl := Option.some.inj ((M.listed listed).symm.trans listed'')
    cases composite'.symm.trans composite''
    exact place'.symm.trans place''

/-- Members at the same places say the same, and are laid out alike, if their types have the same
sizes. -/
lemma populates {slots : List Lowering.Slot} {low low' : Nat} {extent e₁ e₂ : Lowering.Extent}
    {ms ms' : List NodeId} (hm : t.Populates n slots low extent ms e₁)
    (hm' : t'.Populates (ρ n) slots low' extent ms' e₂) (renamed : ms' = ms.map ρ)
    (known : ∀ decl field, .data decl field ∈ slots → field.type.index < s.types.size)
    (sizes : ∀ decl field, .data decl field ∈ slots → ∀ d, t.resolve? field.type = some d →
      t'.nodes.sizeInBits (ρ d) = t.nodes.sizeInBits d) :
    e₂ = e₁ ∧ ∀ m ∈ ms, (∃ id, t.function? id = some m) ∨ ∃ e e', t.nodes.entry? m = some e ∧
      t'.nodes.entry? (ρ m) = some e' ∧ SameUpTo t t' τ ρ e e' := by
  induction hm generalizing low' ms' e₂ with
  | nil =>
    cases hm'
    exact ⟨rfl, by simp⟩
  | method saved _ ih =>
    cases hm' with | method _ tail' =>
    obtain ⟨hextent, hms⟩ := ih tail' (List.cons.inj renamed).2
      (fun decl field hslot => known decl field (List.mem_cons_of_mem _ hslot))
      (fun decl field hslot => sizes decl field (List.mem_cons_of_mem _ hslot))
    exact ⟨hextent, List.forall_mem_cons.2 ⟨Or.inl ⟨_, saved⟩, hms⟩⟩
  | data _ described located evaluated member _ ih =>
    cases hm' with | data _ described' located' evaluated' member' tail' =>
    obtain ⟨rfl, hrest⟩ := List.cons.inj renamed
    rw [M.resolve?_eq (known _ _ List.mem_cons_self), described] at described'
    cases described'
    cases (M.opened located).symm.trans located'
    have hsize := sizes _ _ List.mem_cons_self _ described
    obtain ⟨rfl, shapes⟩ := M.evaluates evaluated evaluated'
    rw [hsize] at tail' member'
    obtain ⟨hextent, hms⟩ := ih tail' hrest
      (fun decl field hslot => known decl field (List.mem_cons_of_mem _ hslot))
      (fun decl field hslot => sizes decl field (List.mem_cons_of_mem _ hslot))
    refine ⟨hextent, List.forall_mem_cons.2 ⟨Or.inr ⟨_, _, member, member', ?_⟩, hms⟩⟩
    exact ⟨rfl, shapes⟩

/-- Debug types of one type say the same, if those of its parts have the same sizes. -/
lemma sameUpTo_of_depicts (new : s.debugType? a = none) (listed : t.debugType? a = some n)
    (hx : s.types.shape? a = some x) (he : t.nodes.entry? n = some e)
    (he' : t'.nodes.entry? (ρ n) = some e') (hd : t.Depicts x n e) (hd' : t'.Depicts x (ρ n) e')
    (sizes : ∀ u ∈ x.operands, ∀ d, t.resolve? u = some d →
      t'.nodes.sizeInBits (ρ d) = t.nodes.sizeInBits d) : SameUpTo t t' τ ρ e e' := by
  have known := M.left.before.reachable.sound.operand_lt hx
  cases hd with
  | basic basic word =>
    cases hd' with
    | basic basic' word' =>
      cases basic.symm.trans basic'
      obtain ⟨renamed, shape⟩ := M.constant rfl word word'
      refine ⟨?_, by simpa [Debug.Entry.types, Debug.Entry.type?, Debug.Entry.constant?] using shape⟩
      rw [renamed]
      rfl
    | built _ builds => cases builds <;> cases basic
    | composite => cases basic
  | @built _ _ nodes _ resolved builds =>
    cases hd' with
    | basic basic => cases builds <;> cases basic
    | @built _ _ nodes' _ resolved' builds' =>
      obtain ⟨renamed, types⟩ := builds.rename τ builds' (M.parts known resolved resolved')
        fun u hu => by rw [TypeTable.has, TypeTable.has, M.shape?_eq (known u hu)]
      exact ⟨renamed, by simp [types]⟩
    | composite => cases builds
  | composite made located headed aligned filled =>
    cases hd' with
    | basic basic => cases basic
    | built _ builds => cases builds
    | composite made' located' headed' aligned' filled' =>
      cases made.symm.trans made'
      cases (M.opened located).symm.trans located'
      obtain rfl := headed.rename.eq headed'
      obtain rfl := aligned.eq aligned'
      have members := M.members new listed he he'
      obtain ⟨hextent, -⟩ := M.populates filled filled' members
        (fun decl field hslot => known _ (aligned.mem_operands hslot))
        (fun decl field hslot => sizes _ (aligned.mem_operands hslot))
      cases members
      cases hextent
      exact ⟨rfl, by simp [Debug.Entry.types, Debug.Entry.type?, Debug.Entry.constant?]⟩

/-- Nodes that say the same are of one size if their elements are. -/
lemma sizeInBits_eq (he : t.nodes.entry? n = some e) (he' : t'.nodes.entry? (ρ n) = some e')
    (same : SameUpTo t t' τ ρ e e') (element : ∀ m, e.element? = some m → m.index < n.index →
      t'.nodes.sizeInBits (ρ m) = t.nodes.sizeInBits m) :
    t'.nodes.sizeInBits (ρ n) = t.nodes.sizeInBits n := by
  have renamed := same.entry
  subst renamed
  refine Debug.NodeTable.sizeInBits_rename he he' fun m hm => ?_
  have hm' : (e.rename τ ρ).element? = some (ρ m) := by
    rw [Debug.Entry.element?_rename, hm, Option.map_some]
  have hlt := (M.left.after.staged.uses he m (Debug.Entry.mem_uses_of_element? hm)).2
  have hlt' := (M.right.after.staged.uses he' _ (Debug.Entry.mem_uses_of_element? hm')).2
  exact ⟨hlt, hlt', element m hm hlt⟩

/-- What is listed under a key has the same size in both stores, if the parts of its type have. -/
lemma sizeInBits_listed (listed : t.debugTypes.get? key = some d)
    (parts : ∀ a x, key = some a → s.types.shape? a = some x → ∀ u ∈ x.operands, ∀ l,
      t.resolve? u = some l → t'.nodes.sizeInBits (ρ l) = t.nodes.sizeInBits l) :
    t'.nodes.sizeInBits (ρ d) = t.nodes.sizeInBits d := by
  have listed' := M.listed listed
  rcases new : s.debugTypes.get? key with _ | m
  · cases key with
    | none =>
      have he := M.left.depicted.placeholder listed new
      have he' := M.right.depicted.placeholder listed' new
      refine M.sizeInBits_eq he he' ⟨rfl, fun a ha => ?_⟩ ?_
      · cases ha
      · rintro m ⟨⟩
    | some a =>
      obtain ⟨-, x, e, hx, he, hd⟩ := M.left.depicts new listed
      obtain ⟨-, x', e', hx', he', hd'⟩ := M.right.depicts new listed'
      obtain rfl := Option.some.inj (hx.symm.trans hx')
      have same := M.sameUpTo_of_depicts new listed hx he he' hd hd' (parts a x rfl hx)
      refine M.sizeInBits_eq he he' same fun m hm _ => ?_
      obtain ⟨u, hu, hl⟩ := hd.exists_of_element? hm
      exact parts a x rfl hx u hu m hl
  · obtain rfl : m = d := Option.some.inj ((M.left.extends.get?_debugTypes new).symm.trans listed)
    have known := M.left.before.staged.lt_of_mem_values (OrderedMap.mem_values_of_get? new)
    rw [M.old known, M.left.extends.sizeInBits_eq known, M.right.extends.sizeInBits_eq known]

/-- The debug type of a type has the same size in both stores. -/
lemma sizeInBits_resolve? (known : a.index < s.types.size) (hd : t.resolve? a = some d) :
    t'.nodes.sizeInBits (ρ d) = t.nodes.sizeInBits d := by
  induction a using TypeId.strongInduction generalizing d with
  | _ a ih =>
  have wf := M.left.before.reachable.sound.types.wellFormed
  rcases resolve?_cases hd with ⟨p, c, -, hp, hd⟩ | ⟨x, -, -, listed⟩
  · exact ih p hp (Nat.lt_trans hp known) hd
  refine M.sizeInBits_listed listed fun v y hkey hy u hu l hl => ?_
  obtain rfl : a = v := by
    split at hkey
    · exact Option.some.inj hkey
    · cases hkey
  exact ih u (wf a y hy u hu) (wf.operand_lt hy hu) hl

/-- What is listed under a new type says the same. -/
lemma exists_sameUpTo_listed (new : s.debugType? a = none) (listed : t.debugType? a = some n) :
    ∃ e', t'.nodes.entry? (ρ n) = some e' ∧
      ∀ {e}, t.nodes.entry? n = some e → SameUpTo t t' τ ρ e e' := by
  obtain ⟨-, x, e, hx, he, hd⟩ := M.left.depicts new listed
  obtain ⟨-, x', e', hx', he', hd'⟩ := M.right.depicts new (M.listed listed)
  obtain rfl := Option.some.inj (hx.symm.trans hx')
  refine ⟨e', he', fun {e₁} he₁ => ?_⟩
  obtain rfl := Option.some.inj (he.symm.trans he₁)
  refine M.sameUpTo_of_depicts new listed hx he he' hd hd' fun u hu d hd => ?_
  exact M.sizeInBits_resolve? (M.left.before.reachable.sound.operand_lt hx u hu) hd

/-- Whatever a node says is said by the node it is renamed to. -/
lemma exists_sameUpTo (he : t.nodes.entry? n = some e) :
    ∃ e', t'.nodes.entry? (ρ n) = some e' ∧ SameUpTo t t' τ ρ e e' := by
  obtain ⟨r, played⟩ := M.left.exists_plays (Debug.NodeTable.entry?_lt he)
  cases played with
  | old known =>
    have grounded := M.left.before.reachable.grounded
    obtain ⟨node, hnode⟩ := Debug.NodeTable.exists_node? known
    have hold := Debug.NodeTable.entry?_of_node? hnode
    obtain rfl := Option.some.inj ((M.left.extends.entries hold).symm.trans he)
    rw [M.old known]
    refine ⟨_, M.right.extends.entries hold, ?_, fun a ha => ?_⟩
    · refine (Debug.Entry.rename_eq_self (fun m hm => ?_) fun a ha => ?_).symm
      · exact M.old (grounded.nodes hold m hm)
      · exact M.types (grounded.types hold a ha)
    · have known := grounded.types hold a ha
      rw [M.types known, M.shape?_eq known]
  | @source name file new opened =>
    cases (M.left.opened new opened).source.symm.trans he
    exact ⟨_, (M.right.opened new (M.opened opened)).source, rfl, fun a ha => by cases ha⟩
  | @unit name file new opened =>
    cases (M.left.opened new opened).unit.symm.trans he
    exact ⟨_, (M.right.opened new (M.opened opened)).unit, rfl, fun a ha => by cases ha⟩
  | @keyed key n new listed =>
    cases key with
    | none =>
      cases (M.left.depicted.placeholder listed new).symm.trans he
      exact ⟨_, M.right.depicted.placeholder (M.listed listed) new, rfl, fun a ha => by cases ha⟩
    | some a =>
      obtain ⟨e', he', same⟩ := M.exists_sameUpTo_listed new listed
      exact ⟨e', he', same he⟩
  | @member a l _ c i new listed composite place fresh =>
    obtain ⟨e', composite', same⟩ := M.exists_sameUpTo_listed new listed
    obtain rfl := (same composite).entry
    obtain ⟨struct, record, slots, e₁, e₂, hx, aligned, filled, filled'⟩ :=
      M.exists_slots new listed composite composite'
    have known (decl : Decl.Field) (field : Field) (hslot : .data decl field ∈ slots) :
        field.type.index < s.types.size :=
      M.left.before.reachable.sound.operand_lt hx _ (aligned.mem_operands hslot)
    obtain ⟨-, members⟩ := M.populates filled filled' rfl known fun decl field hslot d hd =>
      M.sizeInBits_resolve? (known decl field hslot) hd
    rcases members n (List.mem_of_getElem? place) with ⟨id, saved⟩ | ⟨e₁, e', he₁, he', same⟩
    · exact absurd (M.left.function_lt saved) (Nat.not_lt.2 fresh)
    · obtain rfl := Option.some.inj (he.symm.trans he₁)
      exact ⟨e', he', same⟩

/-! ### The renaming -/

/-- A node that was made since is renamed to one that was made since. -/
lemma size_le (fresh : s.nodes.size ≤ n.index) (known : n.index < t.nodes.size) :
    s.nodes.size ≤ (ρ n).index := by
  obtain ⟨r, played⟩ := M.left.exists_plays known
  by_contra hlt
  have hold := Nat.lt_of_not_le hlt
  obtain rfl := M.right.role_eq (M.roles played) (.old hold)
  rw [played.node_eq (.old hold)] at fresh
  exact hlt fresh

lemma mem_unkeyed_iff (known : n.index < t.nodes.size) : ρ n ∈ t'.unkeyed ↔ n ∈ t.unkeyed := by
  rcases Nat.lt_or_ge n.index s.nodes.size with hold | fresh
  · rw [M.old hold, M.left.mem_unkeyed_iff_of_lt hold, M.right.mem_unkeyed_iff_of_lt hold]
  · obtain ⟨node, hnode⟩ := Debug.NodeTable.exists_node? known
    have he := Debug.NodeTable.entry?_of_node? hnode
    obtain ⟨e', he', same⟩ := M.exists_sameUpTo he
    rw [M.left.mem_unkeyed_iff fresh, M.right.mem_unkeyed_iff (M.size_le fresh known), he, he',
      same.entry]
    cases node.entry <;> simp [Debug.Entry.rename]

lemma bijOn : Set.BijOn ρ {n | n.index < t.nodes.size} {n | n.index < t'.nodes.size} := by
  refine ⟨fun n hn => ?_, fun n hn m hm heq => ?_, fun n' hn' => ?_⟩
  · obtain ⟨r, played⟩ := M.left.exists_plays hn
    exact M.right.lt_of_plays (M.roles played)
  · obtain ⟨r, played⟩ := M.left.exists_plays hn
    obtain ⟨r', played'⟩ := M.left.exists_plays hm
    obtain rfl := M.right.role_eq (M.roles played) (heq ▸ M.roles played')
    exact played.node_eq played'
  · obtain ⟨r, played'⟩ := M.right.exists_plays hn'
    obtain ⟨n, played⟩ :=
      Unfolds.plays_of_keys M.right M.left (fun hn => (M.keys _).2 ⟨_, hn⟩) played'
    exact ⟨n, M.left.lt_of_plays played, (M.roles played).node_eq played'⟩

/-- All nodes have the sizes of those they are renamed to. -/
lemma sizes (known : n.index < t.nodes.size) :
    t'.nodes.sizeInBits (ρ n) = t.nodes.sizeInBits n := by
  induction hi : n.index using Nat.strongRecOn generalizing n with
  | _ i ih =>
  subst hi
  obtain ⟨node, hnode⟩ := Debug.NodeTable.exists_node? known
  have he := Debug.NodeTable.entry?_of_node? hnode
  obtain ⟨e', he', same⟩ := M.exists_sameUpTo he
  exact M.sizeInBits_eq he he' same fun m _ hlt => ih m.index hlt (Nat.lt_trans hlt known) rfl

lemma renamed : Renamed s t t' τ ρ where
  types := fun _ => M.types
  nodes := fun _ => M.old
  bijective := M.bijOn
  keyed := M.get?_debugTypes
  unkeyed := fun _ => M.mem_unkeyed_iff
  files := M.get?_files
  entries := fun _ _ => M.exists_sameUpTo
  sizes := fun _ => M.sizes

end Matching

/-- Stores that unfold from one and list the same keys are the same up to renaming. -/
theorem Unfolds.exists_renamed (h : Unfolds b s t) (h' : Unfolds b s t')
    (keys : ∀ key, (∃ n, t.debugTypes.get? key = some n) ↔ ∃ n, t'.debugTypes.get? key = some n) :
    ∃ τ ρ, Renamed s t t' τ ρ := by
  obtain ⟨τ, ρ, M⟩ := exists_matching h h' keys
  exact ⟨τ, ρ, M.renamed⟩

end Store

end ShaderTypes
