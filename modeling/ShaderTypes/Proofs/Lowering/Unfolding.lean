import Mathlib.Data.List.Nodup
import ShaderTypes.Proofs.Lowering.Account
import ShaderTypes.Proofs.Lowering.Order
import ShaderTypes.Proofs.Lowering.Stability
import ShaderTypes.Proofs.Store.Grounding

/-!
# The roles of nodes

After any number of lowerings, in whatever order, each node plays one role: it was there before, it
is the source or the unit of a file that was opened, it is listed under a new key, or it is the
member at some place of a composite that is listed newly.  No node plays two roles, and no two nodes
play the same one.

So a role names a node regardless of when it was made, and two stores that unfold from one, with the
same keys, have nodes in the same roles.
-/

namespace ShaderTypes

/-- A value that stands under one key only is found there. -/
lemma OrderedMap.eq_of_get? {κ ν : Type} [DecidableEq κ] {m : OrderedMap κ ν} {k l : κ} {v : ν}
    (h : m.values.Nodup) (hk : m.get? k = some v) (hl : m.get? l = some v) : k = l := by
  have mem {k : κ} (hk : m.get? k = some v) : (k, v) ∈ m.entries := by
    obtain ⟨before, after, hentries, -⟩ := List.lookup_eq_some_iff.1 hk
    exact hentries ▸ List.mem_append_right _ List.mem_cons_self
  exact congrArg Prod.fst (List.inj_on_of_nodup_map h (mem hk) (mem hl) rfl)

/-- The role of a node: one that was there, the source or the unit of a file, the debug type under a
key, or a member of the composite under a type. -/
inductive Role where
  | old (n : NodeId)
  | source (file : String)
  | unit (file : String)
  | keyed (key : Option TypeId)
  | member (a : TypeId) (place : Nat)

/-- The kind of a role, by which the roles of nodes that say different things are told apart. -/
def Role.kind : Role → Nat
  | .old _ => 0
  | .source _ => 1
  | .unit _ => 2
  | .member _ _ => 3
  | .keyed _ => 4

namespace Store

/-- What lowerings of types of a store make of it, whatever their order. -/
structure Unfolds (b : BuilderId) (s t : Store) : Prop where
  before : s.LeftToLowering
  after : t.LeftToLowering
  changes : Lowering.Changes b (Lowering.Listable s.types.size) s.nodes.size s t
  depicted : ListsDepicted s t
  accounted : Accounts s t

/-- The node plays the role in the later of two stores. -/
inductive Plays (s t : Store) : Role → NodeId → Prop
  | old {n : NodeId} (known : n.index < s.nodes.size) : Plays s t (.old n) n
  | source {name : String} {file : Debug.File} (new : s.files.get? name = none)
      (opened : t.files.get? name = some file) : Plays s t (.source name) file.source
  | unit {name : String} {file : Debug.File} (new : s.files.get? name = none)
      (opened : t.files.get? name = some file) : Plays s t (.unit name) file.unit
  | keyed {key : Option TypeId} {n : NodeId} (new : s.debugTypes.get? key = none)
      (listed : t.debugTypes.get? key = some n) : Plays s t (.keyed key) n
  | member {a : TypeId} {n m : NodeId} {c : Debug.Composite} {i : Nat}
      (new : s.debugType? a = none) (listed : t.debugType? a = some n)
      (composite : t.nodes.entry? n = some (.composite c)) (place : c.members[i]? = some m)
      (fresh : s.nodes.size ≤ m.index) : Plays s t (.member a i) m

/-- The kind of the roles that a node may play, as its entry tells. -/
def roleKind (s t : Store) (n : NodeId) : Nat :=
  if n.index < s.nodes.size then 0
  else
    match t.nodes.entry? n with
    | some (.source _) => 1
    | some (.compilationUnit _) => 2
    | some (.member _) => 3
    | _ => 4

variable {s t t' : Store} {a : TypeId} {n m : NodeId} {b : BuilderId} {key : Option TypeId}
  {c : Debug.Composite} {r r' : Role} {name : String} {file : Debug.File}

/-- The files of a described struct are known. -/
lemma Depicts.located {x : Shape} {e : Debug.Entry} (hd : s.Depicts x n e)
    (hname : name ∈ x.sourceFiles) : ∃ file, s.files.get? name = some file := by
  cases hd with
  | basic basic => cases x <;> first | cases hname | cases basic
  | built _ builds => cases builds <;> cases hname
  | composite made located _ aligned filled =>
    simp only [Shape.sourceFiles, made, List.mem_cons, List.mem_map] at hname
    rcases hname with rfl | ⟨⟨decl, field⟩, hpair, rfl⟩
    · exact ⟨_, located⟩
    · exact filled.located (aligned.mem_iff.2 hpair)

/-- No two nodes play the same role. -/
lemma Plays.node_eq (hn : s.Plays t r n) (hm : s.Plays t r m) : n = m := by
  cases hn with
  | old =>
    cases hm
    rfl
  | source _ opened =>
    cases hm with | source _ opened' =>
    rw [Option.some.inj (opened.symm.trans opened')]
  | unit _ opened =>
    cases hm with | unit _ opened' =>
    rw [Option.some.inj (opened.symm.trans opened')]
  | keyed _ listed =>
    cases hm with | keyed _ listed' =>
    exact Option.some.inj (listed.symm.trans listed')
  | member _ listed composite place =>
    cases hm with | member _ listed' composite' place' =>
    obtain rfl := Option.some.inj (listed.symm.trans listed')
    cases composite.symm.trans composite'
    exact Option.some.inj (place.symm.trans place')

lemma Unfolds.extends (h : Unfolds b s t) : s.Extends t :=
  extends_of_changes h.changes

namespace Unfolds

/-! ### What is found in a later store -/

section

variable (h : Unfolds b s t)
include h

/-- A function that is saved for a method was there before. -/
lemma function_lt {id : Decl.MethodId} (hn : t.function? id = some n) : n.index < s.nodes.size :=
  h.before.reachable.grounded.methods ((function?_of_changes h.changes).symm.trans hn)

/-- A type that is listed newly was there before, and is depicted by a new node. -/
lemma depicts (new : s.debugType? a = none) (listed : t.debugType? a = some n) :
    s.nodes.size ≤ n.index ∧ ∃ x e, s.types.shape? a = some x ∧ t.nodes.entry? n = some e ∧
      t.Depicts x n e := by
  obtain ⟨x, e, hx, he, hd⟩ := h.depicted.typed listed new
  rcases h.changes.get?_cases listed with hold | ⟨-, fresh, listable⟩
  · cases new.symm.trans hold
  · rw [TypeTable.shape?_eq_of_lt h.extends.types.shapes_le (listable a rfl).1] at hx
    exact ⟨fresh, x, e, hx, he, hd⟩

/-- What is listed under a new key is a new node, and says what a debug type says. -/
lemma keyed (new : s.debugTypes.get? key = none) (listed : t.debugTypes.get? key = some n) :
    s.nodes.size ≤ n.index ∧ ∃ e, t.nodes.entry? n = some e ∧ e.isDebugType = true ∧
      e.member? = none := by
  cases key with
  | none =>
    rcases h.changes.get?_cases listed with hold | ⟨-, fresh, -⟩
    · cases new.symm.trans hold
    · exact ⟨fresh, _, h.depicted.placeholder listed new, rfl, rfl⟩
  | some a =>
    obtain ⟨fresh, x, e, -, he, hd⟩ := h.depicts new listed
    exact ⟨fresh, e, he, hd.isDebugType⟩

/-- What a composite that is listed newly lists. -/
lemma populates (new : s.debugType? a = none) (listed : t.debugType? a = some n)
    (composite : t.nodes.entry? n = some (.composite c)) :
    ∃ struct record slots extent, s.types.shape? a = some (.struct struct) ∧
      struct.record = some record ∧ Lowering.Aligns record struct slots ∧
      t.Populates n slots (n.index + 1) {} c.members extent := by
  obtain ⟨-, x, e, hx, he, hd⟩ := h.depicts new listed
  obtain rfl := Option.some.inj (composite.symm.trans he)
  obtain ⟨struct, record, slots, extent, rfl, made, aligned, filled⟩ := hd.populates
  exact ⟨struct, record, slots, extent, hx, made, aligned, filled⟩

/-- A new member of such a composite says that it belongs to it. -/
lemma entry?_member {i : Nat} (new : s.debugType? a = none) (listed : t.debugType? a = some n)
    (composite : t.nodes.entry? n = some (.composite c)) (place : c.members[i]? = some m)
    (fresh : s.nodes.size ≤ m.index) :
    ∃ d, t.nodes.entry? m = some (.member d) ∧ d.parent = n := by
  obtain ⟨_, _, _, _, -, -, -, filled⟩ := h.populates new listed composite
  rcases filled.getElem?_cases place with ⟨_, -, saved⟩ | ⟨-, -, hd⟩
  · exact absurd (h.function_lt saved) (Nat.not_lt.2 fresh)
  · exact hd

/-- What the nodes say of a file that was opened. -/
lemma opened (new : s.files.get? name = none) (opened : t.files.get? name = some file) :
    Opened s t name file := by
  rcases opened_of_changes h.changes opened with hold | ⟨-, opened⟩
  · cases new.symm.trans hold
  · exact opened

/-! ### One role a node, one node a role -/

/-- A node that plays a role says what goes with it. -/
lemma roleKind_of_plays (hr : s.Plays t r n) : roleKind s t n = r.kind := by
  have fresh {n : NodeId} (hn : s.nodes.size ≤ n.index) : ¬ n.index < s.nodes.size := Nat.not_lt.2 hn
  cases hr with
  | old known => rw [roleKind, if_pos known, Role.kind]
  | source new opened =>
    have said := h.opened new opened
    rw [roleKind, if_neg (fresh said.source_le), said.source, Role.kind]
  | unit new opened =>
    have said := h.opened new opened
    rw [roleKind, if_neg (fresh said.unit_le), said.unit, Role.kind]
  | keyed new listed =>
    obtain ⟨hn, e, he, debugType, member⟩ := h.keyed new listed
    rw [roleKind, if_neg (fresh hn), he, Role.kind]
    cases e <;> simp_all [Debug.Entry.isDebugType, Debug.Entry.member?]
  | member new listed composite place hm =>
    obtain ⟨d, hd, -⟩ := h.entry?_member new listed composite place hm
    rw [roleKind, if_neg (fresh hm), hd, Role.kind]

/-- A node is listed under one key only. -/
lemma key_eq {key' : Option TypeId} (hkey : t.debugTypes.get? key = some n)
    (hkey' : t.debugTypes.get? key' = some n) : key = key' := by
  refine OrderedMap.eq_of_get? (h.after.staged.increasing.imp ?_) hkey hkey'
  rintro n m hlt rfl
  exact Nat.lt_irrefl _ hlt

/-- The name of a file can be told from its source. -/
lemma name_eq {name' : String} {file' : Debug.File} (new : s.files.get? name = none)
    (opened : t.files.get? name = some file) (new' : s.files.get? name' = none)
    (opened' : t.files.get? name' = some file') (hsource : file.source = file'.source) :
    name = name' := by
  have said := (h.opened new opened).source
  rw [hsource, (h.opened new' opened').source] at said
  cases said
  rfl

/-- A node plays one role only. -/
lemma role_eq (hr : s.Plays t r n) (hr' : s.Plays t r' n) : r = r' := by
  have kind := (h.roleKind_of_plays hr).symm.trans (h.roleKind_of_plays hr')
  generalize hm : n = m at hr'
  cases hr <;> cases hr' <;> try cases kind
  case old.old => rw [hm]
  case source.source new opened _ _ new' opened' =>
    exact congrArg Role.source (h.name_eq new opened new' opened' hm)
  case unit.unit new opened _ _ new' opened' =>
    have said := (h.opened new opened).unit
    rw [hm, (h.opened new' opened').unit] at said
    simp only [Option.some.injEq, Debug.Entry.compilationUnit.injEq, Debug.CompilationUnit.mk.injEq,
      true_and, and_true] at said
    exact congrArg Role.unit (h.name_eq new opened new' opened' said.symm)
  case keyed.keyed new listed _ new' listed' =>
    rw [← hm] at listed'
    exact congrArg Role.keyed (h.key_eq listed listed')
  case member.member a n c i new listed composite place fresh a' n' c' i' new' listed' composite'
      place' fresh' =>
    subst hm
    obtain ⟨d, hd, rfl⟩ := h.entry?_member new listed composite place fresh
    obtain ⟨d', hd', rfl⟩ := h.entry?_member new' listed' composite' place' fresh'
    obtain rfl : d = d' := Debug.Entry.member.inj (Option.some.inj (hd.symm.trans hd'))
    obtain rfl : a = a' := Option.some.inj (h.key_eq listed listed')
    obtain rfl : c = c' :=
      Debug.Entry.composite.inj (Option.some.inj (composite.symm.trans composite'))
    obtain ⟨_, _, _, _, -, -, -, filled⟩ := h.populates new listed composite
    exact congrArg (Role.member a) (filled.eq_of_getElem? h.function_lt fresh place place')

lemma lt_of_plays (hr : s.Plays t r n) : n.index < t.nodes.size := by
  have grounded := h.after.reachable.grounded
  cases hr with
  | old known => exact Nat.lt_of_lt_of_le known h.extends.size_le
  | source _ opened => exact grounded.files opened _ List.mem_cons_self
  | unit _ opened => exact grounded.files opened _ (List.mem_cons_of_mem _ List.mem_cons_self)
  | keyed _ listed => exact h.after.staged.lt_of_mem_values (OrderedMap.mem_values_of_get? listed)
  | member _ _ composite place =>
    refine grounded.nodes composite _ ?_
    simp [Debug.Entry.nodes, List.mem_of_getElem? place]

/-- Every node plays a role. -/
lemma exists_plays (hn : n.index < t.nodes.size) : ∃ r, s.Plays t r n := by
  rcases Nat.lt_or_ge n.index s.nodes.size with known | fresh
  · exact ⟨.old n, .old known⟩
  have sound := h.before.reachable.sound
  rcases accounted_of_changes h.changes fresh hn with ⟨name, file, opened, hnode⟩ | listed
  · have new : s.files.get? name = none := by
      rcases opened_of_changes h.changes opened with hold | ⟨new, -⟩
      · have known := h.before.reachable.grounded.files hold
        rcases hnode with rfl | rfl
        · exact absurd (known _ List.mem_cons_self) (Nat.not_lt.2 fresh)
        · exact absurd (known _ (List.mem_cons_of_mem _ List.mem_cons_self)) (Nat.not_lt.2 fresh)
      · exact new
    rcases hnode with rfl | rfl
    · exact ⟨.source name, .source new opened⟩
    · exact ⟨.unit name, .unit new opened⟩
  rcases List.mem_append.1 listed with listed | listed
  · obtain ⟨⟨key, n⟩, hentry, rfl⟩ := List.mem_map.1 listed
    have listed := OrderedMap.get?_of_mem h.after.reachable.sound.keys hentry
    rcases new : s.debugTypes.get? key with _ | m
    · exact ⟨.keyed key, .keyed new listed⟩
    · obtain rfl : m = n := Option.some.inj ((h.extends.get?_debugTypes new).symm.trans listed)
      exact absurd (sound.lt_of_get? new) (Nat.not_lt.2 fresh)
  · rcases h.accounted.unkeyed n listed with hold | ⟨a, m, c, listed, new, composite, hmem⟩
    · exact absurd (sound.listed n (List.mem_append_right _ hold)) (Nat.not_lt.2 fresh)
    · obtain ⟨i, place⟩ := List.mem_iff_getElem?.1 hmem
      exact ⟨.member a i, .member new listed composite place fresh⟩

/-- What is listed apart newly are the members. -/
lemma mem_unkeyed_iff (fresh : s.nodes.size ≤ n.index) :
    n ∈ t.unkeyed ↔ ∃ d, t.nodes.entry? n = some (.member d) := by
  constructor
  · intro hn
    rcases h.accounted.unkeyed n hn with hold | ⟨a, m, c, listed, new, composite, hmem⟩
    · have known := h.before.staged.listed n (List.mem_append_right _ hold)
      exact absurd known (Nat.not_lt.2 fresh)
    · obtain ⟨i, place⟩ := List.mem_iff_getElem?.1 hmem
      obtain ⟨d, hd, -⟩ := h.entry?_member new listed composite place fresh
      exact ⟨d, hd⟩
  · rintro ⟨d, hd⟩
    exact h.after.staged.members hd rfl

lemma mem_unkeyed_iff_of_lt (known : n.index < s.nodes.size) : n ∈ t.unkeyed ↔ n ∈ s.unkeyed := by
  obtain ⟨more, hmore, hnew⟩ := h.extends.unkeyed
  rw [hmore, List.mem_append, or_iff_left]
  exact fun hn => absurd known (Nat.not_lt.2 (hnew n hn))

end

/-! ### Two stores with the same keys -/

/-- Where the same keys are listed, the same roles are played. -/
lemma plays_of_keys (h : Unfolds b s t) (h' : Unfolds b s t')
    (keys : ∀ {key n}, t.debugTypes.get? key = some n → ∃ n', t'.debugTypes.get? key = some n')
    (hr : s.Plays t r n) : ∃ n', s.Plays t' r n' := by
  -- A file is opened for a struct with a new composite, which there is in either store.
  have file {name : String} {file : Debug.File} (new : s.files.get? name = none)
      (opened : t.files.get? name = some file) : ∃ file', t'.files.get? name = some file' := by
    rcases h.accounted.files opened with hold | ⟨a, n, x, listed, hnew, hx, hname⟩
    · cases new.symm.trans hold
    · obtain ⟨n', listed'⟩ := keys listed
      obtain ⟨-, y, _, hy, -, -⟩ := h.depicts hnew listed
      obtain rfl := Option.some.inj ((h.extends.shape? hy).symm.trans hx)
      obtain ⟨-, z, _, hz, -, hd⟩ := h'.depicts hnew listed'
      obtain rfl := Option.some.inj (hy.symm.trans hz)
      exact hd.located hname
  cases hr with
  | old known => exact ⟨n, .old known⟩
  | source new opened =>
    obtain ⟨file', opened'⟩ := file new opened
    exact ⟨_, .source new opened'⟩
  | unit new opened =>
    obtain ⟨file', opened'⟩ := file new opened
    exact ⟨_, .unit new opened'⟩
  | keyed new listed =>
    obtain ⟨n', listed'⟩ := keys listed
    exact ⟨n', .keyed new listed'⟩
  | @member a n m c i new listed composite place fresh =>
    obtain ⟨n', listed'⟩ := keys listed
    obtain ⟨struct, record, slots, extent, hx, made, aligned, filled⟩ :=
      h.populates new listed composite
    obtain ⟨fresh', y, e', hy, composite', hd⟩ := h'.depicts new listed'
    obtain rfl := Option.some.inj (hx.symm.trans hy)
    obtain ⟨c', rfl⟩ : ∃ c', e' = .composite c' := by
      cases hd with
      | basic basic => cases basic
      | built _ builds => cases builds
      | composite => exact ⟨_, rfl⟩
    obtain ⟨struct', record', slots', extent', hstruct, made', aligned', filled'⟩ := hd.populates
    cases hstruct
    obtain rfl := Option.some.inj (made.symm.trans made')
    obtain rfl := aligned.eq aligned'
    -- The place is one of a data field, for which a member is made in either store.
    rcases filled.getElem?_cases place with ⟨_, -, saved⟩ | ⟨⟨decl, field, slot⟩, -, -⟩
    · exact absurd (h.function_lt saved) (Nat.not_lt.2 fresh)
    obtain ⟨m', place'⟩ : ∃ m', c'.members[i]? = some m' := by
      refine ⟨_, List.getElem?_eq_getElem ?_⟩
      rw [filled'.length_eq]
      exact (List.getElem?_eq_some_iff.1 slot).1
    rcases filled'.getElem?_cases place' with ⟨_, method, -⟩ | ⟨-, newer, -⟩
    · cases slot.symm.trans method
    · exact ⟨m', .member new listed' composite' place' (by omega)⟩

end Unfolds

end Store

end ShaderTypes
