import ShaderTypes.Proofs.Lowering.Depicted
import ShaderTypes.Proofs.Store.Course

/-!
# What lowering makes

Nothing is made by the way.  A node that lowering makes is the source or the unit of a file, is
listed under a key, or is listed apart; what is listed apart is a member of a composite that is
listed under its type, and a file is one in which such a struct or a member of it is declared.

The first part holds of every single change, `accounted_of_changes`.  The others do not, because a
member is made before it belongs to its composite; they go along the recursion, `Store.Accounts`.
-/

namespace ShaderTypes

/-- The files in which the record of a struct and the data fields of it are declared. -/
def Shape.sourceFiles : Shape → List String
  | .struct s =>
    match s.record with
    | some record =>
      record.location.file :: (Lowering.firstOccurrences (record.dataFields.zip s.fields)).map
        fun p => p.1.location.file
    | none => []
  | _ => []

namespace Store

/-- What the nodes of a file say that was opened for lowering. -/
structure Opened (s t : Store) (name : String) (file : Debug.File) : Prop where
  source_le : s.nodes.size ≤ file.source.index
  unit_le : s.nodes.size ≤ file.unit.index
  source : t.nodes.entry? file.source = some (.source { file := name })
  unit : t.nodes.entry? file.unit = some (.compilationUnit
    { spirvVersion, dwarfVersion := s.options.dwarfVersion, source := file.source,
      language := sourceLanguage })
  opened : file.opened = []

/-- Of what is listed apart in a later store each node was listed apart before or is a member of a
composite that is listed newly, and each file was known before or is one of a struct with a new
composite. -/
structure Accounts (s t : Store) : Prop where
  unkeyed : ∀ m ∈ t.unkeyed, m ∈ s.unkeyed ∨ ∃ v n c, t.debugType? v = some n ∧
    s.debugType? v = none ∧ t.nodes.entry? n = some (.composite c) ∧ m ∈ c.members
  files : ∀ {name : String} {file : Debug.File}, t.files.get? name = some file →
    s.files.get? name = some file ∨ ∃ v n x, t.debugType? v = some n ∧ s.debugType? v = none ∧
      t.types.shape? v = some x ∧ name ∈ x.sourceFiles

variable {s t u : Store} {a : TypeId} {n m d : NodeId} {b : BuilderId} {e : Debug.Entry}
  {keys : Store → TypeId → Prop} {base : Nat} {name : String} {file : Debug.File}
  {c : Debug.Composite}

/-! ### Single changes -/

lemma options_of_changes (h : Lowering.Changes b keys base s t) : t.options = s.options := by
  refine h.induction (P := fun r => r.options = s.options) rfl fun r r' change hr => ?_
  rw [← hr]
  cases change with
  | openFile name =>
    unfold openFile
    split <;> rfl
  | @keyedNode key =>
    unfold keyedNode
    split <;> rfl
  | _ => rfl

/-- What the nodes say of a file that becomes known. -/
lemma opened_openFile (hnew : s.files.get? name = none) :
    Opened s (s.openFile name).2 name (s.openFile name).1 := by
  have hsource :
      (⟨s.nodes.size⟩ : NodeId).index < (s.nodes.push (.source { file := name })).size := by
    simp
  rw [openFile_of_get?_eq_none hnew]
  refine ⟨Nat.le_refl _, Nat.le_succ _, ?_, ?_, rfl⟩
  · rw [Debug.NodeTable.entry?, Debug.NodeTable.node?_push_of_lt hsource,
      Debug.NodeTable.node?_push_size]
    rfl
  · rw [← Debug.NodeTable.size_push]
    exact Debug.NodeTable.entry?_of_node? Debug.NodeTable.node?_push_size

/-- A change makes a file known by opening it. -/
lemma eq_openFile_of_change (h : Lowering.Change b keys base s t) (hs : s.files.get? name = none)
    (ht : t.files.get? name = some file) :
    t = (s.openFile name).2 ∧ file = (s.openFile name).1 := by
  have unchanged (hfiles : t.files = s.files) :
      t = (s.openFile name).2 ∧ file = (s.openFile name).1 := by
    rw [hfiles] at ht
    cases hs.symm.trans ht
  cases h with
  | openFile name' =>
    by_cases hname : name = name'
    · subst hname
      exact ⟨rfl, Option.some.inj (ht.symm.trans get?_files_openFile)⟩
    · rcases hopen : s.files.get? name' with _ | known
      · rw [openFile_of_get?_eq_none hopen] at ht
        cases hs.symm.trans ((OrderedMap.get?_insert_of_ne hname).symm.trans ht)
      · rw [openFile_of_get? hopen] at ht
        cases hs.symm.trans ht
  | keyedNode => exact unchanged files_keyedNode
  | _ => exact unchanged rfl

/-- A file that is known was known before, or was opened. -/
lemma opened_of_changes (h : Lowering.Changes b keys base s t)
    (hfile : t.files.get? name = some file) :
    s.files.get? name = some file ∨ s.files.get? name = none ∧ Opened s t name file := by
  induction h with
  | refl => exact Or.inl hfile
  | @step t u before change ih =>
    rcases ht : t.files.get? name with _ | known
    · obtain ⟨rfl, rfl⟩ := eq_openFile_of_change change ht hfile
      have opened := opened_openFile ht
      refine Or.inr ⟨?_, ?_⟩
      · rcases hs : s.files.get? name with _ | old
        · rfl
        · obtain ⟨_, hold, -⟩ := (sustains_of_changes before).files hs
          cases ht.symm.trans hold
      · exact
          { source_le := Nat.le_trans before.size_le opened.source_le
            unit_le := Nat.le_trans before.size_le opened.unit_le
            source := opened.source
            unit := options_of_changes before ▸ opened.unit
            opened := opened.opened }
    · obtain rfl : known = file := Option.some.inj ((files_of_change change ht).symm.trans hfile)
      refine (ih ht).imp_right fun ⟨hnew, opened⟩ => ⟨hnew, ?_⟩
      exact
        { opened with
          source := entry?_of_change_of_not_composite change opened.source rfl
          unit := entry?_of_change_of_not_composite change opened.unit rfl }

lemma emitted_subset_of_change (h : Lowering.Change b keys base s t) : s.emitted ⊆ t.emitted := by
  obtain ⟨more, hmore, -⟩ := h.keyed
  obtain ⟨last, hlast, -⟩ := unkeyed_of_change h
  rw [emitted, emitted, OrderedMap.values, OrderedMap.values, hmore, hlast, List.map_append]
  exact List.append_subset.2 ⟨fun n hn => by simp [hn], fun n hn => by simp [hn]⟩

/-- A node that a change makes belongs to a file, or is listed. -/
lemma accounted_of_change (h : Lowering.Change b keys base s t) (hn : s.nodes.size ≤ n.index)
    (known : n.index < t.nodes.size) :
    (∃ name file, t.files.get? name = some file ∧ (n = file.source ∨ n = file.unit)) ∨
      n ∈ t.emitted := by
  have unmade (hsize : t.nodes.size = s.nodes.size) : False := by omega
  -- Where one node is made, it is the node with the next index.
  have last (hsize : t.nodes.size = s.nodes.size + 1) : n = ⟨s.nodes.size⟩ := by
    cases n
    simp only [NodeId.mk.injEq] at hn known ⊢
    omega
  cases h with
  | openFile name =>
    rcases hname : s.files.get? name with _ | file
    · refine Or.inl ⟨name, _, get?_files_openFile, ?_⟩
      rw [openFile_of_get?_eq_none hname] at known ⊢
      cases n
      simp only [Debug.NodeTable.size_push, NodeId.mk.injEq] at hn known ⊢
      omega
    · rw [openFile_of_get? hname] at known
      exact absurd known (Nat.not_lt.2 hn)
  | @keyedNode key e =>
    rcases hkey : s.debugTypes.get? key with _ | m
    · have hlast := last (by rw [keyedNode_of_get?_eq_none hkey]; exact Debug.NodeTable.size_push)
      refine Or.inr (List.mem_append_left _ ?_)
      have hlisted : (s.keyedNode key e).1 ∈ (s.keyedNode key e).2.debugTypes.values :=
        Lowering.mem_values_keyedNode
      rw [keyedNode_of_get?_eq_none hkey, ← hlast] at hlisted ⊢
      exact hlisted
    · rw [keyedNode_of_get? hkey] at known
      exact absurd known (Nat.not_lt.2 hn)
  | unkeyedNode =>
    rw [last Debug.NodeTable.size_push]
    exact Or.inr (List.mem_append_right _ (List.mem_append_right _ (List.mem_singleton.2 rfl)))
  | internType => exact (unmade rfl).elim
  | stamp => exact (unmade (by rw [nodes_stamp, Debug.NodeTable.size_modify])).elim
  | pushMember => exact (unmade Debug.NodeTable.size_modify).elim
  | setSize => exact (unmade Debug.NodeTable.size_modify).elim

/-- A node that is made belongs to a file, or is listed. -/
lemma accounted_of_changes (h : Lowering.Changes b keys base s t) (hn : s.nodes.size ≤ n.index)
    (known : n.index < t.nodes.size) :
    (∃ name file, t.files.get? name = some file ∧ (n = file.source ∨ n = file.unit)) ∨
      n ∈ t.emitted := by
  induction h with
  | refl => exact absurd known (Nat.not_lt.2 hn)
  | @step t u before change ih =>
    rcases Nat.lt_or_ge n.index t.nodes.size with hlt | hge
    · rcases ih hlt with ⟨name, file, hfile, hnode⟩ | hlisted
      · exact Or.inl ⟨name, file, files_of_change change hfile, hnode⟩
      · exact Or.inr (emitted_subset_of_change change hlisted)
    · exact accounted_of_change change hge known

/-- A composite keeps the members that it has. -/
lemma members_of_changes (h : Lowering.Changes b keys base s t)
    (hc : s.nodes.entry? n = some (.composite c)) :
    ∃ c', t.nodes.entry? n = some (.composite c') ∧ c.members ⊆ c'.members := by
  refine h.induction (P := fun r => ∃ c', r.nodes.entry? n = some (.composite c') ∧
    c.members ⊆ c'.members) ⟨c, hc, List.Subset.refl _⟩ ?_
  rintro r r' change ⟨c', hc', subset⟩
  have other {l : NodeId} {f : Debug.Composite → Debug.Composite}
      (hf : ∀ c : Debug.Composite, c.members ⊆ (f c).members) :
      ∃ c'', (r.modifyNode l fun node =>
        { node with entry := node.entry.mapComposite f }).nodes.entry? n = some (.composite c'') ∧
          c.members ⊆ c''.members := by
    obtain ⟨node, hnode, hentry⟩ := Option.map_eq_some_iff.1 hc'
    rw [modifyNode, Debug.NodeTable.entry?, Debug.NodeTable.node?_modify, hnode]
    split
    · exact ⟨f c', by simp [hentry, Debug.Entry.mapComposite], List.Subset.trans subset (hf c')⟩
    · exact ⟨c', by simp [hentry], subset⟩
  cases change with
  | internType => exact ⟨c', hc', subset⟩
  | openFile => exact ⟨c', Debug.NodeTable.entry?_mono nodes_le_openFile hc', subset⟩
  | keyedNode => exact ⟨c', Debug.NodeTable.entry?_mono nodes_le_keyedNode hc', subset⟩
  | unkeyedNode => exact ⟨c', Debug.NodeTable.entry?_mono nodes_le_unkeyedNode hc', subset⟩
  | stamp => exact ⟨c', entry?_stamp.trans hc', subset⟩
  | pushMember => exact other fun _ => List.subset_append_left _ _
  | setSize => exact other fun _ => List.Subset.refl _

/-! ### Accounts -/

namespace Accounts

lemma of_eq (unkeyed : t.unkeyed = s.unkeyed) (files : t.files = s.files) : Accounts s t where
  unkeyed := fun _ hm => Or.inl (unkeyed ▸ hm)
  files := fun hfile => Or.inl (files ▸ hfile)

/-- What is accounted for stays so. -/
lemma unkeyed_of_changes (h : Accounts s t) (after : Lowering.Changes b keys base t u)
    (hm : m ∈ t.unkeyed) : m ∈ s.unkeyed ∨ ∃ v n c, u.debugType? v = some n ∧
      s.debugType? v = none ∧ u.nodes.entry? n = some (.composite c) ∧ m ∈ c.members := by
  refine (h.unkeyed m hm).imp_right fun ⟨v, n, c, hv, hnew, hc, hmem⟩ => ?_
  obtain ⟨c', hc', subset⟩ := members_of_changes after hc
  exact ⟨v, n, c', (sustains_of_changes after).keyed hv, hnew, hc', subset hmem⟩

lemma files_of_changes (h : Accounts s t) (after : Lowering.Changes b keys base t u)
    (hfile : t.files.get? name = some file) : s.files.get? name = some file ∨
      ∃ v n x, u.debugType? v = some n ∧ s.debugType? v = none ∧ u.types.shape? v = some x ∧
        name ∈ x.sourceFiles := by
  refine (h.files hfile).imp_right fun ⟨v, n, x, hv, hnew, hx, hname⟩ => ?_
  have sustained := sustains_of_changes after
  exact ⟨v, n, x, sustained.keyed hv, hnew, TypeTable.shape?_mono sustained.shapes hx, hname⟩

/-- One after the other. -/
lemma trans (h : Accounts s t) (h' : Accounts t u) (before : s.Sustains t)
    (after : Lowering.Changes b keys base t u) : Accounts s u := by
  have new {v : TypeId} (hv : t.debugType? v = none) : s.debugType? v = none := by
    rw [Option.eq_none_iff_forall_ne_some] at hv ⊢
    exact fun n hn => hv n (before.keyed hn)
  constructor
  · intro m hm
    rcases h'.unkeyed m hm with hm | ⟨v, n, c, hv, hnew, hc, hmem⟩
    · exact h.unkeyed_of_changes after hm
    · exact Or.inr ⟨v, n, c, hv, new hnew, hc, hmem⟩
  · intro name file hfile
    rcases h'.files hfile with hfile | ⟨v, n, x, hv, hnew, hx, hname⟩
    · exact h.files_of_changes after hfile
    · exact Or.inr ⟨v, n, x, hv, new hnew, hx, hname⟩

end Accounts

end Store

namespace Lowering

open Store

variable {r s t : Store} {a : TypeId} {n : NodeId} {b : BuilderId} {struct : Struct}
  {record : Decl.Record}

/-- A lowering accounts for what it makes. -/
abbrev Accounting (b : BuilderId) : TypeId → TypeId → Store → NodeId → Store → Prop :=
  Lowered b fun _ s _ t => Accounts s t

lemma Chain.accounts {as : List TypeId} {ns : List NodeId} (h : Chain (Accounting b a) as s ns t) :
    Accounts s t := by
  induction h with
  | nil => exact .of_eq rfl rfl
  | cons head tail ih =>
    exact head.kept.trans ih (sustains_of_changes (lower_changes head.run)) tail.changes_of_below

lemma unkeyed_openMember {decl : Decl.Field} : (openMember s decl).unkeyed = s.unkeyed := by
  have hvalue : (literalConstant s decl.value).2.unkeyed = s.unkeyed := by
    unfold literalConstant
    split <;> rfl
  rw [openMember, unkeyed_openFile, hvalue]

lemma get?_files_openMember {decl : Decl.Field} {name : String} {file : Debug.File}
    (h : (openMember s decl).files.get? name = some file) :
    s.files.get? name = some file ∨ name = decl.location.file := by
  have hvalue : (literalConstant s decl.value).2.files = s.files := by
    unfold literalConstant
    split <;> rfl
  rcases files_openFile_cases h with h | ⟨hname, -⟩
  · exact Or.inl (hvalue ▸ h)
  · exact Or.inr hname

/-- A member is accounted for when the composite of its struct is listed newly. -/
lemma accounts_addMember {type : NodeId} {extent : Extent} {decl : Decl.Field} {field : Field}
    {c : Debug.Composite} {x : Shape} (listed : s.debugType? a = some n)
    (new : r.debugType? a = none) (hc : s.nodes.entry? n = some (.composite c))
    (hx : s.types.shape? a = some x) (hfile : decl.location.file ∈ x.sourceFiles)
    (h : Accounts r s) : Accounts r (addMember b s n extent decl field type).2 := by
  have member : Changes b (fun _ _ => True) 0 s (addMember b s n extent decl field type).2 :=
    changes_addMember (Nat.zero_le _) (Nat.zero_le _)
  have kept := sustains_of_changes member
  have unkeyed : (addMember b s n extent decl field type).2.unkeyed =
      s.unkeyed ++ [⟨(openMember s decl).nodes.size⟩] := by
    have hopen : (openMember s decl).unkeyed = s.unkeyed := unkeyed_openMember
    rw [addMember_snd, ← hopen]
    rfl
  constructor
  · intro m hm
    rw [unkeyed, List.mem_append, List.mem_singleton] at hm
    rcases hm with hm | rfl
    · exact h.unkeyed_of_changes member hm
    · exact Or.inr ⟨a, n, _, kept.keyed listed, new, entry?_addMember_self hc, by simp⟩
  · intro name file hname
    rcases get?_files_openMember hname with hname | rfl
    · exact h.files_of_changes member hname
    · exact Or.inr ⟨a, n, x, kept.keyed listed, new, TypeTable.shape?_mono kept.shapes hx, hfile⟩

/-- The members of a composite are accounted for, from a store in which its type is not listed. -/
lemma Filling.accounts {slots : List Slot} {extent extent' : Extent} {c : Debug.Composite}
    {x : Shape} (h : Filling (Accounting b a) b n slots extent s extent' t)
    (listed : s.debugType? a = some n) (new : r.debugType? a = none)
    (hc : s.nodes.entry? n = some (.composite c)) (hx : s.types.shape? a = some x)
    (files : ∀ decl field, .data decl field ∈ slots → decl.location.file ∈ x.sourceFiles)
    (before : r.Sustains s) (hr : Accounts r s) : Accounts r t := by
  induction h generalizing c with
  | nil => exact hr
  | @method decl slots _ _ function s t _ tail ih =>
    have push : Changes b (Listable a.index) 0 s (s.pushMember n function) := changes_pushMember
    obtain ⟨c', hc', -⟩ := members_of_changes push hc
    refine ih listed hc' hx (fun d f hslot => files d f (List.mem_cons_of_mem _ hslot))
      (before.trans (sustains_of_changes push)) (hr.trans (.of_eq rfl rfl) before push)
  | @data decl field slots extent _ type s s' t head tail ih =>
    have changes := lower_changes head.run
    have kept := sustains_of_changes changes
    obtain ⟨c', hc', -⟩ := members_of_changes changes hc
    have member : Changes b (Listable a.index) 0 s' (addMember b s' n extent decl field type).2 :=
      changes_addMember (Nat.zero_le _) (Nat.zero_le _)
    obtain ⟨c'', hc'', -⟩ := members_of_changes member hc'
    have hx' := TypeTable.shape?_mono kept.shapes hx
    have kept' := sustains_of_changes member
    refine ih (kept'.keyed (kept.keyed listed)) hc'' (TypeTable.shape?_mono kept'.shapes hx')
      (fun d f hslot => files d f (List.mem_cons_of_mem _ hslot))
      ((before.trans kept).trans kept') ?_
    exact accounts_addMember (kept.keyed listed) new hc' hx' (files decl field List.mem_cons_self)
      (hr.trans head.kept before changes)

/-- A composed struct accounts for what is made along with it. -/
lemma Composing.accounts (h : Composing (Accounting b a) b a struct record s n t)
    (made : struct.record = some record) (ha : s.debugType? a = none)
    (hx : s.types.shape? a = some (.struct struct)) : Accounts s t := by
  cases h with
  | found _ hc members =>
    -- A composite that is made now has no members yet.
    rw [isEmpty_members_openComposite ha hc] at members
    cases members
  | @filled tag c extent q htag hc members fault slots =>
    have opening : Changes b (fun _ _ => True) 0 s (openComposite s a struct record tag).2 :=
      changes_openComposite trivial
    have kept := sustains_of_changes opening
    have hx' := TypeTable.shape?_mono kept.shapes hx
    have opened : Accounts s (openComposite s a struct record tag).2 := by
      constructor
      · intro m hm
        rw [openComposite_eq, unkeyed_keyedNode, unkeyed_openFile] at hm
        exact Or.inl hm
      · intro name file hfile
        rw [openComposite_eq, files_keyedNode] at hfile
        rcases files_openFile_cases hfile with hfile | ⟨rfl, -⟩
        · exact Or.inl hfile
        · refine Or.inr ⟨a, _, _, debugType?_openComposite, ha, hx', ?_⟩
          simp [Shape.sourceFiles, made]
    have filled : Accounts s q := by
      refine slots.accounts debugType?_openComposite ha (entry?_openComposite ha) hx' ?_ kept opened
      intro decl field hslot
      simp only [Shape.sourceFiles, made, List.mem_cons, List.mem_map]
      exact Or.inr ⟨_, (aligns_pair fault).mem_iff.1 hslot, rfl⟩
    have size : Changes b (fun _ _ => True) 0 q
        (q.setSize (openComposite s a struct record tag).1 extent.size) := changes_setSize
    refine filled.trans (.of_eq rfl rfl) (kept.trans ?_) size
    exact sustains_of_changes slots.changes_of_below

end Lowering

open Lowering Store

/-- A lowering accounts for what it makes. -/
theorem accounts_lower {b : BuilderId} {a : TypeId} {s t : Store} {n : NodeId}
    (h : lower b a s = .ok (n, t)) : Accounts s t := by
  refine lower_induction (P := fun _ s _ t => Accounts s t) ?_ h
  intro a s n t _ hstep
  cases hstep with
  | listed => exact .of_eq rfl rfl
  | pointer _ _ pointee => exact pointee.kept
  | basic => exact .of_eq unkeyed_keyedNode files_keyedNode
  | @built _ s' x nodes e _ _ parts he =>
    have listing : Changes b (fun _ _ => True) 0 s'
        ((s'.keyedNode (some a) e).2.stamp (s'.keyedNode (some a) e).1 b) :=
      changes_keyedNode_stamp he.type?_eq_none
    exact parts.accounts.trans (.of_eq unkeyed_keyedNode files_keyedNode)
      (sustains_of_changes parts.changes_of_below) listing
  | @composite _ t _ _ n ha hx hr composing =>
    have stamp : Changes b (fun _ _ => True) 0 t (t.stamp n b) := changes_stamp
    have composed := composing.accounts hr ha hx
    have before : Changes b (fun _ _ => True) 0 s t :=
      composing.changes (fun u r m r' hu _ => hu.changes (Nat.zero_le _) |>.mono
        (fun _ _ _ => trivial) (Nat.le_refl _)) (Nat.zero_le _) (Nat.zero_le _) trivial
    exact composed.trans (.of_eq rfl rfl) (sustains_of_changes before) stamp
  | placeholder => exact .of_eq unkeyed_keyedNode files_keyedNode

end ShaderTypes
