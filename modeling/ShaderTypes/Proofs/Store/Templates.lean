import Mathlib.Data.List.Nodup
import ShaderTypes.Proofs.Store.Soundness

/-!
# Templates of composites

A composite gets its template when the template is first asked for, under whatever type the
composite is listed then, and keeps it from then on.  No other operation attaches a template, not
even to the composites that it makes: `Store.Spares`, for every operation in `spares_of_run`.

So whatever a session does with the registry, the templates of composites are listed apart, each of
them once, and no two composites share one: `Store.Templated`.
-/

namespace ShaderTypes

/-- The template attached to the composite that the entry describes. -/
def Debug.Entry.template? : Debug.Entry → Option NodeId
  | .composite c => c.template
  | _ => none

/-- What the template that the entry describes is of. -/
def Debug.Entry.target? : Debug.Entry → Option NodeId
  | .template t => some t.target
  | _ => none

/-- A new node is the only one that is added. -/
lemma Debug.NodeTable.node?_push_of_ne {t : Debug.NodeTable} {e : Debug.Entry} {n : NodeId}
    (h : n ≠ ⟨t.size⟩) : (t.push e).node? n = t.node? n := by
  have hn : n.index ≠ t.size := fun hindex => h (congrArg NodeId.mk hindex)
  rcases Nat.lt_or_gt_of_ne hn with hlt | hgt
  · exact node?_push_of_lt hlt
  · have hnone {t : Debug.NodeTable} (hle : t.size ≤ n.index) : t.node? n = none :=
      List.getElem?_eq_none hle
    rw [hnone (Nat.le_of_lt hgt), hnone (by rw [size_push]; exact hgt)]

namespace Store

/-- The template attached to the composite at a node. -/
def template? (s : Store) (n : NodeId) : Option NodeId :=
  (s.nodes.entry? n).bind Debug.Entry.template?

/-- What the template at a node is of. -/
def target? (s : Store) (n : NodeId) : Option NodeId :=
  (s.nodes.entry? n).bind Debug.Entry.target?

/-- The store with a template attached to a composite. -/
def withTemplate (s : Store) (n template : NodeId) : Store :=
  s.modifyNode n fun node =>
    { node with entry := node.entry.mapComposite ({ · with template := some template }) }

/-- The store with a template attached to a composite that has none yet. -/
def attach? (s : Store) (n template : NodeId) : Option Store :=
  match s.nodes.composite? n with
  | some { template := none, .. } => some (s.withTemplate n template)
  | _ => none

/-- What the first request for the template of the composite at `n` does: one new template of the
given target is attached to the composite and listed apart. -/
structure Attaches (s : Store) (n target template : NodeId) (t : Store) : Prop where
  fresh : template = ⟨s.nodes.size⟩
  size : t.nodes.size = s.nodes.size + 1
  entry : t.nodes.entry? template = some (.template { target })
  composite : ∀ {c : Debug.Composite}, s.nodes.composite? n = some c →
    t.nodes.composite? n = some { c with template := some template }
  others : ∀ m, m ≠ n → m ≠ template → t.nodes.node? m = s.nodes.node? m
  unkeyed : t.unkeyed = s.unkeyed ++ [template]
  unattached : ∃ r, (s.addNode (.template { target })).2.attach? n template = some r ∧
    t = { r with unkeyed := r.unkeyed ++ [template] }

/-- A later store in which no more templates are attached than before. -/
structure Spares (s t : Store) : Prop where
  size_le : s.nodes.size ≤ t.nodes.size
  template? : ∀ n, t.template? n = s.template? n
  target? : ∀ {n target : NodeId}, s.target? n = some target → t.target? n = some target
  unkeyed : ∃ more, t.unkeyed = s.unkeyed ++ more ∧ more.Nodup ∧
    ∀ p ∈ more, s.nodes.size ≤ p.index ∧ p.index < t.nodes.size

/-- The templates of composites are templates that are listed apart, each once and none for two
composites. -/
structure Templated (s : Store) : Prop where
  nodup : s.unkeyed.Nodup
  listed : ∀ {n p : NodeId}, s.template? n = some p → p ∈ s.unkeyed
  isTemplate : ∀ {n p : NodeId}, s.template? n = some p → (s.target? p).isSome = true
  unshared : ∀ {n m p : NodeId}, s.template? n = some p → s.template? m = some p → n = m

variable {s t u : Store} {a : TypeId} {n m p target : NodeId} {b : BuilderId} {e : Debug.Entry}
  {op : Operation} {reply : Reply} {c : Debug.Composite}

lemma template?_eq_some :
    s.template? n = some p ↔ ∃ c, s.nodes.composite? n = some c ∧ c.template = some p := by
  rw [template?, Debug.NodeTable.composite?, Option.bind_eq_some_iff]
  constructor
  · rintro ⟨e, he, hp⟩
    cases e with
    | composite c => exact ⟨c, by rw [he]; rfl, hp⟩
    | _ => cases hp
  · rintro ⟨c, hc, hp⟩
    rw [← Debug.NodeTable.composite?, Debug.NodeTable.composite?_eq_some] at hc
    exact ⟨.composite c, hc, hp⟩

/-! ### Sparing the templates -/

namespace Spares

lemma of_nodes (nodes : t.nodes = s.nodes) (unkeyed : t.unkeyed = s.unkeyed) : s.Spares t where
  size_le := Nat.le_of_eq (by rw [nodes])
  template? := fun n => by rw [Store.template?, nodes, Store.template?]
  target? := fun h => by rwa [Store.target?, nodes]
  unkeyed := ⟨[], by simp [unkeyed]⟩

lemma refl (s : Store) : s.Spares s :=
  .of_nodes rfl rfl

lemma trans (h : s.Spares t) (h' : t.Spares u) : s.Spares u where
  size_le := Nat.le_trans h.size_le h'.size_le
  template? := fun n => (h'.template? n).trans (h.template? n)
  target? := fun htarget => h'.target? (h.target? htarget)
  unkeyed := by
    obtain ⟨more, hmore, hnodup, hnew⟩ := h.unkeyed
    obtain ⟨last, hlast, hnodup', hnew'⟩ := h'.unkeyed
    refine ⟨more ++ last, by rw [hlast, hmore, List.append_assoc], ?_, ?_⟩
    · refine List.nodup_append.2 ⟨hnodup, hnodup', ?_⟩
      rintro p hp q hq rfl
      have := hnew p hp
      have := hnew' p hq
      omega
    · intro p hp
      have := h.size_le
      have := h'.size_le
      rcases List.mem_append.1 hp with hp | hp
      · have := hnew p hp
        omega
      · have := hnew' p hp
        omega

/-- A new node attaches no template to what was there, if it comes without one. -/
lemma addNode (bare : e.template? = none) : s.Spares (s.addNode e).2 where
  size_le := Nat.le_of_lt (by simp [Store.addNode])
  template? := by
    intro n
    ext p
    constructor
    · intro h
      obtain ⟨e', he', hp⟩ := Option.bind_eq_some_iff.1 h
      rcases Debug.NodeTable.entry?_push_cases he' with hold | ⟨-, rfl⟩
      · exact Option.bind_eq_some_iff.2 ⟨e', hold, hp⟩
      · cases bare.symm.trans hp
    · intro h
      obtain ⟨e', he', hp⟩ := Option.bind_eq_some_iff.1 h
      exact Option.bind_eq_some_iff.2
        ⟨e', Debug.NodeTable.entry?_mono (List.prefix_append _ _) he', hp⟩
  target? := by
    intro n target h
    obtain ⟨e', he', htarget⟩ := Option.bind_eq_some_iff.1 h
    exact Option.bind_eq_some_iff.2
      ⟨e', Debug.NodeTable.entry?_mono (List.prefix_append _ _) he', htarget⟩
  unkeyed := ⟨[], by simp [Store.addNode]⟩

lemma list {key : Option TypeId} :
    s.Spares { s with debugTypes := s.debugTypes.insert key n } :=
  .of_nodes rfl rfl

lemma keyedNode {key : Option TypeId} (bare : e.template? = none) :
    s.Spares (s.keyedNode key e).2 := by
  unfold Store.keyedNode
  split
  · exact .refl s
  · exact (addNode bare).trans list

lemma unkeyedNode (bare : e.template? = none) : s.Spares (s.unkeyedNode e).2 where
  size_le := (addNode bare).size_le
  template? := (addNode bare).template?
  target? := (addNode bare).target?
  unkeyed := ⟨[⟨s.nodes.size⟩], rfl, by simp, by simp [Store.unkeyedNode, Store.addNode]⟩

lemma openFile {name : String} : s.Spares (s.openFile name).2 := by
  unfold Store.openFile
  split
  · exact .refl s
  · exact ((addNode rfl).trans (addNode rfl)).trans (.of_nodes rfl rfl)

/-- A change of a node that leaves the template attached to it and what it is a template of. -/
lemma modifyNode {f : Debug.Node → Debug.Node}
    (hf : ∀ node, (f node).entry.template? = node.entry.template? ∧
      (f node).entry.target? = node.entry.target?) : s.Spares (s.modifyNode n f) := by
  have same {α : Type} {g : Debug.Entry → Option α} (hg : ∀ node, g (f node).entry = g node.entry)
      (m : NodeId) :
      ((s.modifyNode n f).nodes.entry? m).bind g = (s.nodes.entry? m).bind g := by
    rw [Debug.NodeTable.entry?, Store.modifyNode, Debug.NodeTable.node?_modify,
      Debug.NodeTable.entry?]
    split
    · rcases s.nodes.node? m with _ | node
      · rfl
      · exact hg node
    · rfl
  exact
    { size_le := Nat.le_of_eq Debug.NodeTable.size_modify.symm
      template? := same fun node => (hf node).1
      target? := fun {m _} htarget => (same (fun node => (hf node).2) m).trans htarget
      unkeyed := ⟨[], by simp [Store.modifyNode]⟩ }

lemma mapComposite {f : Debug.Composite → Debug.Composite}
    (hf : ∀ c, (f c).template = c.template) :
    s.Spares (s.modifyNode n fun node => { node with entry := node.entry.mapComposite f }) := by
  refine modifyNode fun node => ?_
  obtain ⟨e, _, _, _⟩ := node
  cases e <;> first | exact ⟨hf _, rfl⟩ | exact ⟨rfl, rfl⟩

lemma mapTemplate {f : Debug.Template → Debug.Template} (hf : ∀ t, (f t).target = t.target) :
    s.Spares (s.modifyNode n fun node => { node with entry := node.entry.mapTemplate f }) := by
  refine modifyNode fun node => ?_
  obtain ⟨e, _, _, _⟩ := node
  cases e <;> first | exact ⟨rfl, congrArg some (hf _)⟩ | exact ⟨rfl, rfl⟩

lemma pushMember : s.Spares (s.pushMember n m) :=
  mapComposite fun _ => rfl

lemma setSize {size : UInt32} : s.Spares (s.setSize n size) :=
  mapComposite fun _ => rfl

lemma setResultType : s.Spares (s.setResultType n a) :=
  modifyNode fun _ => ⟨rfl, rfl⟩

lemma setInstructionSet : s.Spares (s.setInstructionSet n b) :=
  modifyNode fun _ => ⟨rfl, rfl⟩

lemma withDebugType : s.Spares (s.withDebugType n m) :=
  modifyNode fun _ => ⟨rfl, rfl⟩

lemma stamp : s.Spares (s.stamp n b) := by
  have void : s.Spares (s.internType .void).2 := .of_nodes rfl rfl
  exact (void.trans setResultType).trans setInstructionSet

end Spares

end Store

/-! ### Lowering spares the templates -/

namespace Lowering

open Store

variable {s t : Store} {a : TypeId} {n : NodeId} {b : BuilderId}

lemma spares_literalConstant (value : Option Literal) :
    s.Spares (literalConstant s value).2 := by
  unfold literalConstant
  split <;> exact .of_nodes rfl rfl

lemma spares_addMember {composite type : NodeId} {extent : Extent} {decl : Decl.Field}
    {field : Field} : s.Spares (addMember b s composite extent decl field type).2 := by
  have hopen : s.Spares (openMember s decl) := (spares_literalConstant decl.value).trans .openFile
  rw [addMember_snd]
  exact ((hopen.trans (.unkeyedNode rfl)).trans .stamp).trans .pushMember

section Pieces

variable {R : TypeId → Store → NodeId → Store → Prop} (hR : ∀ u s n t, R u s n t → s.Spares t)
include hR

lemma Chain.spares {as : List TypeId} {ns : List NodeId} (h : Chain R as s ns t) : s.Spares t := by
  induction h with
  | nil => exact .refl _
  | cons head _ ih => exact (hR _ _ _ _ head).trans ih

lemma Filling.spares {slots : List Slot} {extent extent' : Extent}
    (h : Filling R b n slots extent s extent' t) : s.Spares t := by
  induction h with
  | nil => exact .refl _
  | method _ _ ih => exact Spares.pushMember.trans ih
  | data head _ ih => exact ((hR _ _ _ _ head).trans spares_addMember).trans ih

lemma Composing.spares {struct : Struct} {record : Decl.Record}
    (h : Composing R b a struct record s n t) : s.Spares t := by
  have opened {tag : Debug.CompositeTag} : s.Spares (openComposite s a struct record tag).2 :=
    Spares.openFile.trans (.keyedNode rfl)
  cases h with
  | found => exact opened
  | filled _ _ _ _ slots =>
    exact (opened.trans (slots.spares hR)).trans .setSize

end Pieces

end Lowering

namespace Store

variable {s t u : Store} {a : TypeId} {n m p target : NodeId} {b : BuilderId}
  {op : Operation} {reply : Reply} {c : Debug.Composite}

lemma spares_lower (h : lower b a s = .ok (n, t)) : s.Spares t := by
  refine lower_induction (P := fun _ s _ t => s.Spares t) (fun a s n t _ step => ?_) h
  have parts : ∀ u s n t, Lowering.Lowered b (fun _ s _ t => s.Spares t) a u s n t → s.Spares t :=
    fun _ _ _ _ hu => hu.kept
  cases step with
  | listed => exact .refl s
  | pointer _ _ pointee => exact pointee.kept
  | basic =>
    have word : s.Spares (s.internType (.integer 32 false)).2 := .of_nodes rfl rfl
    exact (word.trans (.keyedNode rfl)).trans .stamp
  | @built _ _ _ _ e _ _ chain he =>
    have bare : e.template? = none := by cases he <;> rfl
    exact ((chain.spares parts).trans (.keyedNode bare)).trans .stamp
  | composite _ _ _ composing => exact (composing.spares parts).trans .stamp
  | placeholder => exact (Spares.keyedNode rfl).trans .stamp

lemma spares_lowerComposite {struct : Struct} {record : Decl.Record}
    (h : lowerComposite b a struct record s = .ok (n, t)) : s.Spares t :=
  (Lowering.composing_of_compositeWith h).spares fun _ _ _ _ hu => spares_lower hu

lemma spares_of_walk {instructions : List NodeId} (h : Lowering.Walk b instructions s t) :
    s.Spares t := by
  induction h with
  | nil => exact .refl _
  | untyped _ _ ih => exact Spares.stamp.trans ih
  | typed _ lowered _ ih =>
    exact ((Spares.stamp.trans (spares_lower lowered)).trans .withDebugType).trans ih

lemma spares_of_fills (h : s.Fills op t) : s.Spares t := by
  cases h with
  | pushMember => exact .pushMember
  | setSize => exact .setSize
  | pushParam => exact .mapTemplate fun _ => rfl
  | setResultType => exact .setResultType
  | setInstructionSet => exact .setInstructionSet
  | setDebugType => exact .withDebugType

/-- Only a request for a template attaches one. -/
theorem spares_of_run (h : s.run op = .ok (reply, t)) (hop : ∀ a target, op ≠ .template a target) :
    s.Spares t := by
  cases effect_of_run h with
  | idle => exact .of_nodes rfl rfl
  | types => exact .of_nodes rfl rfl
  | add adds => cases adds <;> exact .addNode rfl
  | keyed lists => cases lists <;> exact .keyedNode rfl
  | unkeyed lists => cases lists <;> exact .unkeyedNode rfl
  | fill fills => exact spares_of_fills fills
  | opened => exact .openFile
  | pushScope => exact Spares.openFile.trans (.of_nodes rfl rfl)
  | popScope popped =>
    obtain ⟨file, scope, -, rfl⟩ := popScope_eq_ok popped
    exact Spares.openFile.trans (.of_nodes rfl rfl)
  | saveFunction => exact .of_nodes rfl rfl
  | recordDebugType => exact .of_nodes rfl rfl
  | template => exact absurd rfl (hop _ _)
  | lower _ lowered => exact spares_lower lowered
  | lowerComposite _ lowered => exact spares_lowerComposite lowered
  | lowerModule _ walk => exact spares_of_walk walk

/-! ### Requests for templates -/

lemma template_of_debugType?_eq_none (ha : s.debugType? a = none) :
    s.template a target = .error (.unregisteredType (s.types.name a)) := by
  simp [template, ha]

lemma template_of_composite?_eq_none (ha : s.debugType? a = some n)
    (hn : s.nodes.composite? n = none) :
    s.template a target = .error (.notAComposite (s.types.name a)) := by
  simp [template, ha, hn]

lemma template_of_template? (ha : s.debugType? a = some n) (hp : s.template? n = some p) :
    s.template a target = .ok (p, s) := by
  obtain ⟨c, hc, hp⟩ := template?_eq_some.1 hp
  simp [template, ha, hc, hp]

lemma template_of_new (ha : s.debugType? a = some n) (hc : s.nodes.composite? n = some c)
    (new : c.template = none) : s.template a target = .ok (⟨s.nodes.size⟩,
      (s.unkeyedNode (.template { target })).2.withTemplate n ⟨s.nodes.size⟩) := by
  simp only [template, ha, hc, new]
  rfl

lemma composite?_withTemplate (hc : s.nodes.composite? n = some c) :
    (s.withTemplate n p).nodes.composite? n = some { c with template := some p } := by
  rw [Debug.NodeTable.composite?_eq_some] at hc ⊢
  obtain ⟨node, hnode, hentry⟩ := Option.map_eq_some_iff.1 hc
  rw [withTemplate, modifyNode, Debug.NodeTable.entry?, Debug.NodeTable.node?_modify_self, hnode,
    Option.map_some, Option.map_some, hentry]
  rfl

/-- A composite without a template gets a new one. -/
lemma attaches_of_new (hc : s.nodes.composite? n = some c) (new : c.template = none) :
    s.Attaches n target ⟨s.nodes.size⟩
      ((s.unkeyedNode (.template { target })).2.withTemplate n ⟨s.nodes.size⟩) := by
  have he := Debug.NodeTable.composite?_eq_some.1 hc
  have hn : (⟨s.nodes.size⟩ : NodeId) ≠ n := by
    rintro rfl
    exact Nat.lt_irrefl _ (Debug.NodeTable.entry?_lt he)
  have hpushed : (s.addNode (.template { target })).2.nodes.composite? n = some c :=
    Debug.NodeTable.composite?_eq_some.2 (Debug.NodeTable.entry?_mono (List.prefix_append _ _) he)
  refine ⟨rfl, ?_, ?_, fun hc' => ?_, fun m hm hm' => ?_, rfl, ?_⟩
  · exact Debug.NodeTable.size_modify.trans Debug.NodeTable.size_push
  · rw [withTemplate, entry?_modifyNode_of_ne hn]
    exact Debug.NodeTable.entry?_of_node? Debug.NodeTable.node?_push_size
  · obtain rfl : c = _ := Option.some.inj (hc.symm.trans hc')
    exact composite?_withTemplate (s := (s.unkeyedNode (.template { target })).2) hpushed
  · exact (Debug.NodeTable.node?_modify_of_ne hm).trans (Debug.NodeTable.node?_push_of_ne hm')
  · refine ⟨(s.addNode (.template { target })).2.withTemplate n ⟨s.nodes.size⟩, ?_, rfl⟩
    obtain ⟨heading, size, members, attached⟩ := c
    obtain rfl : attached = none := new
    rw [attach?, hpushed]

namespace Attaches

lemma template?_self (h : s.Attaches n target p t) (hc : s.nodes.composite? n = some c) :
    t.template? n = some p :=
  template?_eq_some.2 ⟨_, h.composite hc, rfl⟩

/-- Only one composite has another template than before. -/
lemma template?_of_ne (h : s.Attaches n target p t) (hm : m ≠ n) :
    t.template? m = s.template? m := by
  by_cases hp : m = p
  · obtain rfl := h.fresh
    subst hp
    have hold : s.nodes.node? ⟨s.nodes.size⟩ = none := List.getElem?_eq_none (Nat.le_refl _)
    rw [template?, h.entry, template?, Debug.NodeTable.entry?, hold]
    rfl
  · rw [template?, Debug.NodeTable.entry?, h.others m hm hp]
    rfl

lemma target?_self (h : s.Attaches n target p t) : t.target? p = some target := by
  rw [target?, h.entry]
  rfl

lemma target?_mono (h : s.Attaches n target p t) (hc : s.nodes.composite? n = some c)
    {q d : NodeId} (hq : s.target? q = some d) : t.target? q = some d := by
  obtain ⟨e, he, hd⟩ := Option.bind_eq_some_iff.1 hq
  have hn : q ≠ n := by
    rintro rfl
    rw [Debug.NodeTable.composite?_eq_some, he, Option.some.injEq] at hc
    subst hc
    cases hd
  have hp : q ≠ p := by
    obtain rfl := h.fresh
    rintro rfl
    exact Nat.lt_irrefl _ (Debug.NodeTable.entry?_lt he)
  rwa [target?, Debug.NodeTable.entry?, h.others q hn hp]

end Attaches

/-- An operation spares the templates, or it attaches one to a composite that has none. -/
theorem spares_or_attaches_of_run (h : s.run op = .ok (reply, t)) :
    s.Spares t ∨ ∃ n c target p, s.nodes.composite? n = some c ∧ c.template = none ∧
      s.Attaches n target p t := by
  by_cases hop : ∃ a target, op = .template a target
  · obtain ⟨a, target, rfl⟩ := hop
    obtain ⟨-, -, h⟩ := run_eq_ok h
    rcases perform_template_cases h with ⟨-, -, rfl⟩ | ⟨p, -, h⟩
    · exact Or.inl (.refl t)
    rcases ha : s.debugType? a with _ | n
    · cases (template_of_debugType?_eq_none ha).symm.trans h
    rcases hc : s.nodes.composite? n with _ | c
    · cases (template_of_composite?_eq_none ha hc).symm.trans h
    rcases hp : c.template with _ | q
    · cases (template_of_new ha hc hp).symm.trans h
      exact Or.inr ⟨n, c, target, _, hc, hp, attaches_of_new hc hp⟩
    · cases (template_of_template? ha (template?_eq_some.2 ⟨c, hc, hp⟩)).symm.trans h
      exact Or.inl (.refl s)
  · exact Or.inl (spares_of_run h fun a target heq => hop ⟨a, target, heq⟩)

/-- A template stays attached, and stays what it is a template of. -/
lemma templates_of_run (h : s.run op = .ok (reply, t)) :
    (∀ n p, s.template? n = some p → t.template? n = some p) ∧
      ∀ p target, s.target? p = some target → t.target? p = some target := by
  rcases spares_or_attaches_of_run h with spares | ⟨n, c, target, p, hc, new, attaches⟩
  · exact ⟨fun n p hp => (spares.template? n).trans hp, fun p target => spares.target?⟩
  · refine ⟨fun m q hq => ?_, fun q d => attaches.target?_mono hc⟩
    have hm : m ≠ n := by
      rintro rfl
      obtain ⟨c', hc', hq⟩ := template?_eq_some.1 hq
      rw [hc, Option.some.injEq] at hc'
      subst hc'
      cases new.symm.trans hq
    exact (attaches.template?_of_ne hm).trans hq

lemma templates_of_runAll {ops : List Operation} {replies : List Reply}
    (h : s.runAll ops = .ok (replies, t)) :
    (∀ n p, s.template? n = some p → t.template? n = some p) ∧
      ∀ p target, s.target? p = some target → t.target? p = some target := by
  induction ops generalizing s replies with
  | nil =>
    cases h
    exact ⟨fun _ _ => id, fun _ _ => id⟩
  | cons op ops ih =>
    obtain ⟨reply, r, replies', hop, hops, -⟩ := runAll_cons_eq_ok h
    have first := templates_of_run hop
    have rest := ih hops
    exact ⟨fun n p hp => rest.1 n p (first.1 n p hp),
      fun p target htarget => rest.2 p target (first.2 p target htarget)⟩

/-! ### Attached templates in reachable stores -/

namespace Templated

lemma of_spares (hs : s.Templated) (sound : s.Sound) (h : s.Spares t) : t.Templated := by
  obtain ⟨more, hmore, hnodup, hnew⟩ := h.unkeyed
  refine ⟨?_, fun {n p} hp => ?_, fun {n p} hp => ?_, fun {n m p} hn hm => ?_⟩
  · rw [hmore]
    refine List.nodup_append.2 ⟨hs.nodup, hnodup, ?_⟩
    rintro p hp q hq rfl
    have := sound.listed p (List.mem_append_right _ hp)
    have := hnew p hq
    omega
  · rw [h.template?] at hp
    rw [hmore]
    exact List.mem_append_left _ (hs.listed hp)
  · rw [h.template?] at hp
    obtain ⟨target, htarget⟩ := Option.isSome_iff_exists.1 (hs.isTemplate hp)
    exact Option.isSome_of_eq_some (h.target? htarget)
  · rw [h.template?] at hn hm
    exact hs.unshared hn hm

/-- The template that is attached is new, so no composite has it already. -/
lemma of_attaches (hs : s.Templated) (sound : s.Sound) (hc : s.nodes.composite? n = some c)
    (h : s.Attaches n target p t) : t.Templated := by
  have unlisted : p ∉ s.unkeyed := by
    intro hp
    have := sound.listed p (List.mem_append_right _ hp)
    obtain rfl := h.fresh
    exact Nat.lt_irrefl _ this
  have cases_of {m q : NodeId} (hq : t.template? m = some q) :
      s.template? m = some q ∨ m = n ∧ q = p := by
    by_cases hm : m = n
    · subst hm
      exact Or.inr ⟨rfl, Option.some.inj (hq.symm.trans (h.template?_self hc))⟩
    · exact Or.inl ((h.template?_of_ne hm).symm.trans hq)
  refine ⟨?_, fun {m q} hq => ?_, fun {m q} hq => ?_, fun {m l q} hm hl => ?_⟩
  · rw [h.unkeyed]
    refine List.nodup_append.2 ⟨hs.nodup, by simp, ?_⟩
    rintro q hq r hr rfl
    exact unlisted (List.mem_singleton.1 hr ▸ hq)
  · rw [h.unkeyed]
    rcases cases_of hq with hq | ⟨-, rfl⟩
    · exact List.mem_append_left _ (hs.listed hq)
    · exact List.mem_append_right _ List.mem_cons_self
  · rcases cases_of hq with hq | ⟨-, rfl⟩
    · obtain ⟨d, hd⟩ := Option.isSome_iff_exists.1 (hs.isTemplate hq)
      exact Option.isSome_of_eq_some (h.target?_mono hc hd)
    · exact Option.isSome_of_eq_some h.target?_self
  · rcases cases_of hm with hm | ⟨rfl, rfl⟩
    · rcases cases_of hl with hl | ⟨rfl, rfl⟩
      · exact hs.unshared hm hl
      · exact absurd (hs.listed hm) unlisted
    · rcases cases_of hl with hl | ⟨rfl, -⟩
      · exact absurd (hs.listed hl) unlisted
      · rfl

lemma of_run (hs : s.Templated) (sound : s.Sound) (h : s.run op = .ok (reply, t)) :
    t.Templated := by
  rcases spares_or_attaches_of_run h with spares | ⟨n, c, target, p, hc, -, attaches⟩
  · exact hs.of_spares sound spares
  · exact hs.of_attaches sound hc attaches

end Templated

lemma templated_new (options : Options) : (Store.new options).Templated where
  nodup := List.nodup_nil
  listed := fun h => by cases h
  isTemplate := fun h => by cases h
  unshared := fun h => by cases h

theorem Reachable.templated (hs : s.Reachable) : s.Templated :=
  hs.run_induction (fun sound hrun hs => hs.of_run sound hrun) templated_new

lemma run_template (ha : a.index < s.types.size) (htarget : target.index < s.nodes.size) :
    s.run (.template a target) = s.perform (.template a target) := by
  rw [run, if_pos]
  simpa [knows, Operation.types, Operation.subjects, Operation.nodes, Operation.targets,
    Operation.entry?, Operation.constant?] using ⟨ha, htarget⟩

lemma run_template_of_ok (ha : a.index < s.types.size) (htarget : target.index < s.nodes.size)
    (h : s.template a target = .ok (p, t)) : s.run (.template a target) = .ok (.node p, t) := by
  rw [run_template ha htarget, perform, h]

lemma run_template_of_error {reason : Refusal} (ha : a.index < s.types.size)
    (htarget : target.index < s.nodes.size) (h : s.template a target = .error reason) :
    s.run (.template a target) = .ok (.refused reason, s) := by
  rw [run_template ha htarget, perform, h]

/-- A request for the template of a type is turned down if the type has no debug type, or has one
that is no composite, and then nothing changes.  Otherwise the first request for a composite
attaches a new template of the given target, which is listed apart, to a composite without one; and
every later one, under whatever type the composite is listed then and whatever its target, gives
that template and changes nothing.  The templates of composites are listed apart, each once, and no
two composites share one. -/
theorem Reachable.template_attached_once (hs : s.Reachable) (ha : a.index < s.types.size)
    (htarget : target.index < s.nodes.size) :
    (∃ reply t, s.run (.template a target) = .ok (reply, t) ∧
      (reply = .refused (.unregisteredType (s.types.name a)) ↔ s.debugType? a = none) ∧
      (reply = .refused (.notAComposite (s.types.name a)) ↔
        ∃ n, s.debugType? a = some n ∧ s.nodes.composite? n = none) ∧
      (∀ reason, reply = .refused reason → t = s) ∧
      ∀ n c, s.debugType? a = some n → s.nodes.composite? n = some c → ∃ p, reply = .node p ∧
        (c.template = some p ∧ t = s ∨ c.template = none ∧ s.Attaches n target p t) ∧
        ∀ ops replies u, t.runAll ops = .ok (replies, u) →
          (c.template = none → u.target? p = some target) ∧
          ∀ v d, u.debugType? v = some n → v.index < u.types.size → d.index < u.nodes.size →
            u.run (.template v d) = .ok (.node p, u)) ∧
    ∀ n p, s.template? n = some p → s.unkeyed.count p = 1 ∧ (s.target? p).isSome = true ∧
      ∀ m, s.template? m = some p → m = n := by
  have templated := hs.templated
  have later {t : Store} {n p : NodeId} (hp : t.template? n = some p) {ops : List Operation}
      {replies : List Reply} {u : Store} (h : t.runAll ops = .ok (replies, u)) (v : TypeId)
      (d : NodeId) (hv : u.debugType? v = some n) (hlt : v.index < u.types.size)
      (hd : d.index < u.nodes.size) : u.run (.template v d) = .ok (.node p, u) :=
    run_template_of_ok hlt hd (template_of_template? hv ((templates_of_runAll h).1 n p hp))
  refine ⟨?_, fun n p hp => ⟨?_, templated.isTemplate hp, fun m hm => templated.unshared hm hp⟩⟩
  · rcases hlisted : s.debugType? a with _ | n
    · refine ⟨_, s, run_template_of_error ha htarget (template_of_debugType?_eq_none hlisted), ?_⟩
      simp
    rcases hc : s.nodes.composite? n with _ | c
    · refine ⟨_, s, run_template_of_error ha htarget (template_of_composite?_eq_none hlisted hc),
        by simp, by simp [hc], fun _ _ => rfl, fun m c hm hc' => ?_⟩
      obtain rfl := Option.some.inj hm
      cases hc.symm.trans hc'
    rcases hp : c.template with _ | p
    · have attaches : s.Attaches n target _ _ := attaches_of_new hc hp
      refine ⟨_, _, run_template_of_ok ha htarget (template_of_new hlisted hc hp), by simp,
        by simp [hc], by simp, fun m c' hm hc' => ?_⟩
      obtain rfl := Option.some.inj hm
      obtain rfl := Option.some.inj (hc.symm.trans hc')
      refine ⟨_, rfl, Or.inr ⟨hp, attaches⟩, fun ops replies u hops => ⟨fun _ => ?_, ?_⟩⟩
      · exact (templates_of_runAll hops).2 _ _ attaches.target?_self
      · exact later (attaches.template?_self hc) hops
    · have hattached := template?_eq_some.2 ⟨c, hc, hp⟩
      refine ⟨_, s, run_template_of_ok ha htarget (template_of_template? hlisted hattached),
        by simp, by simp [hc], by simp, fun m c' hm hc' => ?_⟩
      obtain rfl := Option.some.inj hm
      obtain rfl := Option.some.inj (hc.symm.trans hc')
      refine ⟨p, rfl, Or.inl ⟨hp, rfl⟩, fun ops replies u hops =>
        ⟨fun hnone => ?_, later hattached hops⟩⟩
      cases hp.symm.trans hnone
  · exact List.count_eq_one_of_mem templated.nodup (templated.listed hp)

/-- A composite that is listed under the first of two types. -/
def aliasSession : List Operation :=
  [.openFile "a.hlsl", .type (.integer 32 false), .type (.integer 32 true),
    .composite ⟨0⟩
      { name := "Box", site := ⟨⟨0⟩, 1, 8⟩, parent := ⟨1⟩, linkageName := "Box", flags := .isPublic
        tag := .structureTag } 0]

/-- Once the composite is listed under the other type too, a request under that type for a template
of another target gives the template that there is. -/
theorem template_attached_once_of_alias : ∃ s t u : Store, s.Reachable ∧
    (⟨0⟩ : TypeId).index < s.types.size ∧ (⟨1⟩ : NodeId).index < s.nodes.size ∧
    s.run (.template ⟨0⟩ ⟨1⟩) = .ok (.node ⟨3⟩, t) ∧ s.Attaches ⟨2⟩ ⟨1⟩ ⟨3⟩ t ∧
    t.runAll [.recordDebugType ⟨1⟩ ⟨2⟩] = .ok ([.done], u) ∧
    u.run (.template ⟨1⟩ ⟨0⟩) = .ok (.node ⟨3⟩, u) ∧ u.target? ⟨3⟩ = some ⟨1⟩ := by
  obtain ⟨replies, s, hsession, ⟨htypes, hnodes⟩, hlisted, hbare, hruns⟩ :=
    exists_of_runAll {} aliasSession (fun s => (0 < s.types.size ∧ 1 < s.nodes.size) ∧
      s.debugType? ⟨0⟩ = some ⟨2⟩ ∧ (s.nodes.composite? ⟨2⟩).any (·.template.isNone) = true ∧
      ((s.run (.template ⟨0⟩ ⟨1⟩)).toOption.any fun r => r.1 = .node ⟨3⟩ &&
        (r.2.runAll [.recordDebugType ⟨1⟩ ⟨2⟩]).toOption.any fun r' => r'.1 = [.done] &&
          r'.2.debugType? ⟨1⟩ = some ⟨2⟩ && decide (1 < r'.2.types.size) &&
          decide (0 < r'.2.nodes.size)) = true) (by decide +kernel)
  have reachable : s.Reachable := ⟨{}, aliasSession, replies, hsession⟩
  obtain ⟨c, hc, hbare⟩ := (Option.any_eq_true _ _).1 hbare
  obtain ⟨⟨_, t⟩, hrun, hchecked⟩ := (Option.any_eq_true _ _).1 hruns
  simp only [Bool.and_eq_true, decide_eq_true_eq] at hchecked
  obtain ⟨rfl, hlater⟩ := hchecked
  obtain ⟨⟨_, u⟩, hops, hchecked⟩ := (Option.any_eq_true _ _).1 hlater
  simp only [Bool.and_eq_true, decide_eq_true_eq] at hchecked
  obtain ⟨⟨⟨rfl, hu⟩, htypes'⟩, hnodes'⟩ := hchecked
  have hok := eq_ok_of_toOption hrun
  have hops := eq_ok_of_toOption hops
  obtain ⟨⟨reply, t', hrun', -, -, -, hnode⟩, -⟩ :=
    reachable.template_attached_once (a := ⟨0⟩) htypes hnodes
  cases hok.symm.trans hrun'
  obtain ⟨p, hp, hfirst, hlater⟩ := hnode ⟨2⟩ c hlisted hc
  cases hp
  rcases hfirst with ⟨hp, -⟩ | ⟨hnone, attaches⟩
  · simp [hp] at hbare
  · obtain ⟨htarget, hagain⟩ := hlater _ _ _ hops
    exact ⟨s, t, u, reachable, htypes, hnodes, hok, attaches, hops,
      hagain ⟨1⟩ ⟨0⟩ hu htypes' hnodes', htarget hnone⟩

end Store

end ShaderTypes
