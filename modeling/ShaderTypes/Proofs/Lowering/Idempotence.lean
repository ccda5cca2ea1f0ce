import ShaderTypes.Proofs.Lowering.Depicted
import ShaderTypes.Proofs.Store.Keeping
import ShaderTypes.Proofs.TypeTable.Keys

/-!
# Lowering again

Lowering a type and then lowering it again at once, for the same builder, is the same as lowering it
once: the second lowering gives the node of the first and leaves the whole store as it is.  The same
is true of describing a struct and its record on request.

Most of this is that the type is listed by then.  Three cases are not covered by that.  A pointer is
followed again; the placeholder is stamped again; and a composite that got no members is filled
again, with none, and given its size again.  A composite with members is never filled again, and
only a record of nothing but nested records leaves a composite without members.
-/

namespace ShaderTypes

namespace TypeTable

variable {t : TypeTable} {x y : Shape}

/-- What answers a request for a type without operands does not depend on the table. -/
lemma answers_of_operandless {u : TypeTable} (operandless : x.operands = []) :
    t.answers x y = u.answers x y := by
  rw [answers, answers]
  congr 1
  exact Shape.agrees_congr (by simp [operandless])

/-- A type without operands that was interned is found from then on. -/
lemma intern_intern (operandless : x.operands = []) (hybrid : x.isHybrid = false) :
    (t.intern x).2.intern x = t.intern x := by
  rcases hfind : t.find? x with _ | a
  · have himage : t.shapes.findIdx? (t.answers x) = none := Option.map_eq_none_iff.1 hfind
    have hanswers : (t.push x).answers x = t.answers x :=
      funext fun y => answers_of_operandless operandless
    have hself : t.answers x x = true := answers_iff_sameKey.2 (.refl hybrid)
    have hpush : (t.push x).find? x = some ⟨t.size⟩ := by
      rw [find?, hanswers, push, List.findIdx?_append, himage]
      simp [hself, size]
    have hintern : t.intern x = (⟨t.size⟩, t.push x) := by rw [intern, hfind]
    rw [hintern, intern, hpush]
  · have hintern : t.intern x = (a, t) := by rw [intern, hfind]
    rw [hintern, hintern]

end TypeTable

/-- A change that makes no difference to what it gave is made once. -/
lemma Debug.NodeTable.modify_modify {t : Debug.NodeTable} {n : NodeId}
    {f : Debug.Node → Debug.Node} (hf : ∀ node, f (f node) = f node) :
    (t.modify n f).modify n f = t.modify n f := by
  have hcomp : f ∘ f = f := funext hf
  rw [modify, modify, List.modify_modify_eq, hcomp]

namespace Store

variable {s : Store} {n : NodeId} {b : BuilderId}

lemma setSize_setSize {size : UInt32} : (s.setSize n size).setSize n size = s.setSize n size := by
  rw [setSize, setSize, modifyNode, modifyNode]
  refine congrArg (fun nodes => { s with nodes }) (Debug.NodeTable.modify_modify fun node => ?_)
  rcases node with ⟨e, _, _, _⟩
  cases e <;> rfl

/-- A stamp as one change of the node. -/
lemma stamp_eq : s.stamp n b = { s with
    types := (s.types.intern .void).2
    nodes := s.nodes.modify n fun node =>
      { node with resultType := some (s.types.intern .void).1, instructionSet := some b } } := by
  rw [← nodes_stamp]
  rfl

/-- A node is stamped once for a builder. -/
lemma stamp_stamp : (s.stamp n b).stamp n b = s.stamp n b := by
  have void := TypeTable.intern_intern (t := s.types) (x := .void) rfl rfl
  rw [stamp_eq, stamp_eq]
  simp only [void]
  congr 1
  exact Debug.NodeTable.modify_modify fun _ => rfl

end Store

/-! ### Composites -/

namespace Lowering

open Store

variable {b : BuilderId} {s t : Store} {a : TypeId} {n : NodeId} {struct : Struct}
  {record : Decl.Record} {tag : Debug.CompositeTag} {c : Debug.Composite}
  {operand : TypeId → Lower NodeId}

/-- A composite that is filled gets a member for each slot. -/
lemma Filling.length_members {R : TypeId → Store → NodeId → Store → Prop}
    (hR : ∀ u s n t, R u s n t → s.Keeps False False t) {slots : List Slot}
    {extent extent' : Extent} (h : Filling R b n slots extent s extent' t)
    (hc : s.nodes.entry? n = some (.composite c)) :
    ∃ c', t.nodes.entry? n = some (.composite c') ∧
      c.members.length + slots.length ≤ c'.members.length := by
  induction h generalizing c with
  | nil => exact ⟨c, hc, Nat.le_refl _⟩
  | method _ _ ih =>
    obtain ⟨c', hc', hle⟩ := ih (entry?_pushMember_self hc)
    refine ⟨c', hc', ?_⟩
    simp only [List.length_append, List.length_cons, List.length_nil] at hle ⊢
    omega
  | @data _ _ _ _ _ _ _ s' _ head _ ih =>
    obtain ⟨e, he, retains⟩ := hR _ _ _ _ head n _ hc
    obtain ⟨c₁, rfl, hle₁⟩ : ∃ c₁, e = .composite c₁ ∧ c.members.length ≤ c₁.members.length := by
      cases retains with
      | same => exact ⟨c, rfl, Nat.le_refl _⟩
      | composite _ _ more => exact ⟨_, rfl, more.length_le⟩
    obtain ⟨c', hc', hle⟩ := ih (entry?_addMember_self he)
    refine ⟨c', hc', ?_⟩
    simp only [List.length_append, List.length_cons, List.length_nil] at hle ⊢
    omega

/-- Where the file is known and a composite is listed, only its members may be made. -/
lemma compositeWith_of_known {file : Debug.File} (htag : compositeTag record = .ok tag)
    (hfile : s.files.get? record.location.file = some file) (ha : s.debugType? a = some n)
    (hc : s.nodes.composite? n = some c) :
    compositeWith b operand a struct record s =
      if c.members.isEmpty then (populate b operand record struct n *> pure n : Lower NodeId) s
      else .ok (n, s) := by
  have lifted : (liftM (Except.ok tag : Except Fault _) : Lower _).run s = pure (tag, s) := rfl
  have opened : s.openFile record.location.file = (file, s) := openFile_of_get? hfile
  have listed {heading : Debug.Heading} : s.compositeType a heading 0 = (n, s) :=
    keyedNode_of_get? ha
  change (compositeWith b operand a struct record).run s = _
  simp only [compositeWith, htag, StateT.run_bind, StateT.run_get, StateT.run_modifyGet, lifted,
    pure_bind, opened, listed, hc]
  split <;> rfl

/-- A composite without slots is given the size of an empty layout. -/
lemma populate_of_empty (slots : (pair record struct).slots = [])
    (fault : (pair record struct).fault = none) :
    populate b operand record struct n s = .ok (PUnit.unit, s.setSize n 0) := by
  change (populate b operand record struct n).run s = _
  simp only [populate, slots, fault, List.foldlM_nil, pure_bind]
  rfl

/-- Describing a struct again at once changes nothing. -/
theorem compositeWith_again
    (hR : ∀ u s n t, operand u s = .ok (n, t) → Changes b (fun _ _ => True) 0 s t)
    (h : compositeWith b operand a struct record s = .ok (n, t)) :
    compositeWith b operand a struct record t = .ok (n, t) := by
  have opened {tag : Debug.CompositeTag} :
      (openComposite s a struct record tag).2.files.get? record.location.file =
        some (s.openFile record.location.file).1 := by
    rw [openComposite_eq, files_keyedNode]
    exact get?_files_openFile
  cases composing_of_compositeWith h with
  | found htag hc members =>
    rw [compositeWith_of_known htag opened debugType?_openComposite hc, if_neg (by simp [members])]
  | @filled tag c extent t htag hc members fault slots =>
    have changes : Changes b (fun _ _ => True) 0 (openComposite s a struct record tag).2 t :=
      slots.changes (fun u s n t hu _ => hR u s n t hu) (Nat.zero_le _) (Nat.zero_le _)
    have known : t.files.get? record.location.file = some (s.openFile record.location.file).1 :=
      files_of_changes changes opened
    have listed : t.debugType? a = some (openComposite s a struct record tag).1 :=
      (sustains_of_changes changes).keyed debugType?_openComposite
    obtain ⟨c', hc', hle⟩ := slots.length_members
      (fun u s n t hu => keeps_of_changes (hR u s n t hu)) (Debug.NodeTable.composite?_eq_some.1 hc)
    have sized : (t.setSize (openComposite s a struct record tag).1 extent.size).nodes.composite?
        (openComposite s a struct record tag).1 = some { c' with size := extent.size } :=
      Debug.NodeTable.composite?_eq_some.2 (entry?_setSize_self hc')
    rw [compositeWith_of_known (s := t.setSize _ _) htag known listed sized]
    cases hmembers : c'.members.isEmpty with
    | false => simp
    | true =>
      -- There was nothing to fill the composite with, neither then nor now.
      have none : (pair record struct).slots = [] := by
        have hnil : c'.members = [] := List.isEmpty_iff.1 hmembers
        rw [hnil, List.length_nil] at hle
        exact List.eq_nil_of_length_eq_zero (by omega)
      rw [none] at slots
      cases slots with
      | nil =>
        rw [if_pos rfl]
        change (populate b operand record struct _ >>= fun _ => pure _ : Lower NodeId) _ = _
        rw [Lower.bind_eq_ok]
        exact ⟨_, _, populate_of_empty none fault, by rw [setSize_setSize]; rfl⟩

end Lowering

/-- Lowering a type again at once, for the same builder, gives the same node and changes nothing. -/
theorem lower_again {b : BuilderId} {a : TypeId} {n : NodeId} {s t : Store}
    (h : lower b a s = .ok (n, t)) : lower b a t = .ok (n, t) := by
  refine lower_induction (P := fun a _ n t => lower b a t = .ok (n, t)) ?_ h
  intro a s n t h step
  have hext := Store.extends_lower h
  cases step with
  | listed ha => exact lower_of_debugType? ha
  | pointer ha hx pointee =>
    rw [lower_of_pointer (hext.debugType?_eq_none hx rfl ha) (hext.shape? hx) pointee.lt]
    exact pointee.kept
  | basic => exact lower_of_debugType? Store.get?_debugTypes_keyedNode
  | built => exact lower_of_debugType? Store.get?_debugTypes_keyedNode
  | @composite _ t _ _ _ _ _ _ composing =>
    have listed : t.debugType? a = some n := composing.debugType?
    exact lower_of_debugType? listed
  | placeholder ha hx described pointer =>
    have listed : ((Lowering.placeholder s).2.stamp (Lowering.placeholder s).1 b).debugTypes.get?
        none = some (Lowering.placeholder s).1 := Store.get?_debugTypes_keyedNode
    rw [lower_of_undescribed (hext.debugType?_eq_none hx described ha) (hext.shape? hx) described
      pointer, Lowering.placeholder, Store.keyedNode_of_get? listed, Store.stamp_stamp]

/-- Describing a struct and its record again at once gives the same node and changes nothing. -/
theorem lowerComposite_again {b : BuilderId} {a : TypeId} {struct : Struct} {record : Decl.Record}
    {n : NodeId} {s t : Store} (h : lowerComposite b a struct record s = .ok (n, t)) :
    lowerComposite b a struct record t = .ok (n, t) :=
  Lowering.compositeWith_again
    (fun _ _ _ _ hu => (lower_changes hu).mono (fun _ _ _ => trivial) (Nat.zero_le _)) h

/-- Whether the operation describes a type on request. -/
def Operation.describes : Operation → Bool
  | .lower .. | .lowerComposite .. => true
  | _ => false

namespace Store

variable {s t : Store} {op : Operation} {reply : Reply}

/-- Handles are known from then on. -/
lemma knows_mono (types : s.types.shapes <+: t.types.shapes) (size_le : s.nodes.size ≤ t.nodes.size)
    (constant : op.constant? = none) (h : s.knows op = true) : t.knows op = true := by
  have hle : s.types.size ≤ t.types.size := types.length_le
  simp only [knows, constant, Option.all_none, Bool.and_true, Bool.and_eq_true, List.all_eq_true,
    decide_eq_true_eq] at h ⊢
  exact ⟨fun a ha => Nat.lt_of_lt_of_le (h.1 a ha) hle,
    fun n hn => Nat.lt_of_lt_of_le (h.2 n hn) size_le⟩

/-- A request to describe a type, or a struct and its record, that is made again at once for the
same builder is answered as before and changes nothing, whatever the registry lists. -/
theorem run_again (describes : op.describes = true) (h : s.run op = .ok (reply, t)) :
    t.run op = .ok (reply, t) := by
  have shapes := (run_edits h).grows.shapes_le
  have known : s.knows op = true := by
    rw [run] at h
    split at h
    · assumption
    · cases h
  obtain ⟨-, -, h⟩ := run_eq_ok h
  cases op with
  | lower b a =>
    obtain ⟨n, rfl, hlower⟩ := perform_lower_eq_ok h
    have size_le := (lower_changes hlower).size_le
    rw [run, if_pos (knows_mono shapes size_le rfl known), perform, lower_again hlower]
    rfl
  | lowerComposite b a struct record =>
    obtain ⟨n, rfl, hlower⟩ := perform_lowerComposite_eq_ok h
    have size_le := (lowerComposite_changes hlower).size_le
    rw [run, if_pos (knows_mono shapes size_le rfl known), perform, lowerComposite_again hlower]
    rfl
  | _ => cases describes

/-- A record of nothing but a record inside it. -/
def hollowRecord : Decl.Record where
  id := ⟨0⟩
  name := "Hollow"
  keyword := .structKeyword
  location := ⟨"a.hlsl", 1, 1⟩
  members := [.record ⟨1⟩]

/-- Its struct. -/
def hollowStruct : Struct where
  name := "Hollow"
  fields := []
  record := some hollowRecord

/-- The placeholder was stamped for another builder, by way of a pointer, and the struct is not
described yet. -/
def hollowSession : List Operation :=
  [.type .sampler, .type (.pointer ⟨0⟩ .functionLocal), .type (.struct hollowStruct),
    .lower ⟨1⟩ ⟨1⟩]

/-- The first request stamps the placeholder again, and the second one makes a composite without
members; repeated, both change nothing. -/
theorem run_again_of_hollow : ∃ s t u : Store, s.Reachable ∧
    s.run (.lower ⟨0⟩ ⟨1⟩) = .ok (.node ⟨0⟩, t) ∧ t ≠ s ∧
    t.run (.lower ⟨0⟩ ⟨1⟩) = .ok (.node ⟨0⟩, t) ∧
    t.run (.lowerComposite ⟨0⟩ ⟨2⟩ hollowStruct hollowRecord) = .ok (.node ⟨3⟩, u) ∧ u ≠ t ∧
    (u.nodes.composite? ⟨3⟩).any (fun c => c.members.isEmpty && c.size == 0) = true ∧
    u.run (.lowerComposite ⟨0⟩ ⟨2⟩ hollowStruct hollowRecord) = .ok (.node ⟨3⟩, u) := by
  obtain ⟨replies, s, hsession, hruns⟩ := exists_of_runAll {} hollowSession
    (fun s => ((s.run (.lower ⟨0⟩ ⟨1⟩)).toOption.any fun r => r.1 = .node ⟨0⟩ && r.2 ≠ s &&
      (r.2.run (.lowerComposite ⟨0⟩ ⟨2⟩ hollowStruct hollowRecord)).toOption.any fun r' =>
        r'.1 = .node ⟨3⟩ && r'.2 ≠ r.2 &&
          (r'.2.nodes.composite? ⟨3⟩).any (fun c => c.members.isEmpty && c.size == 0)) = true)
    (by decide +kernel)
  obtain ⟨⟨_, t⟩, hfirst, hchecked⟩ := (Option.any_eq_true _ _).1 hruns
  simp only [Bool.and_eq_true, decide_eq_true_eq] at hchecked
  obtain ⟨⟨rfl, hne⟩, hlater⟩ := hchecked
  obtain ⟨⟨_, u⟩, hsecond, hchecked⟩ := (Option.any_eq_true _ _).1 hlater
  rw [Bool.and_eq_true, Bool.and_eq_true, decide_eq_true_eq, decide_eq_true_eq] at hchecked
  obtain ⟨⟨rfl, hne'⟩, hc⟩ := hchecked
  have hfirst := eq_ok_of_toOption hfirst
  have hsecond := eq_ok_of_toOption hsecond
  exact ⟨s, t, u, ⟨{}, hollowSession, replies, hsession⟩, hfirst, hne, run_again rfl hfirst,
    hsecond, hne', hc, run_again rfl hsecond⟩

end Store

end ShaderTypes
