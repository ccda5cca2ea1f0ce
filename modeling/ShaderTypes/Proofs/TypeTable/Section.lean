import Mathlib.Data.List.Nodup
import ShaderTypes.Proofs.Store.Requests

/-!
# The type section

A module writes its types in the order of the list of canonical types.  That list therefore has no
unresolved type in it, it has every type that was asked for by a resolved shape, and once only, and
whatever such a type is built from stands before it.  What was written once keeps its place: the
list only grows at its end.
-/

namespace ShaderTypes

/-- Whether the operation asks for a type by an unresolved shape. -/
def Operation.asksHybrid : Operation → Bool
  | .type x => x.isHybrid
  | _ => false

/-- The shape that an operation asks for is unresolved exactly when the operation says so. -/
lemma Operation.Asks.isHybrid_eq {op : Operation} {t : TypeTable} {x : Shape} (h : op.Asks t x) :
    x.isHybrid = op.asksHybrid := by
  cases h <;> rfl

namespace TypeTable

variable {t u : TypeTable} {a v : TypeId} {x : Shape}

lemma mem_canonical : a ∈ t.canonical ↔ a.index < t.size ∧ t.isHybrid a = false := by
  rw [canonical, List.mem_filter, mem_ids, Bool.not_eq_true']

lemma isHybrid_eq (hx : t.shape? a = some x) : t.isHybrid a = x.isHybrid := by
  rw [isHybrid, hx, Option.any_some]

/-- The canonical types are listed in the order of the table. -/
lemma pairwise_canonical (t : TypeTable) : t.canonical.Pairwise fun a b => a.index < b.index :=
  .filter _ (List.pairwise_map.2 List.pairwise_lt_range)

lemma nodup_canonical (t : TypeTable) : t.canonical.Nodup := by
  refine t.pairwise_canonical.imp ?_
  rintro a b hlt rfl
  exact Nat.lt_irrefl _ hlt

/-- A longer table lists the same canonical types first. -/
lemma canonical_isPrefix (h : t.shapes <+: u.shapes) : t.canonical <+: u.canonical := by
  obtain ⟨more, hmore⟩ := h
  have hids : t.ids <+: u.ids := by
    have hsize : u.size = t.size + more.length := by rw [size, ← hmore, List.length_append, size]
    rw [ids, ids, hsize, List.range_add, List.map_append]
    exact List.prefix_append _ _
  have hsame : t.canonical = t.ids.filter fun a => !u.isHybrid a := by
    refine List.filter_congr fun a ha => ?_
    obtain ⟨x, hx⟩ := exists_shape? (mem_ids.1 ha)
    rw [isHybrid_eq hx, isHybrid_eq (shape?_mono ⟨more, hmore⟩ hx)]
  rw [hsame]
  exact hids.filter _

/-- What a canonical type is built from stands before it in the list, unless it is unresolved. -/
lemma WellFormed.exists_operand_before {i : Nat} (wf : t.WellFormed)
    (hi : t.canonical[i]? = some a) (hv : v ∈ t.operands a) (hybrid : t.isHybrid v = false) :
    ∃ j < i, t.canonical[j]? = some v := by
  obtain ⟨ha, -⟩ := mem_canonical.1 (List.mem_of_getElem? hi)
  obtain ⟨x, hx⟩ := exists_shape? ha
  have hlt : v.index < a.index := by
    rw [operands, hx] at hv
    exact wf a x hx v hv
  obtain ⟨j, hj⟩ := List.mem_iff_getElem?.1 (mem_canonical.2 ⟨Nat.lt_trans hlt ha, hybrid⟩)
  refine ⟨j, ?_, hj⟩
  -- At any other place the list would not be in the order of the table.
  obtain ⟨hib, rfl⟩ := List.getElem?_eq_some_iff.1 hi
  obtain ⟨hjb, rfl⟩ := List.getElem?_eq_some_iff.1 hj
  rcases Nat.lt_trichotomy j i with h | rfl | h
  · exact h
  · exact absurd hlt (Nat.lt_irrefl _)
  · exact absurd (List.pairwise_iff_getElem.1 t.pairwise_canonical i j hib hjb h) (by omega)

end TypeTable

namespace Store

variable {s t : Store} {op : Operation} {a : TypeId} {ops : List Operation} {replies : List Reply}

/-- A type that an operation gives is unresolved exactly when it was asked for as such. -/
lemma isHybrid_of_run (hs : s.Sound) (h : s.run op = .ok (.type a, t)) :
    a.index < t.types.size ∧ t.types.isHybrid a = op.asksHybrid := by
  obtain ⟨r, x, hgrows, hintern, known, hasks⟩ := exists_intern_of_run hs h
  rw [← Operation.Asks.isHybrid_eq ((hasks t.types .refl x).2 rfl)]
  refine ⟨(TypeTable.grows_of_intern hintern known).2, ?_⟩
  rcases hybrid : x.isHybrid with _ | _
  · obtain ⟨y, hy, key⟩ :=
      (hgrows.interned hs.types).exists_sameKey_of_intern hintern known hybrid .refl
    rw [TypeTable.isHybrid_eq hy, key.isHybrid_right]
  · rw [TypeTable.isHybrid_eq (TypeTable.shape?_of_intern_isHybrid hintern hybrid .refl).2, hybrid]

/-- The state of a session in which an operation was answered, and those before and after it. -/
lemma exists_run_of_runAll {k : Nat} {reply : Reply} (h : s.runAll ops = .ok (replies, t))
    (hop : ops[k]? = some op) (hreply : replies[k]? = some reply) :
    ∃ r r', Edits s r ∧ r.run op = .ok (reply, r') ∧ Edits r' t := by
  induction ops generalizing s replies k with
  | nil => simp at hop
  | cons first ops ih =>
    obtain ⟨reply', r, replies', hfirst, hops, rfl⟩ := runAll_cons_eq_ok h
    rcases k with _ | k
    · obtain rfl : first = op := by simpa using hop
      obtain rfl : reply' = reply := by simpa using hreply
      exact ⟨s, r, .refl, hfirst, runAll_edits hops⟩
    · obtain ⟨q, q', hbefore, hrun, hafter⟩ := ih hops (by simpa using hop) (by simpa using hreply)
      exact ⟨q, q', (run_edits hfirst).trans hbefore, hrun, hafter⟩

/-- The list of canonical types after a session has no unresolved type in it, it has each type that
the session was given for a resolved shape once, whatever a type of the list is built from stands
before it unless it is unresolved, and every operation only adds to the end of the list. -/
theorem canonical_of_runAll {options : Options}
    (h : (Store.new options).runAll ops = .ok (replies, s)) :
    (∀ a ∈ s.types.canonical, s.types.isHybrid a = false) ∧
    (∀ (k : Nat) op a, ops[k]? = some op → replies[k]? = some (.type a) →
      s.types.canonical.count a = if op.asksHybrid then 0 else 1) ∧
    (∀ (i : Nat) a, s.types.canonical[i]? = some a → ∀ v ∈ s.types.operands a,
      s.types.isHybrid v = false → ∃ j < i, s.types.canonical[j]? = some v) ∧
    ∀ op reply t, s.run op = .ok (reply, t) → s.types.canonical <+: t.types.canonical := by
  have reachable : s.Reachable := ⟨options, ops, replies, h⟩
  refine ⟨fun a ha => (TypeTable.mem_canonical.1 ha).2, ?_, ?_, ?_⟩
  · intro k op a hop hreply
    obtain ⟨r, r', hbefore, hrun, hafter⟩ := exists_run_of_runAll h hop hreply
    obtain ⟨hlt, hybrid⟩ := isHybrid_of_run (hbefore.sound (sound_new options)) hrun
    have hkept : s.types.isHybrid a = op.asksHybrid := by
      rw [← hybrid]
      exact TypeTable.has_eq_of_lt hafter.grows.shapes_le hlt
    have hlt' : a.index < s.types.size := Nat.lt_of_lt_of_le hlt hafter.grows.shapes_le.length_le
    rcases hasks : op.asksHybrid with _ | _
    · refine List.count_eq_one_of_mem (TypeTable.nodup_canonical _) ?_
      exact TypeTable.mem_canonical.2 ⟨hlt', hkept.trans hasks⟩
    · refine List.count_eq_zero.2 fun ha => ?_
      cases (TypeTable.mem_canonical.1 ha).2.symm.trans (hkept.trans hasks)
  · intro i a hi v hv hybrid
    exact reachable.sound.types.wellFormed.exists_operand_before hi hv hybrid
  · intro op reply t hrun
    exact TypeTable.canonical_isPrefix (run_edits hrun).grows.shapes_le

/-- A matrix of integers, an array of unresolved pointers, and a struct of both that is described. -/
def sectionSession : List Operation :=
  [.type (.integer 32 true), .type (.vector ⟨0⟩ 4), .type (.matrix ⟨1⟩ 4),
    .type (.hybridPointer (.named "Texture2D") .functionLocal), .type (.array ⟨3⟩ 2 none),
    .byteAddressBuffer true,
    .type (.struct { fields := [{ type := ⟨2⟩ }, { type := ⟨4⟩ }], name := "S" }), .lower ⟨0⟩ ⟨2⟩]

/-- The unresolved pointer is left out of the list, and the matrix stands after its column in it. -/
theorem canonical_of_runAll_sectionSession : ∃ replies s,
    (Store.new {}).runAll sectionSession = .ok (replies, s) ∧
      s.types.canonical = [⟨0⟩, ⟨1⟩, ⟨2⟩, ⟨4⟩, ⟨5⟩, ⟨6⟩, ⟨7⟩, ⟨8⟩, ⟨9⟩] ∧
      s.types.canonical.count ⟨3⟩ = 0 ∧ s.types.canonical.count ⟨2⟩ = 1 ∧
      ∃ j < 2, s.types.canonical[j]? = some ⟨1⟩ := by
  obtain ⟨⟨replies, s⟩, hsession, hfound⟩ := (Option.any_eq_true _ _).1 (show
    (((Store.new {}).runAll sectionSession).toOption.any fun r => decide
      (r.2.types.canonical = [⟨0⟩, ⟨1⟩, ⟨2⟩, ⟨4⟩, ⟨5⟩, ⟨6⟩, ⟨7⟩, ⟨8⟩, ⟨9⟩] ∧
        r.1[2]? = some (.type ⟨2⟩) ∧ r.1[3]? = some (.type ⟨3⟩) ∧
        r.2.types.operands ⟨2⟩ = [⟨1⟩] ∧ r.2.types.isHybrid ⟨1⟩ = false)) = true by
    decide +kernel)
  obtain ⟨hids, hmatrix, hpointer, hoperands, hcolumn⟩ := of_decide_eq_true hfound
  have run := eq_ok_of_toOption hsession
  obtain ⟨-, given, before, -⟩ := canonical_of_runAll run
  refine ⟨replies, s, run, hids, given 3 _ _ rfl hpointer, given 2 _ _ rfl hmatrix, ?_⟩
  exact before 2 ⟨2⟩ (by rw [hids]; rfl) ⟨1⟩ (by rw [hoperands]; exact List.mem_cons_self) hcolumn

end Store

end ShaderTypes
