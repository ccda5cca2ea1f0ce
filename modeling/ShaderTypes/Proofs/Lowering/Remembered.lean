import ShaderTypes.Proofs.Lowering.Depicted
import ShaderTypes.Proofs.Lowering.Failure
import ShaderTypes.Proofs.Store.FirstRequest
import ShaderTypes.Proofs.Store.Keeping

/-!
# The record that a struct remembers

Declarations take no part in the keys of structs.  A request with a record may therefore give a
struct that was asked for before, and the struct of the table is then the earlier one, with the
record of the earlier request or with none.  What lowering makes of the type follows from that: a
composite if a record is remembered that is no enumeration, and otherwise the placeholder.

For the latter it has to be known what is listed already.  `Store.Classified` says it as far as
structs go, and is kept whatever the caller does to composites.
-/

namespace ShaderTypes.Store

/-- What is listed under the type of a struct is a composite, and under no type there is the
placeholder. -/
structure Classified (s : Store) : Prop where
  composite : ∀ {a : TypeId} {n : NodeId} {struct : Struct}, s.debugType? a = some n →
    s.types.shape? a = some (.struct struct) → ∃ c, s.nodes.entry? n = some (.composite c)
  placeholder : ∀ {n : NodeId}, s.debugTypes.get? none = some n →
    s.nodes.entry? n = some placeholderEntry

variable {s t : Store} {a : TypeId} {n : NodeId} {b : BuilderId} {op : Operation} {reply : Reply}
  {struct : Struct} {fixed closed : Prop}

/-! ### What is listed for structs -/

/-- A composite that is listed stays one. -/
lemma Classified.composite_of_keeps (hs : s.Classified) (regular : s.Regular)
    (after : s.Keeps fixed closed t) (shapes : s.types.shapes <+: t.types.shapes)
    (ha : s.debugType? a = some n) (hx : t.types.shape? a = some (.struct struct)) :
    ∃ c, t.nodes.entry? n = some (.composite c) := by
  obtain ⟨x, hx', -⟩ := regular.described ha
  rw [TypeTable.shape?_eq_of_lt shapes (TypeTable.shape?_lt hx')] at hx
  obtain ⟨c, hc⟩ := hs.composite ha hx
  obtain ⟨e, he, retains⟩ := after n _ hc
  cases retains with
  | same => exact ⟨c, he⟩
  | composite => exact ⟨_, he⟩

/-- Where the registry is left, it stays classified. -/
lemma Classified.of_keeps (hs : s.Classified) (regular : s.Regular) (after : s.Keeps fixed closed t)
    (shapes : s.types.shapes <+: t.types.shapes) (debugTypes : t.debugTypes = s.debugTypes) :
    t.Classified where
  composite := by
    intro a n struct ha hx
    rw [debugType?, debugTypes] at ha
    exact hs.composite_of_keeps regular after shapes ha hx
  placeholder := after.entry?_placeholder debugTypes hs.placeholder

/-- What a lowering lists is classified, since it is depicted. -/
lemma Classified.lower (hs : s.Classified) (regular : s.Regular)
    (h : ShaderTypes.lower b a s = .ok (n, t)) : t.Classified := by
  have after := extends_lower h
  have keeps : s.Keeps True True t := keeps_of_extends after
  have depicted := listsDepicted_lower h regular
  refine ⟨fun {v m struct} hv hx => ?_, fun hm =>
    depicted.entry?_placeholder after hs.placeholder hm⟩
  rcases hold : s.debugType? v with _ | m'
  · obtain ⟨x, e, hx', he, hd⟩ := depicted.typed hv hold
    obtain rfl := Option.some.inj (hx'.symm.trans hx)
    cases hd with
    | basic basic => cases basic
    | built _ builds => cases builds
    | composite => exact ⟨_, he⟩
  · obtain rfl : m' = m := Option.some.inj ((after.get?_debugTypes hold).symm.trans hv)
    exact hs.composite_of_keeps regular keeps after.types.shapes_le hold hx

lemma LeftToLowering.classified (h : s.LeftToLowering) : s.Classified := by
  refine h.reachedBy.induction (P := Classified) id (fun options => ?_)
    (fun regular _ h hs => hs.of_keeps regular h.keeps h.grows.shapes_le h.debugTypes)
    (fun regular h hs => ?_) (fun regular _ h hs => hs.lower regular h)
  · exact ⟨fun ha => (by cases ha), fun hn => (by cases hn)⟩
  · have keeps : Keeps True True _ _ := keeps_of_extends h.after
    exact hs.of_keeps regular keeps h.after.types.shapes_le h.debugTypes

/-! ### The debug type of a struct -/

/-- The debug type of a struct is a composite if the struct is described, and else the
placeholder. -/
lemma LeftToLowering.entry?_of_lower_struct (hs : s.LeftToLowering)
    (hx : s.types.shape? a = some (.struct struct)) (h : ShaderTypes.lower b a s = .ok (n, t)) :
    if (Shape.struct struct).isDescribed then ∃ c, t.nodes.entry? n = some (.composite c)
    else t.nodes.entry? n = some placeholderEntry := by
  have classified := hs.classified.lower hs.regular h
  have hx' := TypeTable.shape?_mono (lower_changes h).grows.shapes_le hx
  have resolved := hs.regular.resolve?_of_lower h
  rw [resolve?_of_shape? hx' rfl] at resolved
  split
  · next described =>
    rw [if_pos described] at resolved
    exact classified.composite resolved hx'
  · next described =>
    rw [if_neg described] at resolved
    exact classified.placeholder resolved

/-- The struct that a request gives is the one that was asked for by the first request of the
session with an equal key, this one included: it remembers the record that the first request was
made with, or none.  If the debug types are left to lowering, the type is lowered to a composite if
the record that is remembered is no enumeration and lowering comes to no struct with a fault.  If it
remembers an enumeration or no record, it is lowered to the placeholder. -/
theorem record_of_runAll {options : Options} {ops : List Operation} {replies : List Reply}
    (h : (Store.new options).runAll ops = .ok (replies, s))
    (hrun : s.run (.type (.struct struct)) = .ok (reply, t)) :
    ∃ a first, reply = .type a ∧ t.types.shape? a = some (.struct first) ∧
      t.types.FirstRequest (.struct struct) (ops ++ [.type (.struct struct)]) (.struct first) ∧
      ((∀ op ∈ ops, op.leavesDebugTypes = true) → ∀ b,
        (first.record.any (!·.isEnum) = true →
          (∀ u x fault, t.types.Reaches a u → t.types.shape? u = some x → ¬ t.Faulty x fault) →
          ∃ n r c, ShaderTypes.lower b a t = .ok (n, r) ∧
            r.nodes.entry? n = some (.composite c)) ∧
        (first.record.any (!·.isEnum) = false →
          ∃ n r, ShaderTypes.lower b a t = .ok (n, r) ∧
            r.nodes.entry? n = some placeholderEntry)) := by
  have hs : s.Sound := Reachable.sound ⟨options, ops, replies, h⟩
  have ht : t.types.Interned := ((run_edits hrun).sound hs).types
  have hall : (Store.new options).runAll (ops ++ [.type (.struct struct)]) =
      .ok (replies ++ [reply], t) := by
    rw [runAll_append, h]
    simp [runAll, hrun, bind, Except.bind, pure, Except.pure]
  have asks : (Operation.type (.struct struct)).Asks t.types (.struct struct) := .type (by simp)
  obtain ⟨a, y, hreply, -, hy, same⟩ := exists_sameKey_of_asks hs hrun .refl asks rfl
  obtain ⟨first, rfl⟩ : ∃ first, y = .struct first := by
    cases same
    exact ⟨_, rfl⟩
  have requested := firstRequest_of_runAll (sound_new options) hall hy (Nat.zero_le _)
  refine ⟨a, first, hreply, hy, requested.congr ht.wellFormed (same.symm ht.wellFormed), ?_⟩
  intro leaves b
  have left : t.LeftToLowering := by
    refine ⟨options, _, _, fun op hop => ?_, hall⟩
    rcases List.mem_append.1 hop with hop | hop
    · exact leaves op hop
    · obtain rfl := List.mem_singleton.1 hop
      rfl
  constructor
  · intro described faultless
    rcases hlower : ShaderTypes.lower b a t with fault | ⟨n, r⟩
    · obtain ⟨u, x, hreaches, hx, hfaulty⟩ :=
        exists_faulty_of_lower ht (TypeTable.shape?_lt hy) hlower
      exact absurd hfaulty (faultless u x fault hreaches hx)
    · have entry := left.entry?_of_lower_struct hy hlower
      rw [if_pos (show (Shape.struct first).isDescribed = true from described)] at entry
      obtain ⟨c, hc⟩ := entry
      exact ⟨n, r, c, rfl, hc⟩
  · intro undescribed
    have unlisted : t.debugType? a = none := by
      rw [Option.eq_none_iff_forall_ne_some]
      intro n hn
      obtain ⟨x, hx, described⟩ := left.regular.described hn
      obtain rfl := Option.some.inj (hx.symm.trans hy)
      cases undescribed.symm.trans described
    have hlower := lower_of_undescribed (b := b) unlisted hy undescribed rfl
    have entry := left.entry?_of_lower_struct hy hlower
    rw [if_neg (show ¬ (Shape.struct first).isDescribed = true from
      Bool.eq_false_iff.1 undescribed)] at entry
    exact ⟨_, _, hlower, entry⟩

/-- A struct with one field. -/
def plainStruct : Struct where
  name := "S"
  fields := [{ type := ⟨0⟩, name := some "x" }]

/-- A record with one data field. -/
def plainRecord : Decl.Record where
  id := ⟨0⟩
  name := "S"
  keyword := .structKeyword
  location := ⟨"a.hlsl", 1, 1⟩
  members := [.field { id := ⟨0⟩, name := "x", location := ⟨"a.hlsl", 2, 3⟩ }]

/-- The same struct, made from the record. -/
def recordStruct : Struct :=
  { plainStruct with record := some plainRecord }

/-- Asked for by itself, the struct remembers its record and is lowered to a composite. -/
theorem record_of_runAll_first : ∃ (replies : List Reply) (s t : Store),
    (Store.new {}).runAll [.type (.integer 32 true)] = .ok (replies, s) ∧
    s.run (.type (.struct recordStruct)) = .ok (.type ⟨1⟩, t) ∧
    t.types.shape? ⟨1⟩ = some (.struct recordStruct) ∧
    ∃ n r c, ShaderTypes.lower ⟨0⟩ ⟨1⟩ t = .ok (n, r) ∧ r.nodes.entry? n = some (.composite c) := by
  obtain ⟨replies, s, session, hrun⟩ := exists_of_runAll {} [.type (.integer 32 true)]
    (fun s => ((s.run (.type (.struct recordStruct))).toOption.any fun q =>
      q.1 = .type ⟨1⟩ && q.2.types.shape? ⟨1⟩ = some (.struct recordStruct) &&
        (ShaderTypes.lower ⟨0⟩ ⟨1⟩ q.2).toOption.isSome) = true)
    (by decide +kernel)
  obtain ⟨⟨reply, t⟩, hreply, hchecked⟩ := (Option.any_eq_true _ _).1 hrun
  simp only [Bool.and_eq_true, decide_eq_true_eq] at hchecked
  obtain ⟨⟨rfl, hx⟩, hlowers⟩ := hchecked
  have request := eq_ok_of_toOption hreply
  obtain ⟨a, first, ha, hfirst, -, hlower⟩ := record_of_runAll session request
  cases ha
  obtain rfl : recordStruct = first := by simpa [hx] using hfirst
  have left : s.LeftToLowering := ⟨{}, _, replies, by decide, session⟩
  have left' : t.LeftToLowering := left.run rfl request
  obtain ⟨⟨n, r⟩, hok⟩ := Option.isSome_iff_exists.1 hlowers
  refine ⟨replies, s, t, session, request, hx, (hlower (by decide) ⟨0⟩).1 rfl ?_⟩
  exact fun u x fault hreaches hu => faultless_of_lower left'.regular left'.saturated
    (TypeTable.shape?_lt hx) (eq_ok_of_toOption hok) hreaches hu

/-- When it is asked for after the plain struct, the plain struct is given.  The record is
forgotten, and the type is lowered to the placeholder. -/
theorem exists_forgotten_record : ∃ (replies : List Reply) (s t r : Store) (n : NodeId),
    (Store.new {}).runAll [.type (.integer 32 true), .type (.struct plainStruct)] =
      .ok (replies, s) ∧
    s.run (.type (.struct recordStruct)) = .ok (.type ⟨1⟩, t) ∧
    recordStruct.record = some plainRecord ∧ plainRecord.isEnum = false ∧
    (∀ fault, ¬ t.Faulty (.struct recordStruct) fault) ∧
    t.types.shape? ⟨1⟩ = some (.struct plainStruct) ∧ plainStruct.record = none ∧
    ShaderTypes.lower ⟨0⟩ ⟨1⟩ t = .ok (n, r) ∧ r.nodes.entry? n = some placeholderEntry := by
  obtain ⟨replies, s, session, hrun⟩ := exists_of_runAll {}
    [.type (.integer 32 true), .type (.struct plainStruct)]
    (fun s => ((s.run (.type (.struct recordStruct))).toOption.any fun q =>
      q.1 = .type ⟨1⟩ && q.2.types.shape? ⟨1⟩ = some (.struct plainStruct) &&
        (ShaderTypes.lower ⟨0⟩ ⟨1⟩ q.2).toOption.any fun l =>
          l.2.nodes.entry? l.1 = some placeholderEntry) = true)
    (by decide +kernel)
  obtain ⟨⟨reply, t⟩, hreply, hchecked⟩ := (Option.any_eq_true _ _).1 hrun
  simp only [Bool.and_eq_true, decide_eq_true_eq] at hchecked
  obtain ⟨⟨rfl, hx⟩, hlowered⟩ := hchecked
  obtain ⟨⟨n, r⟩, hlower, hentry⟩ := (Option.any_eq_true _ _).1 hlowered
  refine ⟨replies, s, t, r, n, session, eq_ok_of_toOption hreply, rfl, rfl, ?_, hx, rfl,
    eq_ok_of_toOption hlower, of_decide_eq_true hentry⟩
  refine fun fault => faultless_of_pair rfl (by decide) fun m hm => ?_
  cases List.mem_singleton.1 (show Lowering.Slot.method m ∈ [Lowering.Slot.data _ _] from hm)

end ShaderTypes.Store
