import ShaderTypes.Proofs.Lowering.Layout

/-!
# Fields that nothing stands for

The data fields of a record take the fields of a struct one after the other.  A struct with too few
fields is turned down at the data field that finds none left.  A struct with too many is not: what
is left over behind the last data field is never looked at, and the composite is the one that the
fields before make by themselves.

This is a matter of the pairing alone, so it holds in every store and however the types of the
fields are lowered.
-/

namespace ShaderTypes

/-- A struct that is described under `a` gets its members: nothing is listed there yet, or else a
composite without members. -/
def Store.Unfilled (s : Store) (a : TypeId) : Prop :=
  ∀ n c, s.debugType? a = some n → s.nodes.composite? n = some c → c.members = []

lemma Store.unfilled_of_debugType? {s : Store} {a : TypeId} (h : s.debugType? a = none) :
    s.Unfilled a := by
  intro n c hn
  cases h.symm.trans hn

namespace Lowering

variable {s t : Store} {a : TypeId} {n : NodeId} {b : BuilderId} {operand : TypeId → Lower NodeId}
  {struct : Struct} {record : Decl.Record} {tag : Debug.CompositeTag} {c : Debug.Composite}

/-- A struct with more fields than its record pairs like the one without those left over. -/
lemma pair_surplus {more : List Field} (h : record.dataFields.length ≤ struct.fields.length) :
    pair record { struct with fields := struct.fields.take record.dataFields.length ++ more } =
      pair record struct := by
  have enough : record.dataFields.length ≤
      (struct.fields.take record.dataFields.length).length := (List.length_take_of_le h).ge
  calc pairFrom struct.name record.members
        (struct.fields.take record.dataFields.length ++ more) []
    _ = pairFrom struct.name record.members (struct.fields.take record.dataFields.length) [] :=
      pairFrom_append enough
    _ = pairFrom struct.name record.members (struct.fields.take record.dataFields.length ++
          struct.fields.drop record.dataFields.length) [] := (pairFrom_append enough).symm
    _ = pair record struct := by rw [List.take_append_drop, pair]

/-- Of the fields of a struct, what is described depends on their pairing with the record alone. -/
lemma compositeWith_congr {fields : List Field}
    (h : pair record { struct with fields } = pair record struct) :
    compositeWith b operand a { struct with fields } record =
      compositeWith b operand a struct record := by
  have populates : populate b operand record { struct with fields } =
      populate b operand record struct := by
    funext composite
    rw [populate, populate, h]
  rw [compositeWith, compositeWith, populates]
  rfl

/-- Opening a file makes no composite. -/
lemma composite?_of_openFile {name : String}
    (h : (s.openFile name).2.nodes.composite? n = some c) : s.nodes.composite? n = some c := by
  rcases hfile : s.files.get? name with _ | file
  · rw [Store.openFile_of_get?_eq_none hfile, Debug.NodeTable.composite?_eq_some] at h
    rcases Debug.NodeTable.entry?_push_cases h with h | ⟨-, h⟩
    · rcases Debug.NodeTable.entry?_push_cases h with h | ⟨-, h⟩
      · exact Debug.NodeTable.composite?_eq_some.2 h
      · cases h
    · cases h
  · rwa [Store.openFile_of_get? hfile] at h

/-- The composite of a struct has no members yet, unless it was listed with members before. -/
lemma members_openComposite (unfilled : s.Unfilled a)
    (hc : (openComposite s a struct record tag).2.nodes.composite?
      (openComposite s a struct record tag).1 = some c) : c.members = [] := by
  rcases ha : s.debugType? a with _ | m
  · exact List.isEmpty_iff.1 (isEmpty_members_openComposite ha hc)
  · have found : (s.openFile record.location.file).2.debugTypes.get? (some a) = some m := by
      rw [Store.debugTypes_openFile]
      exact ha
    rw [openComposite_eq, Store.keyedNode_of_get? found] at hc
    exact unfilled m c ha (composite?_of_openFile hc)

/-- If describing a struct by a record succeeds and gives it its members, each data field of the
record fits the field of the struct at its place.  There are no more data fields than fields, and as
many exactly if no field is left over.  Fields that are left over do not matter: whatever stands in
their place, the outcome is the same. -/
theorem fields_of_compositeWith (unfilled : s.Unfilled a)
    (h : compositeWith b operand a struct record s = .ok (n, t)) :
    record.dataFields.length ≤ struct.fields.length ∧
    List.Forall₂ (fun decl field => fits decl field = true) record.dataFields
      (struct.fields.take record.dataFields.length) ∧
    (record.dataFields.length = struct.fields.length ↔
      struct.fields.drop record.dataFields.length = []) ∧
    ∀ more, compositeWith b operand a
      { struct with fields := struct.fields.take record.dataFields.length ++ more } record s =
        .ok (n, t) := by
  cases composing_of_compositeWith h with
  | found _ hc members =>
    rw [members_openComposite unfilled hc] at members
    cases members
  | filled _ _ _ fault _ =>
    have enough : record.dataFields.length ≤ struct.fields.length :=
      Nat.le_of_not_lt fun more => fault_pair_eq_none_iff.1 fault _ (.missing more)
    refine ⟨enough, forall₂_fits_of_fault fault, ?_, fun more => ?_⟩
    · rw [List.drop_eq_nil_iff]
      exact ⟨fun same => same.ge, Nat.le_antisymm enough⟩
    · rw [compositeWith_congr (pair_surplus enough)]
      exact h

/-- The record with a method, a nested record and a repeated declaration has four data fields, and
its struct four fields. -/
theorem fields_of_compositeWith_wrapped : ∃ (s t : Store) (n : NodeId),
    s.LeftToLowering ∧ s.Unfilled ⟨1⟩ ∧
    lowerComposite ⟨0⟩ ⟨1⟩ Store.wrappedStruct Store.wrappedRecord s = .ok (n, t) ∧
    Store.wrappedRecord.dataFields.length = Store.wrappedStruct.fields.length := by
  obtain ⟨replies, s, hsession, hmissing, hlowers⟩ := Store.exists_of_runAll {} Store.wrappedSession
    (fun s => s.debugType? ⟨1⟩ = none ∧ (lowerComposite ⟨0⟩ ⟨1⟩ Store.wrappedStruct
      Store.wrappedRecord s).toOption.isSome = true)
    (by decide +kernel)
  obtain ⟨⟨n, t⟩, hlower⟩ := Option.isSome_iff_exists.1 hlowers
  have hok := Store.eq_ok_of_toOption hlower
  have unfilled : s.Unfilled ⟨1⟩ := Store.unfilled_of_debugType? hmissing
  obtain ⟨-, -, same, -⟩ := fields_of_compositeWith unfilled hok
  exact ⟨s, t, n, ⟨{}, Store.wrappedSession, replies, by decide, hsession⟩, unfilled, hok,
    same.2 rfl⟩

/-- A record with one data field. -/
def shortRecord : Decl.Record where
  id := ⟨0⟩
  name := "S"
  keyword := .structKeyword
  location := ⟨"a.hlsl", 1, 1⟩
  members := [.field { id := ⟨0⟩, name := "x", location := ⟨"a.hlsl", 2, 3⟩ }]

/-- A struct with two fields that was made from it. -/
def surplusStruct : Struct where
  name := "S"
  fields := [{ type := ⟨0⟩, name := some "x" }, { type := ⟨0⟩, name := some "y" }]
  record := some shortRecord

/-- The composite has one member and its size.  The second field has no part in it. -/
theorem exists_surplus_field : ∃ (replies : List Reply) (s t : Store) (n : NodeId)
    (c : Debug.Composite),
    (Store.new {}).runAll [.type (.integer 32 true), .type (.struct surplusStruct)] =
      .ok (replies, s) ∧
    s.Unfilled ⟨1⟩ ∧ shortRecord.isEnum = false ∧
    lowerComposite ⟨0⟩ ⟨1⟩ surplusStruct shortRecord s = .ok (n, t) ∧
    t.nodes.composite? n = some c ∧ c.members.length = 1 ∧ c.size = 32 ∧
    shortRecord.dataFields.length = 1 ∧ surplusStruct.fields.length = 2 := by
  obtain ⟨replies, s, hsession, hmissing, hlowers⟩ := Store.exists_of_runAll {}
    [.type (.integer 32 true), .type (.struct surplusStruct)]
    (fun s => s.debugType? ⟨1⟩ = none ∧
      ((lowerComposite ⟨0⟩ ⟨1⟩ surplusStruct shortRecord s).toOption.any fun r =>
        (r.2.nodes.composite? r.1).any fun c => c.members.length = 1 && c.size = 32) = true)
    (by decide +kernel)
  obtain ⟨⟨n, t⟩, hlower, hcomposite⟩ := (Option.any_eq_true _ _).1 hlowers
  obtain ⟨c, hc, hchecked⟩ := (Option.any_eq_true _ _).1 hcomposite
  simp only [Bool.and_eq_true, decide_eq_true_eq] at hchecked
  exact ⟨replies, s, t, n, c, hsession, Store.unfilled_of_debugType? hmissing, rfl,
    Store.eq_ok_of_toOption hlower, hc, hchecked.1, hchecked.2, rfl, rfl⟩

end Lowering

end ShaderTypes
