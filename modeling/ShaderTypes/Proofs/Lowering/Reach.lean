import ShaderTypes.Proofs.Lowering.Pairing
import ShaderTypes.Proofs.TypeTable.Identity

/-!
# The types that a type is described along with

`TypeTable.parts` lists what lowering goes on to from a type, up to the place where a record and its
struct stop fitting together.  `TypeTable.Entails` says the same in terms of the type alone, for all
pairs of data fields and struct fields; the two agree where record and struct fit together.

`TypeTable.Reaches` follows this from type to type.  It only ever goes to older types, so it says the
same in every longer table.
-/

namespace ShaderTypes

/-- Whether the struct that a shape is fits together with its record, where that is no
enumeration. -/
def Shape.Fits (x : Shape) : Prop :=
  ∀ struct record, x = .struct struct → struct.record = some record →
    record.isEnum = false → (Lowering.pair record struct).fault = none

namespace TypeTable

/-- A type that describing a type of the given shape goes on to: what a pointer points to, the
elements of a vector or an array, what a function takes and returns, and for a struct with a record
that is no enumeration the types of the fields at the places where data fields occur first. -/
inductive Entails (t : TypeTable) : Shape → TypeId → Prop
  | pointee {u : TypeId} {c : Storage} : Entails t (.pointer u c) u
  | component {u : TypeId} {count : UInt32} : Entails t (.vector u count) u
  | element {u : TypeId} {count : UInt32} {stride : Option UInt32} :
      Entails t (.array u count stride) u
  | result {signature : Signature} (void : t.has signature.result Shape.isVoid = false) :
      Entails t (.function signature) signature.result
  | param {signature : Signature} {u : TypeId} (h : u ∈ signature.params) :
      Entails t (.function signature) u
  | field {struct : Struct} {record : Decl.Record} {i : Nat} {decl : Decl.Field} {field : Field}
      (made : struct.record = some record) (enum : record.isEnum = false)
      (first : Decl.OccursFirst record.dataFields i decl) (hfield : struct.fields[i]? = some field) :
      Entails t (.struct struct) field.type

/-- The types that describing a type comes to. -/
inductive Reaches (t : TypeTable) : TypeId → TypeId → Prop
  | refl {a : TypeId} : Reaches t a a
  | step {a u v : TypeId} {x : Shape} (hx : t.shape? a = some x) (entails : t.Entails x u)
      (tail : Reaches t u v) : Reaches t a v

variable {t t' : TypeTable} {a u v : TypeId} {x : Shape}

/-! ### Parts -/

/-- The types that are described along with a type are among its operands. -/
lemma mem_operands_of_mem_parts (h : u ∈ t.parts x) : u ∈ x.operands := by
  cases x with
  | pointer | vector | array => exact h
  | function signature =>
    rw [parts] at h
    split at h
    · exact List.mem_cons_of_mem _ h
    · exact h
  | struct struct =>
    rw [parts] at h
    split at h
    · split at h
      · cases h
      · obtain ⟨slot, hslot, htype⟩ := List.mem_filterMap.1 h
        cases slot with
        | method => cases htype
        | data decl field =>
          cases htype
          exact Shape.mem_operands_of_mem_pair hslot
    · cases h
  | _ => cases h

lemma parts_of_basic? (h : x.basic?.isSome = true) : t.parts x = [] := by
  cases x <;> first | rfl | simp [Shape.basic?] at h

lemma parts_struct {struct : Struct} {record : Decl.Record} (hr : struct.record = some record)
    (described : (Shape.struct struct).isDescribed = true) :
    t.parts (.struct struct) =
      (Lowering.pair record struct).slots.filterMap Lowering.Slot.type? := by
  have henum : record.isEnum = false := by simpa [Shape.isDescribed, hr] using described
  simp [parts, hr, henum]

/-- The parts are the same in a longer table. -/
lemma parts_eq (h : t.shapes <+: t'.shapes) (hx : ∀ u ∈ x.operands, u.index < t.size) :
    t'.parts x = t.parts x := by
  cases x with
  | function signature =>
    have hvoid : t'.has signature.result Shape.isVoid = t.has signature.result Shape.isVoid :=
      has_eq_of_lt h (hx _ List.mem_cons_self)
    rw [parts, parts, hvoid]
  | _ => rfl

/-! ### Parts and what a shape entails -/

lemma Entails.mem_operands (h : t.Entails x u) : u ∈ x.operands := by
  cases h with
  | pointee => exact List.mem_cons_self
  | component => exact List.mem_cons_self
  | element => exact List.mem_cons_self
  | result => exact List.mem_cons_self
  | param h => exact List.mem_cons_of_mem _ h
  | field _ _ _ hfield => exact List.mem_map.2 ⟨_, List.mem_of_getElem? hfield, rfl⟩

/-- What lowering goes on to is entailed. -/
lemma entails_of_mem_parts (h : u ∈ t.parts x) : t.Entails x u := by
  cases x with
  | pointer =>
    obtain rfl := List.mem_singleton.1 h
    exact .pointee
  | vector =>
    obtain rfl := List.mem_singleton.1 h
    exact .component
  | array =>
    obtain rfl := List.mem_singleton.1 h
    exact .element
  | function signature =>
    rw [parts] at h
    split at h
    · exact .param h
    · rename_i hvoid
      rcases List.mem_cons.1 h with rfl | h
      · exact .result (by simpa using hvoid)
      · exact .param h
  | struct struct =>
    rcases made : struct.record with _ | record
    · simp [parts, made] at h
    rcases enum : record.isEnum with _ | _
    · simp only [parts, made, enum, Bool.false_eq_true, ↓reduceIte] at h
      obtain ⟨slot, hslot, htype⟩ := List.mem_filterMap.1 h
      cases slot with
      | method => cases htype
      | data decl field =>
        cases htype
        obtain ⟨-, i, first, hfield⟩ := Lowering.occursFirst_of_data hslot
        exact .field made enum first hfield
    · simp [parts, made, enum] at h
  | _ => cases h

/-- What is entailed is what lowering goes on to, where record and struct fit together. -/
lemma mem_parts_of_entails (fits : x.Fits) (h : t.Entails x u) : u ∈ t.parts x := by
  cases h with
  | pointee => exact List.mem_cons_self
  | component => exact List.mem_cons_self
  | element => exact List.mem_cons_self
  | result void =>
    rw [parts, if_neg (by simp [void])]
    exact List.mem_cons_self
  | param h =>
    rw [parts]
    split
    · exact h
    · exact List.mem_cons_of_mem _ h
  | @field struct record i decl field made enum first hfield =>
    have hslot : .data decl field ∈ (Lowering.pair record struct).slots :=
      Lowering.data_mem_of_fault (fits _ _ rfl made enum) (by simp) first hfield
    rw [parts_struct made (by simp [Shape.isDescribed, made, enum])]
    exact List.mem_filterMap.2 ⟨_, hslot, rfl⟩

/-- What a shape over known types entails is the same in a longer table. -/
lemma entails_iff (h : t.shapes <+: t'.shapes) (hx : ∀ u ∈ x.operands, u.index < t.size) :
    t'.Entails x u ↔ t.Entails x u := by
  have hvoid {signature : Signature} (hsignature : x = .function signature) :
      t'.has signature.result Shape.isVoid = t.has signature.result Shape.isVoid := by
    subst hsignature
    exact has_eq_of_lt h (hx _ List.mem_cons_self)
  constructor
  · rintro (_ | _ | _ | void | hparam | ⟨made, enum, first, hfield⟩)
    · exact .pointee
    · exact .component
    · exact .element
    · exact .result ((hvoid rfl).symm.trans void)
    · exact .param hparam
    · exact .field made enum first hfield
  · rintro (_ | _ | _ | void | hparam | ⟨made, enum, first, hfield⟩)
    · exact .pointee
    · exact .component
    · exact .element
    · exact .result ((hvoid rfl).trans void)
    · exact .param hparam
    · exact .field made enum first hfield

/-! ### Reaching -/

lemma Reaches.trans (h : t.Reaches a u) (h' : t.Reaches u v) : t.Reaches a v := by
  induction h with
  | refl => exact h'
  | step hx entails _ ih => exact .step hx entails (ih h')

lemma reaches_of_entails (hx : t.shape? a = some x) (entails : t.Entails x u) : t.Reaches a u :=
  .step hx entails .refl

/-- Known types reach known ones, and the same ones in every longer table. -/
lemma WellFormed.reaches_iff (wf : t.WellFormed) (h : t.shapes <+: t'.shapes)
    (known : a.index < t.size) : t'.Reaches a v ↔ t.Reaches a v := by
  obtain ⟨x, hx⟩ := exists_shape? known
  induction a using TypeId.strongInduction generalizing x with
  | _ a ih =>
  have operands := fun u hu => wf.operand_lt hx (v := u) hu
  have next {u : TypeId} (entails : t.Entails x u) : t'.Reaches u v ↔ t.Reaches u v := by
    have hu := entails.mem_operands
    exact ih u (wf a x hx u hu) (operands u hu) _ (List.getElem?_eq_getElem (operands u hu))
  constructor
  · rintro (_ | ⟨hy, entails, tail⟩)
    · exact .refl
    · obtain rfl := Option.some.inj (hy.symm.trans (shape?_mono h hx))
      have entails := (entails_iff h operands).1 entails
      exact .step hx entails ((next entails).1 tail)
  · rintro (_ | ⟨hy, entails, tail⟩)
    · exact .refl
    · obtain rfl := Option.some.inj (hy.symm.trans hx)
      exact .step (shape?_mono h hx) ((entails_iff h operands).2 entails) ((next entails).2 tail)

lemma WellFormed.lt_of_reaches (wf : t.WellFormed) (known : a.index < t.size)
    (h : t.Reaches a v) : v.index < t.size := by
  induction h with
  | refl => exact known
  | step hx entails _ ih => exact ih (wf.operand_lt hx entails.mem_operands)

end TypeTable

end ShaderTypes
