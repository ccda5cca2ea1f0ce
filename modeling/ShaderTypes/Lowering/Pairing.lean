import ShaderTypes.Fault
import ShaderTypes.Shape.Struct

/-!
# Pairing a record with its struct

The members of a record declaration and the fields of the struct made from it are walked side by
side.  Each data field of the record takes the next field of the struct, methods and nested records
take none.  A declaration that is met again takes its field and is otherwise passed over.

The pairing is worked out before anything is described: it is the list of members to describe, in
order, up to the point where record and struct stop fitting together, and the fault at that point.
-/

namespace ShaderTypes.Lowering

/-- A member of a composite to be described. -/
inductive Slot where
  /-- A method. -/
  | method (decl : Decl.Method)
  /-- A data field, with the struct field that it takes. -/
  | data (decl : Decl.Field) (field : Field)
deriving DecidableEq

/-- How the members of a record and the fields of a struct fit together. -/
structure Pairing where
  /-- The members to describe, in order. -/
  slots : List Slot
  /-- The fault behind the last of them, if record and struct do not fit. -/
  fault : Option Fault
deriving DecidableEq

/-- The pairing with one more member in front. -/
def Pairing.cons (slot : Slot) (p : Pairing) : Pairing :=
  { p with slots := slot :: p.slots }

/-- Whether a struct field may stand for a declaration: it was made from this one, or from none that
is known. -/
def fits (decl : Decl.Field) (field : Field) : Bool :=
  field.decl.all fun d => d.id == decl.id

/-- The pairing of the members left with the fields left, where `seen` are the declarations that
were met before. -/
def pairFrom (struct : String) : List Decl.Member → List Field → List Decl.FieldId → Pairing
  | [], _, _ => ⟨[], none⟩
  | .record _ :: members, fields, seen => pairFrom struct members fields seen
  | .method decl :: members, fields, seen =>
    (pairFrom struct members fields seen).cons (.method decl)
  | .field _ :: _, [], _ => ⟨[], some (.missingField struct)⟩
  | .field decl :: members, field :: fields, seen =>
    if !fits decl field then ⟨[], some (.declarationMismatch decl.name)⟩
    else if decl.id ∈ seen then pairFrom struct members fields seen
    else (pairFrom struct members fields (decl.id :: seen)).cons (.data decl field)

/-- The pairing of a record with a struct. -/
def pair (record : Decl.Record) (struct : Struct) : Pairing :=
  pairFrom struct.name record.members struct.fields []

/-- Every field that is described comes from the struct. -/
theorem mem_of_data_mem_pairFrom {struct : String} {members : List Decl.Member}
    {fields : List Field} {seen : List Decl.FieldId} {decl : Decl.Field} {field : Field}
    (h : .data decl field ∈ (pairFrom struct members fields seen).slots) : field ∈ fields := by
  fun_induction pairFrom struct members fields seen with
  | case1 => simp at h
  | case2 _ _ _ _ ih => exact ih h
  | case3 _ _ _ _ ih => simp_all [Pairing.cons]
  | case4 => simp at h
  | case5 => simp at h
  | case6 _ _ _ _ _ _ _ ih => exact List.mem_cons_of_mem _ (ih h)
  | case7 _ _ _ _ _ _ _ ih =>
    simp only [Pairing.cons, List.mem_cons, Slot.data.injEq] at h
    rcases h with ⟨-, rfl⟩ | h
    · exact List.mem_cons_self
    · exact List.mem_cons_of_mem _ (ih h)

end ShaderTypes.Lowering
