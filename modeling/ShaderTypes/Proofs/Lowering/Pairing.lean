import Mathlib.Data.List.Forall2
import ShaderTypes.Proofs.Lowering.Recursion

/-!
# Records and structs that fit together

The pairing of a record with a struct, in terms of the two lists that it walks along: the data
fields of the record and the fields of the struct.  They fit together when there are enough fields
and each is attached to no declaration or to the data field at its place.  What is described then are
the first occurrences of the data fields, with the struct fields at their places.
-/

namespace ShaderTypes

namespace Decl

/-- The data field that a member is. -/
def Member.field? : Member → Option Field
  | .field decl => some decl
  | _ => none

/-- The data fields of a record in order, with their repetitions. -/
def Record.dataFields (r : Record) : List Field :=
  r.members.filterMap Member.field?

/-- A declaration stands at a place of a list, and at none before. -/
def OccursFirst (decls : List Field) (i : Nat) (decl : Field) : Prop :=
  decls[i]? = some decl ∧ ∀ (j : Nat) other, j < i → decls[j]? = some other → other.id ≠ decl.id

variable {decl first : Field} {decls : List Field} {i : Nat}

lemma occursFirst_zero : OccursFirst (decl :: decls) 0 decl :=
  ⟨rfl, fun _ _ h => absurd h (Nat.not_lt_zero _)⟩

lemma occursFirst_succ : OccursFirst (first :: decls) (i + 1) decl ↔
    first.id ≠ decl.id ∧ OccursFirst decls i decl := by
  constructor
  · rintro ⟨h, before⟩
    refine ⟨before 0 first (Nat.succ_pos i) rfl, by simpa using h, fun j other hj hother => ?_⟩
    exact before (j + 1) other (Nat.succ_lt_succ hj) (by simpa using hother)
  · rintro ⟨hne, h, before⟩
    refine ⟨by simpa using h, fun j other hj hother => ?_⟩
    rcases j with _ | j
    · obtain rfl : first = other := by simpa using hother
      exact hne
    · exact before j other (Nat.lt_of_succ_lt_succ hj) (by simpa using hother)

end Decl

namespace Lowering

open Decl

/-- What is wrong with a record and a struct that do not fit together. -/
inductive Misfit (name : String) (decls : List Decl.Field) (fields : List Field) : Fault → Prop
  | missing (more : fields.length < decls.length) : Misfit name decls fields (.missingField name)
  | mismatch {i : Nat} {decl other : Decl.Field} {field : Field} (hdecl : decls[i]? = some decl)
      (hfield : fields[i]? = some field) (attached : field.decl = some other)
      (differs : other.id ≠ decl.id) : Misfit name decls fields (.declarationMismatch decl.name)

variable {name : String} {members : List Decl.Member} {fields : List Field}
  {seen : List Decl.FieldId} {decl first : Decl.Field} {field head : Field} {m : Decl.Method}
  {decls : List Decl.Field} {fault : Fault}

lemma fits_eq_false_iff : fits decl field = false ↔
    ∃ other, field.decl = some other ∧ other.id ≠ decl.id := by
  rw [fits]
  rcases field.decl with _ | other <;> simp

/-- Behind a data field and the struct field that it takes, what does not fit is the same. -/
lemma misfit_cons (h : fits first head = true) :
    Misfit name (first :: decls) (head :: fields) fault ↔ Misfit name decls fields fault := by
  constructor
  · rintro (more | @⟨i, decl, other, field, hdecl, hfield, attached, differs⟩)
    · exact .missing (by simpa using more)
    · rcases i with _ | i
      · obtain rfl : first = decl := by simpa using hdecl
        obtain rfl : head = field := by simpa using hfield
        cases h.symm.trans (fits_eq_false_iff.2 ⟨other, attached, differs⟩)
      · exact .mismatch (i := i) (by simpa using hdecl) (by simpa using hfield) attached differs
  · rintro (more | @⟨i, decl, other, field, hdecl, hfield, attached, differs⟩)
    · exact .missing (by simpa using more)
    · exact .mismatch (i := i + 1) (by simpa using hdecl) (by simpa using hfield) attached differs

/-- The pairing ends with a fault of the lists, if there is one. -/
lemma misfit_of_fault (h : (pairFrom name members fields seen).fault = some fault) :
    Misfit name (members.filterMap Member.field?) fields fault := by
  fun_induction pairFrom name members fields seen with
  | case1 => cases h
  | case2 _ _ _ _ ih => exact ih h
  | case3 _ _ _ _ ih => exact ih h
  | case4 =>
    cases h
    exact .missing (by simp [Member.field?])
  | case5 _ decl _ field _ hfits =>
    cases h
    obtain ⟨other, attached, differs⟩ := fits_eq_false_iff.1 (by simpa using hfits)
    exact .mismatch (i := 0) rfl rfl attached differs
  | case6 _ decl members field fields hfits _ ih =>
    exact (misfit_cons (by simpa using hfits)).2 (ih h)
  | case7 _ decl members field fields hfits _ ih =>
    exact (misfit_cons (by simpa using hfits)).2 (ih h)

/-- If the pairing ends without a fault, nothing is wrong with the lists. -/
lemma not_misfit_of_fault (h : (pairFrom name members fields seen).fault = none) :
    ¬ Misfit name (members.filterMap Member.field?) fields fault := by
  fun_induction pairFrom name members fields seen with
  | case1 =>
    rintro (more | ⟨hdecl, -⟩)
    · simp at more
    · simp at hdecl
  | case2 _ _ _ _ ih => exact ih h
  | case3 _ _ _ _ ih => exact ih h
  | case4 => cases h
  | case5 => cases h
  | case6 _ decl members field fields hfits _ ih =>
    exact fun misfit => ih h ((misfit_cons (by simpa using hfits)).1 misfit)
  | case7 _ decl members field fields hfits _ ih =>
    exact fun misfit => ih h ((misfit_cons (by simpa using hfits)).1 misfit)

lemma fault_pair_eq_none_iff {record : Decl.Record} {struct : Struct} :
    (pair record struct).fault = none ↔
      ∀ fault, ¬ Misfit struct.name record.dataFields struct.fields fault := by
  refine ⟨fun fits _ => not_misfit_of_fault fits, fun fits => ?_⟩
  rcases hfault : (pair record struct).fault with _ | fault
  · rfl
  · exact absurd (misfit_of_fault hfault) (fits fault)

/-- If the pairing ends without a fault, each data field fits the struct field at its place. -/
lemma forall₂_fits_of_fault (h : (pairFrom name members fields seen).fault = none) :
    List.Forall₂ (fun decl field => fits decl field = true) (members.filterMap Member.field?)
      (fields.take (members.filterMap Member.field?).length) := by
  fun_induction pairFrom name members fields seen with
  | case1 => exact .nil
  | case2 _ _ _ _ ih => exact ih h
  | case3 _ _ _ _ ih => exact ih h
  | case4 => cases h
  | case5 => cases h
  | case6 _ _ _ _ _ hfits _ ih => exact .cons (by simpa using hfits) (ih h)
  | case7 _ _ _ _ _ hfits _ ih => exact .cons (by simpa using hfits) (ih h)

/-- Where there is a field for each data field, those behind make no difference. -/
lemma pairFrom_append {more : List Field}
    (h : (members.filterMap Member.field?).length ≤ fields.length) :
    pairFrom name members (fields ++ more) seen = pairFrom name members fields seen := by
  fun_induction pairFrom name members fields seen with
  | case1 => rfl
  | case2 _ _ _ _ ih => exact ih h
  | case3 _ _ _ _ ih =>
    rw [pairFrom, ih h]
  | case4 => simp [Member.field?] at h
  | case5 _ _ _ _ _ hfits => rw [List.cons_append, pairFrom, if_pos hfits]
  | case6 _ _ _ _ _ hfits hseen ih =>
    rw [List.cons_append, pairFrom, if_neg hfits, if_pos hseen]
    exact ih (Nat.le_of_succ_le_succ h)
  | case7 _ _ _ _ _ hfits hseen ih =>
    rw [List.cons_append, pairFrom, if_neg hfits, if_neg hseen, ih (Nat.le_of_succ_le_succ h)]

/-- What is described of a record are methods of it. -/
lemma mem_members_of_method (h : .method m ∈ (pairFrom name members fields seen).slots) :
    .method m ∈ members := by
  fun_induction pairFrom name members fields seen with
  | case1 => cases h
  | case2 _ _ _ _ ih => exact List.mem_cons_of_mem _ (ih h)
  | case3 _ _ decl _ ih =>
    rcases List.mem_cons.1 h with heq | h
    · cases heq
      exact List.mem_cons_self
    · exact List.mem_cons_of_mem _ (ih h)
  | case4 => cases h
  | case5 => cases h
  | case6 _ _ _ _ _ _ _ ih => exact List.mem_cons_of_mem _ (ih h)
  | case7 _ _ _ _ _ _ _ ih =>
    rcases List.mem_cons.1 h with heq | h
    · cases heq
    · exact List.mem_cons_of_mem _ (ih h)

/-- All methods are described if the pairing ends without a fault. -/
lemma method_mem_of_fault (h : (pairFrom name members fields seen).fault = none)
    (hm : .method m ∈ members) : .method m ∈ (pairFrom name members fields seen).slots := by
  fun_induction pairFrom name members fields seen with
  | case1 => cases hm
  | case2 _ _ _ _ ih =>
    rcases List.mem_cons.1 hm with heq | hm
    · cases heq
    · exact ih h hm
  | case3 _ _ decl _ ih =>
    rcases List.mem_cons.1 hm with heq | hm
    · cases heq
      exact List.mem_cons_self
    · exact List.mem_cons_of_mem _ (ih h hm)
  | case4 => cases h
  | case5 => cases h
  | case6 _ _ _ _ _ _ _ ih =>
    rcases List.mem_cons.1 hm with heq | hm
    · cases heq
    · exact ih h hm
  | case7 _ _ _ _ _ _ _ ih =>
    rcases List.mem_cons.1 hm with heq | hm
    · cases heq
    · exact List.mem_cons_of_mem _ (ih h hm)

/-- Each data field that is described occurs first at its place, where the struct has the field that
it is paired with. -/
lemma occursFirst_of_data (h : .data decl field ∈ (pairFrom name members fields seen).slots) :
    decl.id ∉ seen ∧ ∃ i, OccursFirst (members.filterMap Member.field?) i decl ∧
      fields[i]? = some field := by
  fun_induction pairFrom name members fields seen with
  | case1 => cases h
  | case2 _ _ _ _ ih => exact ih h
  | case3 _ _ _ _ ih =>
    rcases List.mem_cons.1 h with heq | h
    · cases heq
    · exact ih h
  | case4 => cases h
  | case5 => cases h
  | case6 first members head fields seen _ hseen ih =>
    obtain ⟨hnew, i, hfirst, hfield⟩ := ih h
    refine ⟨hnew, i + 1, occursFirst_succ.2 ⟨?_, hfirst⟩, by simpa using hfield⟩
    -- The declaration in front was met before, and the one described was not.
    intro heq
    exact hnew (heq ▸ hseen)
  | case7 first members head fields seen _ hseen ih =>
    rcases List.mem_cons.1 h with heq | h
    · cases heq
      exact ⟨hseen, 0, occursFirst_zero, rfl⟩
    · obtain ⟨hnew, i, hfirst, hfield⟩ := ih h
      simp only [List.mem_cons, not_or] at hnew
      exact ⟨hnew.2, i + 1, occursFirst_succ.2 ⟨Ne.symm hnew.1, hfirst⟩, by simpa using hfield⟩

/-- Every first occurrence is described if the pairing ends without a fault. -/
lemma data_mem_of_fault {i : Nat} (h : (pairFrom name members fields seen).fault = none)
    (hnew : decl.id ∉ seen) (hfirst : OccursFirst (members.filterMap Member.field?) i decl)
    (hfield : fields[i]? = some field) :
    .data decl field ∈ (pairFrom name members fields seen).slots := by
  fun_induction pairFrom name members fields seen generalizing i with
  | case1 => simp [OccursFirst] at hfirst
  | case2 _ _ _ _ ih => exact ih h hnew hfirst hfield
  | case3 _ _ _ _ ih => exact List.mem_cons_of_mem _ (ih h hnew hfirst hfield)
  | case4 => cases h
  | case5 => cases h
  | case6 first members head fields seen _ hseen ih =>
    rcases i with _ | i
    · obtain rfl : first = decl := by simpa [Member.field?] using hfirst.1
      exact absurd hseen hnew
    · exact ih h hnew (occursFirst_succ.1 hfirst).2 (by simpa using hfield)
  | case7 first members head fields seen _ hseen ih =>
    rcases i with _ | i
    · obtain rfl : first = decl := by simpa [Member.field?] using hfirst.1
      obtain rfl : head = field := by simpa using hfield
      exact List.mem_cons_self
    · obtain ⟨hne, hfirst⟩ := occursFirst_succ.1 hfirst
      refine List.mem_cons_of_mem _ (ih h ?_ hfirst (by simpa using hfield))
      simp only [List.mem_cons, not_or]
      exact ⟨Ne.symm hne, hnew⟩

end Lowering

end ShaderTypes
