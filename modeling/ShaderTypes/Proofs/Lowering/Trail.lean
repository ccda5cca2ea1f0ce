import Mathlib.Data.List.Induction
import Mathlib.Data.List.Nodup
import ShaderTypes.Proofs.Lowering.Alignment
import ShaderTypes.Proofs.Lowering.Reach

/-!
# The files that lowering touches

Describing a record makes the file known in which it is declared, and then field by field those that
describing the type of the field makes known, and the one in which the field is declared.
`TypeTable.trail` lists these files in order, with repetitions.  It is read off the types alone and
only leaves out types that have a debug type already.

Lowering lists types as it goes, so the trail of a part that comes late is read off another store
than that of the whole.  There it is shorter, but only by files that are known by then, and a file
that is known does not move when it is touched again: `TouchAlike`.
-/

namespace ShaderTypes

/-! ### First touches -/

/-- The files with one more touched: a new one goes to the end. -/
def touch (files : List String) (name : String) : List String :=
  if name ∈ files then files else files ++ [name]

/-- Two lists of touched files that come to the same once the given ones are known. -/
def TouchAlike (known l l' : List String) : Prop :=
  ∀ files, known ⊆ files → l.foldl touch files = l'.foldl touch files

section Touch

variable {files l l' l₁ l₂ known : List String} {name : String}

lemma mem_touch {f : String} : f ∈ touch files name ↔ f ∈ files ∨ f = name := by
  unfold touch
  split
  · rename_i h
    constructor
    · exact Or.inl
    · rintro (hf | rfl)
      · exact hf
      · exact h
  · rw [List.mem_append, List.mem_singleton]

lemma mem_foldl_touch {f : String} : f ∈ l.foldl touch files ↔ f ∈ files ∨ f ∈ l := by
  induction l generalizing files with
  | nil => simp
  | cons name l ih => rw [List.foldl_cons, ih, mem_touch, List.mem_cons, or_assoc]

/-- Files that are known stay where they are. -/
lemma prefix_foldl_touch : files <+: l.foldl touch files := by
  induction l generalizing files with
  | nil => exact List.prefix_refl _
  | cons name l ih =>
    refine List.IsPrefix.trans ?_ ih
    unfold touch
    split
    · exact List.prefix_refl _
    · exact List.prefix_append _ _

lemma foldl_touch_of_subset (h : l ⊆ files) : l.foldl touch files = files := by
  induction l with
  | nil => rfl
  | cons name l ih =>
    obtain ⟨hname, hl⟩ := List.cons_subset.1 h
    rw [List.foldl_cons, touch, if_pos hname, ih hl]

/-- Touching files one after the other lists them in the order in which they occur first. -/
lemma foldl_touch_nil : l.foldl touch [] = l.eraseDups := by
  induction l using List.reverseRecOn with
  | nil => rfl
  | append_singleton l name ih =>
    rw [List.foldl_append, List.foldl_cons, List.foldl_nil, ih, touch, List.eraseDups_append]
    by_cases h : name ∈ l <;> simp [List.removeAll, List.eraseDups_cons, h]

lemma nodup_foldl_touch (h : files.Nodup) : (l.foldl touch files).Nodup := by
  induction l generalizing files with
  | nil => exact h
  | cons name l ih =>
    refine ih ?_
    unfold touch
    split
    · exact h
    · rename_i hname
      simpa using List.Nodup.concat hname h

namespace TouchAlike

lemma refl (known l : List String) : TouchAlike known l l :=
  fun _ _ => rfl

lemma symm (h : TouchAlike known l l') : TouchAlike known l' l :=
  fun files hfiles => (h files hfiles).symm

lemma trans (h : TouchAlike known l l₁) (h' : TouchAlike known l₁ l₂) : TouchAlike known l l₂ :=
  fun files hfiles => (h files hfiles).trans (h' files hfiles)

/-- Files that are known need not be touched. -/
lemma of_subset (h : l ⊆ known) : TouchAlike known l [] :=
  fun _ hfiles => foldl_touch_of_subset (List.Subset.trans h hfiles)

lemma append (h : TouchAlike known l l') (h' : TouchAlike known l₁ l₂) :
    TouchAlike known (l ++ l₁) (l' ++ l₂) := by
  intro files hfiles
  rw [List.foldl_append, List.foldl_append, h files hfiles]
  exact h' _ (List.Subset.trans hfiles prefix_foldl_touch.subset)

lemma flatMap {α : Type} {as : List α} {f g : α → List String}
    (h : ∀ a ∈ as, TouchAlike known (f a) (g a)) :
    TouchAlike known (as.flatMap f) (as.flatMap g) := by
  induction as with
  | nil => exact refl known []
  | cons a as ih =>
    obtain ⟨ha, has⟩ := List.forall_mem_cons.1 h
    exact ha.append (ih has)

/-- What is touched in one of the lists is known or touched in the other. -/
lemma mem {f : String} (h : TouchAlike known l l') (hf : f ∈ l) : f ∈ known ∨ f ∈ l' := by
  rw [← mem_foldl_touch, ← h known (List.Subset.refl known)]
  exact mem_foldl_touch.2 (Or.inr hf)

end TouchAlike

end Touch

/-! ### Trails -/

namespace Lowering

/-- The files touched for data fields with the struct fields they take, given those touched for a
type: the file of a data field comes after those of its type. -/
def pairsTrail (operand : TypeId → List String) (pairs : List (Decl.Field × Field)) : List String :=
  pairs.flatMap fun p => operand p.2.type ++ [p.1.location.file]

lemma pairsTrail_alike {pairs : List (Decl.Field × Field)} {known : List String}
    {f g : TypeId → List String} (h : ∀ p ∈ pairs, TouchAlike known (f p.2.type) (g p.2.type)) :
    TouchAlike known (pairsTrail f pairs) (pairsTrail g pairs) :=
  .flatMap fun p hp => (h p hp).append (.refl known [p.1.location.file])

end Lowering

namespace TypeTable

/-- The files touched for a type of the given shape, given those touched for its parts.  A struct
starts with the file of its record, and its data fields count where they are declared first. -/
def trailWith (t : TypeTable) (operand : TypeId → List String) : Shape → List String
  | .struct struct =>
    match struct.record with
    | some record =>
      if record.isEnum then []
      else record.location.file ::
        Lowering.pairsTrail operand (Lowering.firstOccurrences (record.dataFields.zip struct.fields))
    | none => []
  | x => (t.parts x).flatMap operand

/-- The files touched for a type, where the listed types are not described again. -/
def trail (t : TypeTable) (listed : TypeId → Bool) (a : TypeId) : List String :=
  if listed a then []
  else ((t.shape? a).map (t.trailWith fun u =>
    if _h : u.index < a.index then t.trail listed u else [])).getD []
termination_by a.index

variable {t t' : TypeTable} {a : TypeId} {x : Shape} {known : List String}
  {listed listed' : TypeId → Bool} {f g : TypeId → List String}

lemma trail_of_listed (h : listed a = true) : t.trail listed a = [] := by
  rw [trail, if_pos h]

lemma trail_of_shape?_eq_none (h : t.shape? a = none) : t.trail listed a = [] := by
  rw [trail, h]
  simp

lemma trailWith_alike (h : ∀ u ∈ x.operands, TouchAlike known (f u) (g u)) :
    TouchAlike known (t.trailWith f x) (t.trailWith g x) := by
  cases x with
  | struct struct =>
    rcases hr : struct.record with _ | record
    · simp only [trailWith, hr]
      exact .refl known []
    · rcases henum : record.isEnum with _ | _
      · simp only [trailWith, hr, henum, Bool.false_eq_true, ↓reduceIte]
        refine .append (.refl known [record.location.file]) (Lowering.pairsTrail_alike ?_)
        intro p hp
        exact h _ (Lowering.mem_operands_of_mem_firstOccurrences hp)
      · simp only [trailWith, hr, henum, ↓reduceIte]
        exact .refl known []
  | _ => exact .flatMap fun u hu => h u (mem_operands_of_mem_parts hu)

/-- The trail goes by the parts, without a guard. -/
lemma trail_alike_trailWith (wf : t.WellFormed) (hx : t.shape? a = some x)
    (unlisted : listed a = false) :
    TouchAlike known (t.trail listed a) (t.trailWith (t.trail listed) x) := by
  rw [trail, if_neg (by simp [unlisted]), hx, Option.map_some, Option.getD_some]
  refine trailWith_alike fun u hu => ?_
  rw [dif_pos (wf a x hx u hu)]
  exact .refl known _

/-- A type that is described as the placeholder has no trail. -/
lemma trailWith_of_undescribed (described : x.isDescribed = false) (pointer : x.isPointer = false) :
    t.trailWith f x = [] := by
  cases x with
  | struct struct =>
    rw [trailWith]
    rcases hr : struct.record with _ | record
    · rfl
    · have henum : record.isEnum = true := by simpa [Shape.isDescribed, hr] using described
      simp [henum]
  | pointer => cases pointer
  | vector | array | function => cases described
  | _ => rfl

/-- The trail of a struct starts in the file of its record. -/
lemma trail_alike_pairsTrail {struct : Struct} {record : Decl.Record} (wf : t.WellFormed)
    (hx : t.shape? a = some (.struct struct)) (hr : struct.record = some record)
    (described : (Shape.struct struct).isDescribed = true) (unlisted : listed a = false) :
    TouchAlike known (t.trail listed a) (record.location.file ::
      Lowering.pairsTrail (t.trail listed)
        (Lowering.firstOccurrences (record.dataFields.zip struct.fields))) := by
  have henum : record.isEnum = false := by simpa [Shape.isDescribed, hr] using described
  have hwith : TouchAlike known (t.trail listed a)
      (t.trailWith (t.trail listed) (.struct struct)) := trail_alike_trailWith wf hx unlisted
  simpa only [trailWith, hr, henum, Bool.false_eq_true, ↓reduceIte] using hwith

lemma trailWith_eq (h : t.shapes <+: t'.shapes) (hx : ∀ u ∈ x.operands, u.index < t.size) :
    t'.trailWith f x = t.trailWith f x := by
  have hparts := parts_eq h hx
  cases x with
  | function => rw [trailWith, hparts, trailWith]; all_goals simp
  | _ => rfl

/-- In a longer table, where more types are listed, a type has the same trail but for the files of
the types that are listed in addition. -/
lemma trail_alike (wf : t.WellFormed) (wf' : t'.WellFormed) (h : t.shapes <+: t'.shapes)
    (ha : a.index < t.size) (mono : ∀ v : TypeId, listed v = true → listed' v = true)
    (new : ∀ v : TypeId, v.index ≤ a.index → listed v = false → listed' v = true →
      t.trail listed v ⊆ known) :
    TouchAlike known (t.trail listed a) (t'.trail listed' a) := by
  induction a using TypeId.strongInduction with
  | _ a ih =>
  rcases hlisted : listed a with _ | _
  · rcases hlisted' : listed' a with _ | _
    · obtain ⟨x, hx⟩ := exists_shape? ha
      have below (u : TypeId) (hu : u ∈ x.operands) :
          TouchAlike known (t.trail listed u) (t'.trail listed' u) := by
        have hlt := wf a x hx u hu
        exact ih u hlt (Nat.lt_trans hlt ha) fun v hv =>
          new v (Nat.le_trans hv (Nat.le_of_lt hlt))
      have after : TouchAlike known (t'.trail listed' a) (t'.trailWith (t'.trail listed') x) :=
        trail_alike_trailWith wf' (shape?_mono h hx) hlisted'
      rw [trailWith_eq h fun u hu => wf.operand_lt hx hu] at after
      exact ((trail_alike_trailWith wf hx hlisted).trans (trailWith_alike below)).trans after.symm
    · rw [trail_of_listed hlisted']
      exact .of_subset (new a (Nat.le_refl _) hlisted hlisted')
  · rw [trail_of_listed hlisted, trail_of_listed (mono a hlisted)]
    exact .refl known []

end TypeTable

end ShaderTypes
