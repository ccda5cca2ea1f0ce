import ShaderTypes.Proofs.Lowering.Pairing

/-!
# What a composite is made from

Which members a struct is described with, told from the record and the struct and not from the walk
along them.  Of the members of the record count the methods, and each data field where it is
declared first, `Lowering.keptMembers`.  Each data field that counts is described with the struct
field at its place, `Lowering.firstOccurrences`.

`Lowering.Aligns` says of a list of slots that it is this one, and that record and struct fit
together.  The pairing of lowering is the only such list, and there is one just when the pairing ends
without a fault.  `Lowering.Heads` says the same of the heading of the composite.
-/

namespace ShaderTypes

/-- Whether a member is none of the given data fields. -/
def Decl.Member.isNew (seen : List Decl.FieldId) : Decl.Member → Bool
  | .field decl => decl.id ∉ seen
  | _ => true

namespace Lowering

/-- The members of a record without nested records, and without those data fields that were declared
before. -/
def keptMembers : List Decl.Member → List Decl.Member
  | [] => []
  | .record _ :: members => keptMembers members
  | .method decl :: members => .method decl :: keptMembers members
  | .field decl :: members => .field decl :: (keptMembers members).filter (·.isNew [decl.id])

/-- Fields, with the data fields of the record that they stand for, without those that stand for a
declaration that occurred before. -/
def firstOccurrences : List (Decl.Field × Field) → List (Decl.Field × Field)
  | [] => []
  | p :: ps => p :: (firstOccurrences ps).filter (·.1.id ≠ p.1.id)

lemma mem_of_mem_firstOccurrences {p : Decl.Field × Field} {ps : List (Decl.Field × Field)}
    (h : p ∈ firstOccurrences ps) : p ∈ ps := by
  induction ps with
  | nil => exact h
  | cons q ps ih =>
    rcases List.mem_cons.1 h with rfl | h
    · exact List.mem_cons_self
    · exact List.mem_cons_of_mem _ (ih (List.mem_of_mem_filter h))

/-- The types of the fields that are described are operands of the struct. -/
lemma mem_operands_of_mem_firstOccurrences {struct : Struct} {decls : List Decl.Field}
    {p : Decl.Field × Field} (h : p ∈ firstOccurrences (decls.zip struct.fields)) :
    p.2.type ∈ (Shape.struct struct).operands :=
  List.mem_map.2 ⟨p.2, (List.of_mem_zip (mem_of_mem_firstOccurrences h)).2, rfl⟩

/-- The member of the record that a slot stands for. -/
def Slot.member : Slot → Decl.Member
  | .method decl => .method decl
  | .data decl _ => .field decl

/-- The data field that a slot describes, with the struct field that it takes. -/
def Slot.pair? : Slot → Option (Decl.Field × Field)
  | .method _ => none
  | .data decl field => some (decl, field)

/-- Record and struct fit together, and these are the slots they are described with: one for each
member that counts, and for the data fields with the struct fields at their places. -/
structure Aligns (record : Decl.Record) (struct : Struct) (slots : List Slot) : Prop where
  fits : ∀ fault, ¬ Misfit struct.name record.dataFields struct.fields fault
  members : slots.map Slot.member = keptMembers record.members
  pairs : slots.filterMap Slot.pair? = firstOccurrences (record.dataFields.zip struct.fields)

/-- The kind of composite that a keyword declares. -/
inductive Declares : Decl.Keyword → Debug.CompositeTag → Prop
  | struct : Declares .structKeyword .structureTag
  | class : Declares .classKeyword .classTag
  | union : Declares .unionKeyword .unionTag

/-- What the heading of the composite says, for a struct and its record that is declared in the
given file. -/
structure Heads (record : Decl.Record) (struct : Struct) (file : Debug.File)
    (heading : Debug.Heading) : Prop where
  name : heading.name = struct.name
  linkageName : heading.linkageName = struct.name
  tag : Declares record.keyword heading.tag
  site : heading.site = ⟨file.source, record.location.line, record.location.column⟩
  parent : heading.parent = file.unit
  flags : heading.flags = .visibility record.isPrivate

variable {record : Decl.Record} {struct : Struct} {name : String} {members : List Decl.Member}
  {fields : List Field} {seen : List Decl.FieldId} {slots slots' : List Slot} {decl : Decl.Field}
  {field : Field} {tag : Debug.CompositeTag} {file file' : Debug.File}
  {heading heading' : Debug.Heading}

/-! ### The slots of the pairing -/

/-- If the pairing ends without a fault, its slots stand for the members that count. -/
lemma members_pairFrom (h : (pairFrom name members fields seen).fault = none) :
    (pairFrom name members fields seen).slots.map Slot.member =
      (keptMembers members).filter (·.isNew seen) := by
  have hcons (slot : Slot) (p : Pairing) : (p.cons slot).slots.map Slot.member =
      slot.member :: p.slots.map Slot.member := rfl
  fun_induction pairFrom name members fields seen with
  | case1 => rfl
  | case2 _ _ _ _ ih => exact ih h
  | case3 _ _ _ _ ih =>
    rw [hcons, ih h, keptMembers, List.filter_cons_of_pos rfl]
    rfl
  | case4 => cases h
  | case5 => cases h
  | case6 decl members field fields seen _ hseen ih =>
    rw [ih h, keptMembers, List.filter_cons_of_neg (by simpa [Decl.Member.isNew] using hseen),
      List.filter_filter]
    -- What was met before is left out in any case.
    refine List.filter_congr fun m _ => ?_
    cases m with
    | field other =>
      by_cases hother : other.id = decl.id
      · simp [Decl.Member.isNew, hother, hseen]
      · simp [Decl.Member.isNew, hother]
    | _ => rfl
  | case7 decl members field fields seen _ hseen ih =>
    have hnew : (Decl.Member.field decl).isNew seen = true := by
      simpa [Decl.Member.isNew] using hseen
    rw [hcons, ih h, keptMembers, List.filter_cons_of_pos hnew, List.filter_filter]
    refine congrArg _ (List.filter_congr fun m _ => ?_)
    cases m with
    | field other => simp [Decl.Member.isNew, Bool.and_comm]
    | _ => rfl

lemma members_pair (h : (pair record struct).fault = none) :
    (pair record struct).slots.map Slot.member = keptMembers record.members := by
  rw [pair, members_pairFrom h]
  refine List.filter_eq_self.2 fun m _ => ?_
  cases m with
  | field decl => simp [Decl.Member.isNew]
  | _ => rfl

/-- If the pairing ends without a fault, what it describes are the first occurrences. -/
lemma pairs_pairFrom (h : (pairFrom name members fields seen).fault = none) :
    (pairFrom name members fields seen).slots.filterMap Slot.pair? =
      (firstOccurrences ((members.filterMap Decl.Member.field?).zip fields)).filter
        (·.1.id ∉ seen) := by
  fun_induction pairFrom name members fields seen with
  | case1 => rfl
  | case2 _ _ _ _ ih => exact ih h
  | case3 _ _ _ _ ih => exact ih h
  | case4 => cases h
  | case5 => cases h
  | case6 decl members field fields seen _ hseen ih =>
    have hzip : ((Decl.Member.field decl :: members).filterMap Decl.Member.field?).zip
        (field :: fields) = (decl, field) ::
          (members.filterMap Decl.Member.field?).zip fields := rfl
    rw [ih h, hzip, firstOccurrences, List.filter_cons_of_neg (by simpa using hseen),
      List.filter_filter]
    -- What was met before is left out in any case.
    refine List.filter_congr fun p _ => ?_
    by_cases hp : p.1.id ∈ seen
    · simp [hp]
    · have hne : p.1.id ≠ decl.id := fun heq => hp (heq ▸ hseen)
      simp [hp, hne]
  | case7 decl members field fields seen _ hseen ih =>
    have hzip : ((Decl.Member.field decl :: members).filterMap Decl.Member.field?).zip
        (field :: fields) = (decl, field) ::
          (members.filterMap Decl.Member.field?).zip fields := rfl
    have hslots (p : Pairing) : (p.cons (.data decl field)).slots.filterMap Slot.pair? =
        (decl, field) :: p.slots.filterMap Slot.pair? := rfl
    rw [hslots, ih h, hzip, firstOccurrences, List.filter_cons_of_pos (by simpa using hseen),
      List.filter_filter]
    refine congrArg _ (List.filter_congr fun p _ => ?_)
    simp [Bool.and_comm]

lemma pairs_pair (h : (pair record struct).fault = none) :
    (pair record struct).slots.filterMap Slot.pair? =
      firstOccurrences (record.dataFields.zip struct.fields) := by
  rw [pair, pairs_pairFrom h]
  simp [Decl.Record.dataFields]

/-! ### The only slots -/

lemma mem_pairs_iff : (decl, field) ∈ slots.filterMap Slot.pair? ↔ .data decl field ∈ slots := by
  rw [List.mem_filterMap]
  constructor
  · rintro ⟨slot, hslot, hpair⟩
    cases slot <;> cases hpair
    exact hslot
  · exact fun hslot => ⟨_, hslot, rfl⟩

/-- Slots are known from the members they stand for and the struct fields that they take. -/
lemma eq_of_members_of_pairs (members : slots.map Slot.member = slots'.map Slot.member)
    (pairs : slots.filterMap Slot.pair? = slots'.filterMap Slot.pair?) : slots = slots' := by
  induction slots generalizing slots' with
  | nil => exact (List.map_eq_nil_iff.1 members.symm).symm
  | cons slot slots ih =>
    obtain _ | ⟨slot', slots'⟩ := slots'
    · cases members
    obtain ⟨head, tail⟩ := List.cons.inj members
    cases slot with
    | method decl =>
      cases slot' <;> cases head
      rw [ih tail pairs]
    | data decl field =>
      cases slot' <;> cases head
      obtain ⟨first, rest⟩ := List.cons.inj pairs
      cases first
      rw [ih tail rest]

/-- Slots align a record with a struct just when they are those of a pairing without a fault. -/
lemma aligns_iff : Aligns record struct slots ↔
    (pair record struct).fault = none ∧ slots = (pair record struct).slots := by
  constructor
  · intro h
    have fits := fault_pair_eq_none_iff.2 h.fits
    refine ⟨fits, eq_of_members_of_pairs ?_ ?_⟩
    · exact h.members.trans (members_pair fits).symm
    · exact h.pairs.trans (pairs_pair fits).symm
  · rintro ⟨fits, rfl⟩
    exact ⟨fault_pair_eq_none_iff.1 fits, members_pair fits, pairs_pair fits⟩

lemma aligns_pair (fits : (pair record struct).fault = none) :
    Aligns record struct (pair record struct).slots :=
  aligns_iff.2 ⟨fits, rfl⟩

lemma Aligns.eq (h : Aligns record struct slots) (h' : Aligns record struct slots') :
    slots = slots' :=
  (aligns_iff.1 h).2.trans (aligns_iff.1 h').2.symm

/-- The data fields that are described are those that are declared first. -/
lemma Aligns.mem_iff (h : Aligns record struct slots) : .data decl field ∈ slots ↔
    (decl, field) ∈ firstOccurrences (record.dataFields.zip struct.fields) := by
  rw [← h.pairs, mem_pairs_iff]

lemma Aligns.mem_operands (h : Aligns record struct slots) (hslot : .data decl field ∈ slots) :
    field.type ∈ (Shape.struct struct).operands :=
  mem_operands_of_mem_firstOccurrences (h.mem_iff.1 hslot)

/-! ### Headings -/

lemma declares_iff : Declares record.keyword tag ↔ compositeTag record = .ok tag := by
  rw [compositeTag]
  constructor
  · intro h
    cases hkeyword : record.keyword <;> rw [hkeyword] at h <;> cases h <;> rfl
  · intro h
    cases hkeyword : record.keyword <;> rw [hkeyword] at h <;> cases h <;> constructor

lemma heads_heading (tagged : compositeTag record = .ok tag) :
    Heads record struct file (Lowering.heading struct record tag file) :=
  ⟨rfl, rfl, declares_iff.2 tagged, rfl, rfl, rfl⟩

/-- Headings that say the same of a file with the same nodes are equal. -/
lemma Heads.eq (h : Heads record struct file heading)
    (h' : Heads record struct file heading') : heading = heading' := by
  have tagged := (declares_iff.1 h.tag).symm.trans (declares_iff.1 h'.tag)
  obtain ⟨_, _, _, _, _, _⟩ := heading
  obtain ⟨_, _, _, _, _, _⟩ := heading'
  obtain ⟨rfl, rfl, -, rfl, rfl, rfl⟩ := h
  obtain ⟨rfl, rfl, -, rfl, rfl, rfl⟩ := h'
  cases tagged
  rfl

/-- Only the source and the unit of the file matter. -/
lemma Heads.of_file (h : Heads record struct file heading) (source : file'.source = file.source)
    (unit : file'.unit = file.unit) : Heads record struct file' heading where
  name := h.name
  linkageName := h.linkageName
  tag := h.tag
  site := by rw [source, h.site]
  parent := by rw [unit, h.parent]
  flags := h.flags

/-- A record that heads a composite is no enumeration. -/
lemma Heads.isEnum (h : Heads record struct file heading) : record.isEnum = false := by
  have tagged := h.tag
  rw [Decl.Record.isEnum]
  cases hkeyword : record.keyword with
  | enumKeyword =>
    rw [hkeyword] at tagged
    cases tagged
  | _ => rfl

end Lowering

end ShaderTypes
