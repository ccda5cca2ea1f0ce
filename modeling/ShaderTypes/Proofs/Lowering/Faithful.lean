import ShaderTypes.Proofs.Lowering.Described
import ShaderTypes.Proofs.Store.LoweringBuilt

/-!
# The registry describes types faithfully

In every store of a compilation that leaves the debug types to lowering, the node listed under a type
says what the type is.  Nothing that was described is ever touched again, so it is enough that what
is new is described.
-/

namespace ShaderTypes.Store

/-- Every type that is listed is described by its node, and so is what has no description. -/
structure Faithful (saved : Decl.MethodId → NodeId → Prop) (s : Store) : Prop where
  typed : ∀ {a : TypeId} {n : NodeId}, s.debugType? a = some n →
    ∃ x e, s.types.shape? a = some x ∧ s.nodes.entry? n = some e ∧ s.Describes saved x n e
  placeholder : ∀ {n : NodeId}, s.debugTypes.get? none = some n →
    s.nodes.entry? n = some placeholderEntry

variable {builders : BuilderId → Prop} {saved : Decl.MethodId → NodeId → Prop} {s t : Store}
  {b : BuilderId}

/-- What was described stays so, and what is new is described. -/
lemma Faithful.of_extends (hs : s.Faithful saved) (sound : s.Sound) (h : s.Extends t)
    (hlisted : ListsDescribed saved s t) : t.Faithful saved where
  typed := by
    intro a n hn
    rcases ha : s.debugType? a with _ | m
    · exact hlisted.typed hn ha
    · obtain rfl : m = n := Option.some.inj ((h.get?_debugTypes ha).symm.trans hn)
      obtain ⟨x, e, hx, he, hd⟩ := hs.typed ha
      exact ⟨x, e, h.shape? hx, h.entries he, hd.of_extends h sound hx⟩
  placeholder := by
    intro n hn
    rcases hnone : s.debugTypes.get? none with _ | m
    · exact hlisted.placeholder hn hnone
    · obtain rfl : m = n := Option.some.inj ((h.get?_debugTypes hnone).symm.trans hn)
      exact h.entries (hs.placeholder hnone)

lemma Orderly.of_extends (hs : s.Orderly saved) (h : s.Extends t) (sound : t.Sound)
    (methods : t.methods = s.methods) : t.Orderly saved := by
  refine hs.of_sustains h.sustains sound ?_ ?_
  · exact fun hn => (h.debugType?_cases hn).imp_right fun hnew => hnew.2.2
  · intro id n hn
    rw [function?, methods] at hn
    exact Or.inl hn

/-- A walk over a module keeps a store orderly and faithful. -/
lemma faithful_of_walk {instructions : List NodeId} (h : Lowering.Walk b instructions s t)
    (hs : s.Orderly saved) (hf : s.Faithful saved) : t.Orderly saved ∧ t.Faithful saved := by
  induction h with
  | nil => exact ⟨hs, hf⟩
  | @untyped n _ s _ _ _ ih =>
    have hstamp : s.Extends (s.stamp n b) := extends_stamp
    exact ih (hs.of_extends hstamp (edits_stamp.sound hs.sound) rfl)
      (hf.of_extends hs.sound hstamp (.of_debugTypes_eq rfl))
  | @typed n d a _ s s' _ _ lowered _ ih =>
    have hstamp : s.Extends (s.stamp n b) := extends_stamp
    have hs₁ := hs.of_extends hstamp (edits_stamp.sound hs.sound) rfl
    have hf₁ := hf.of_extends hs.sound hstamp (.of_debugTypes_eq rfl)
    have hs₂ := hs₁.of_changes (lower_changes lowered)
    have hf₂ := hf₁.of_extends hs₁.sound (extends_lower lowered)
      (listsDescribed_lower lowered hs₁)
    have hset : s'.Extends (s'.withDebugType n d) := extends_withDebugType
    exact ih (hs₂.of_extends hset (edits_withDebugType.sound hs₂.sound) rfl)
      (hf₂.of_extends hs₂.sound hset (.of_debugTypes_eq rfl))

/-- A store that leaves the debug types to lowering is orderly and faithful. -/
lemma LoweringBuilt.orderly_faithful (h : s.LoweringBuilt builders saved) :
    s.Orderly saved ∧ s.Faithful saved := by
  refine h.induction (P := fun s => s.Orderly saved ∧ s.Faithful saved) ?_ ?_
  · intro options
    refine ⟨⟨sound_new options, ?_, ?_⟩, ?_, ?_⟩
    all_goals
      intros
      rename_i hn
      cases hn
  rintro s t - hbuilt progress ⟨hs, hf⟩
  cases progress with
  | preserves h =>
    refine ⟨hs.of_sustains h.extends.sustains hbuilt.reachable.sound ?_ h.methods, ?_⟩
    · intro a n hn
      rw [debugType?, h.debugTypes] at hn
      exact Or.inl hn
    · exact hf.of_extends hs.sound h.extends (.of_debugTypes_eq h.debugTypes)
  | lower _ h =>
    exact ⟨hs.of_changes (lower_changes h),
      hf.of_extends hs.sound (extends_lower h) (listsDescribed_lower h hs)⟩
  | walk _ h => exact faithful_of_walk h hs hf

/-- In a store that leaves the debug types to lowering, every entry of the registry is faithful: the
node under a type says what that type is, in terms of the debug types of its parts and their sizes,
with functions that were saved for the methods, and the node under no type is the placeholder. -/
theorem LoweringBuilt.registry_faithful (h : s.LoweringBuilt builders saved) :
    (∀ a n, (some a, n) ∈ s.debugTypes.entries →
      ∃ x e, s.types.shape? a = some x ∧ s.nodes.entry? n = some e ∧
        s.Describes saved x n e) ∧
    ∀ n, (none, n) ∈ s.debugTypes.entries → s.nodes.entry? n = some placeholderEntry := by
  obtain ⟨hs, hf⟩ := h.orderly_faithful
  constructor
  · intro a n hn
    exact hf.typed (OrderedMap.get?_of_mem hs.sound.keys hn)
  · intro n hn
    exact hf.placeholder (OrderedMap.get?_of_mem hs.sound.keys hn)

/-- A struct made from a record with a method and a field, which lies behind its first word. -/
def methodStruct : Struct where
  name := "S"
  fields := [{ type := ⟨0⟩, offset := some 4 }]
  record := some
    { id := ⟨0⟩, name := "S", keyword := .structKeyword, location := ⟨"a.hlsl", 1, 1⟩
      members := [.method { id := ⟨0⟩, name := "f", location := ⟨"a.hlsl", 2, 3⟩ },
        .field { id := ⟨0⟩, name := "x", location := ⟨"a.hlsl", 3, 3⟩ }] }

/-- A function is saved for the method, and the struct is lowered through a pointer. -/
def methodSession : List Operation :=
  [.openFile "a.hlsl",
    .function
      { name := "f", site := ⟨⟨0⟩, 2, 3⟩, parent := ⟨1⟩, linkageName := "f", flags := .isPublic
        scopeLine := 2, type := none },
    .saveFunction ⟨0⟩ ⟨2⟩, .type (.integer 32 false), .type (.struct methodStruct),
    .type (.pointer ⟨1⟩ .functionLocal), .lower ⟨0⟩ ⟨2⟩]

/-- The struct is described by the node that lowering it through the pointer lists.  Its members are
the function and a new node, which has the debug type of the field's type and takes up the second
word. -/
theorem registry_faithful_of_struct :
    ∃ (s : Store) (c : Debug.Composite) (d : Debug.Member),
    s.LoweringBuilt (· = ⟨0⟩) (fun method n => method = ⟨0⟩ ∧ n = ⟨2⟩) ∧
    (some ⟨1⟩, ⟨3⟩) ∈ s.debugTypes.entries ∧
    s.types.shape? ⟨1⟩ = some (.struct methodStruct) ∧ s.nodes.entry? ⟨3⟩ = some (.composite c) ∧
    s.Describes (fun method n => method = ⟨0⟩ ∧ n = ⟨2⟩) (.struct methodStruct) ⟨3⟩
      (.composite c) ∧
    c.members = [⟨2⟩, ⟨5⟩] ∧ c.size = 64 ∧ s.nodes.entry? ⟨5⟩ = some (.member d) ∧
    s.debugType? ⟨0⟩ = some d.type ∧ d.parent = ⟨3⟩ ∧ d.offset = 32 ∧ d.size = 32 := by
  obtain ⟨replies, s, hsession, hmem, hshape, hcomposite, hmember⟩ := exists_of_runAll {}
    methodSession
    (fun s => (some ⟨1⟩, ⟨3⟩) ∈ s.debugTypes.entries ∧
      s.types.shape? ⟨1⟩ = some (.struct methodStruct) ∧
      (s.nodes.composite? ⟨3⟩).any (fun c => c.members = [⟨2⟩, ⟨5⟩] ∧ c.size = 64) = true ∧
      ((s.nodes.entry? ⟨5⟩).bind Debug.Entry.member?).any (fun d =>
        s.debugType? ⟨0⟩ = some d.type ∧ d.parent = ⟨3⟩ ∧ d.offset = 32 ∧ d.size = 32) = true)
    (by decide +kernel)
  have built : s.LoweringBuilt (· = ⟨0⟩) (fun method n => method = ⟨0⟩ ∧ n = ⟨2⟩) := by
    refine LoweringBuilt.runAll (.new {}) (by decide +kernel) ?_ ?_ hsession
    · simp [methodSession, Operation.builder?]
    · simp +contextual [methodSession, Operation.saved?]
  obtain ⟨x, e, hx, he, hd⟩ := built.registry_faithful.1 ⟨1⟩ ⟨3⟩ hmem
  obtain rfl : x = .struct methodStruct := Option.some.inj (hx.symm.trans hshape)
  obtain ⟨c, hc, hsaid⟩ := (Option.any_eq_true _ _).1 hcomposite
  obtain ⟨d, hentry, hplaced⟩ := (Option.any_eq_true _ _).1 hmember
  obtain ⟨e', hd', hmember'⟩ := Option.bind_eq_some_iff.1 hentry
  have hc' := Debug.NodeTable.composite?_eq_some.1 hc
  obtain rfl : e = .composite c := Option.some.inj (he.symm.trans hc')
  obtain rfl : e' = .member d := by
    cases e' <;> cases hmember'
    rfl
  obtain ⟨members, size⟩ := of_decide_eq_true hsaid
  exact ⟨s, c, d, built, hmem, hx, he, hd, members, size, hd', of_decide_eq_true hplaced⟩

end ShaderTypes.Store
