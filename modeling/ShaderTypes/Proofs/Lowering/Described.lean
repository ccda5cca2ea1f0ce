import ShaderTypes.Proofs.Lowering.Depicted

/-!
# What a lowering lists is described

When the functions of methods are bounded from outside, what a lowering lists is described by the
nodes it lists: a depiction names functions that are saved, and those are among the given ones.
-/

namespace ShaderTypes

namespace Store

/-- What a lowering starts from in a compilation that leaves the debug types to lowering: a sound
store in which types that can be described are listed only, and the given functions are saved
only. -/
structure Orderly (saved : Decl.MethodId → NodeId → Prop) (s : Store) : Prop where
  sound : s.Sound
  described : ∀ {a : TypeId} {n : NodeId}, s.debugType? a = some n →
    ∃ x, s.types.shape? a = some x ∧ x.isDescribed = true
  saved : ∀ {id : Decl.MethodId} {n : NodeId}, s.function? id = some n →
    saved id n ∧ ∃ f, s.nodes.entry? n = some (.function f)

variable {saved : Decl.MethodId → NodeId → Prop} {s t : Store} {a : TypeId} {n : NodeId}
  {b : BuilderId} {x : Shape} {e : Debug.Entry}

lemma Orderly.regular (hs : s.Orderly saved) : s.Regular :=
  ⟨hs.sound, hs.described⟩

/-- A store stays orderly when it keeps what descriptions rest on. -/
lemma Orderly.of_sustains (hs : s.Orderly saved) (h : s.Sustains t) (sound : t.Sound)
    (described : ∀ {a n}, t.debugType? a = some n → s.debugType? a = some n ∨
      ∃ x, t.types.shape? a = some x ∧ x.isDescribed = true)
    (functions : ∀ {id n}, t.function? id = some n → s.function? id = some n ∨
      saved id n ∧ ∃ f, s.nodes.entry? n = some (.function f)) : t.Orderly saved where
  sound := sound
  described := by
    intro a n hn
    rcases described hn with hn | hx
    · obtain ⟨x, hx, hdescribed⟩ := hs.described hn
      exact ⟨x, TypeTable.shape?_mono h.shapes hx, hdescribed⟩
    · exact hx
  saved := by
    intro id n hn
    obtain ⟨known, f, hf⟩ : saved id n ∧ ∃ f, s.nodes.entry? n = some (.function f) := by
      rcases functions hn with hn | hf
      · exact hs.saved hn
      · exact hf
    exact ⟨known, f, h.entries hf rfl⟩

lemma Orderly.of_changes {bound base : Nat} (hs : s.Orderly saved)
    (h : Lowering.Changes b (Lowering.Listable bound) base s t) : t.Orderly saved := by
  refine hs.of_sustains (sustains_of_changes h) ((edits_of_changes h).sound hs.sound) ?_ ?_
  · intro a n hn
    exact (h.get?_cases hn).imp_right fun hnew => (hnew.2.2 a rfl).2
  · intro id n hn
    rw [function?, methods_of_changes h] at hn
    exact Or.inl hn

/-! ### Listing described types -/

/-- Whatever is listed later was listed before, or is described by its node. -/
structure ListsDescribed (saved : Decl.MethodId → NodeId → Prop) (s t : Store) : Prop where
  typed : ∀ {a : TypeId} {n : NodeId}, t.debugType? a = some n → s.debugType? a = none →
    ∃ x e, t.types.shape? a = some x ∧ t.nodes.entry? n = some e ∧
      t.Describes saved x n e
  placeholder : ∀ {n : NodeId}, t.debugTypes.get? none = some n → s.debugTypes.get? none = none →
    t.nodes.entry? n = some placeholderEntry

lemma ListsDescribed.of_debugTypes_eq (h : t.debugTypes = s.debugTypes) :
    ListsDescribed saved s t where
  typed := by
    intro a n hn hs
    rw [debugType?, h] at hn
    cases hs.symm.trans hn
  placeholder := by
    intro n hn hs
    rw [h] at hn
    cases hs.symm.trans hn

/-! ### From depictions to descriptions -/

lemma Orderly.members {slots : List Lowering.Slot} {low : Nat} {extent extent' : Lowering.Extent}
    {ms : List NodeId} (hs : s.Orderly saved) (h : s.Populates n slots low extent ms extent') :
    s.Members saved n slots extent ms extent' := by
  induction h with
  | nil => exact .nil
  | method function _ ih =>
    obtain ⟨known, f, hf⟩ := hs.saved function
    exact .method known hf ih
  | data _ described located evaluated member _ ih =>
    exact .data described located evaluated member ih

lemma Orderly.describes (hs : s.Orderly saved) (h : s.Depicts x n e) : s.Describes saved x n e := by
  cases h with
  | basic basic word => exact .basic basic word
  | built resolved builds =>
    cases builds with
    | vector => exact .vector (List.cons.inj resolved).1
    | array => exact .array (List.cons.inj resolved).1
    | procedure void =>
      rw [TypeTable.parts, if_pos void] at resolved
      exact .procedure void resolved
    | function void =>
      rw [TypeTable.parts, if_neg (by simp [void])] at resolved
      exact .function void (List.cons.inj resolved).1 (List.cons.inj resolved).2
  | composite made located headed aligned filled =>
    exact .composite made located headed aligned (hs.members filled)

end Store

open Store

/-- Whatever a lowering lists is described by the node it lists. -/
theorem listsDescribed_lower {saved : Decl.MethodId → NodeId → Prop} {b : BuilderId} {s t : Store}
    {a : TypeId} {n : NodeId} (h : lower b a s = .ok (n, t)) (hs : s.Orderly saved) :
    ListsDescribed saved s t where
  typed := by
    intro v m hm hv
    obtain ⟨x, e, hx, he, hd⟩ := (listsDepicted_lower h hs.regular).typed hm hv
    exact ⟨x, e, hx, he, (hs.of_changes (lower_changes h)).describes hd⟩
  placeholder := (listsDepicted_lower h hs.regular).placeholder

end ShaderTypes
