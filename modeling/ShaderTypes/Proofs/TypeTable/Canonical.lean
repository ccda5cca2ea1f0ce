import ShaderTypes.Proofs.Store.Soundness

/-!
# Canonical types

In every store that a compilation can reach, types without unresolved ones below them are canonical:
two that look alike are one and the same, so that comparing handles is comparing types.
-/

namespace ShaderTypes.Store

/-- In a reachable store two canonical types without unresolved ones below them look alike only if
they are the same, and none of them is listed twice. -/
theorem Reachable.canonical_alike_iff_eq {s : Store} (hs : s.Reachable) :
    (∀ a ∈ s.types.canonical, ∀ b ∈ s.types.canonical, s.types.HybridFree a →
      s.types.HybridFree b → (s.types.alike a b = true ↔ a = b)) ∧
    s.types.canonical.Pairwise fun a b => s.types.HybridFree a → s.types.HybridFree b →
      s.types.alike a b = false := by
  have interned := hs.sound.types
  refine ⟨?_, ?_⟩
  · intro a _ b _ ha hb
    constructor
    · exact interned.eq_of_alike ha hb
    · rintro rfl
      exact TypeTable.alike_refl _ _
  · -- The list is in the order of the table, so two of its places are never the same type.
    have distinct : s.types.canonical.Pairwise fun a b => a ≠ b := by
      refine List.Pairwise.filter _ (List.pairwise_map.2 ?_)
      refine (List.nodup_range (n := s.types.size)).imp ?_
      intro i j hij heq
      exact hij (congrArg TypeId.index heq)
    refine distinct.imp ?_
    intro a b hab ha hb
    rw [← Bool.not_eq_true]
    exact fun h => hab (interned.eq_of_alike ha hb h)

/-- A matrix of integers is asked for, and then the array of its columns. -/
def matrixSession : List Operation :=
  [.type (.integer 32 false), .type (.vector ⟨0⟩ 4), .type (.matrix ⟨1⟩ 4),
    .type (.array ⟨1⟩ 4 none)]

/-- The matrix is the array of its columns, which is not listed again. -/
theorem canonical_alike_iff_eq_of_matrices : ∃ s : Store, s.Reachable ∧
    s.types.canonical = [⟨0⟩, ⟨1⟩, ⟨2⟩] ∧ (s.types.alike ⟨1⟩ ⟨2⟩ = true ↔ (⟨1⟩ : TypeId) = ⟨2⟩) := by
  obtain ⟨replies, s, hsession, hids, hword, hcolumn, hcolumns⟩ := exists_of_runAll {} matrixSession
    (fun s => s.types.canonical = [⟨0⟩, ⟨1⟩, ⟨2⟩] ∧ s.types.shape? ⟨0⟩ = some (.integer 32 false) ∧
      s.types.shape? ⟨1⟩ = some (.vector ⟨0⟩ 4) ∧ s.types.shape? ⟨2⟩ = some (.array ⟨1⟩ 4 none))
    (by decide +kernel)
  have reachable : s.Reachable := ⟨{}, matrixSession, replies, hsession⟩
  have word : s.types.HybridFree ⟨0⟩ := .intro hword rfl (by simp [Shape.operands])
  have column : s.types.HybridFree ⟨1⟩ := .intro hcolumn rfl (by simpa [Shape.operands] using word)
  have columns : s.types.HybridFree ⟨2⟩ :=
    .intro hcolumns rfl (by simpa [Shape.operands] using column)
  refine ⟨s, reachable, hids, ?_⟩
  exact reachable.canonical_alike_iff_eq.1 ⟨1⟩ (by simp [hids]) ⟨2⟩ (by simp [hids]) column columns

end ShaderTypes.Store
