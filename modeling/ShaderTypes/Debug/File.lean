import ShaderTypes.Handle

/-!
# Scopes of a source file

Every source file has a compilation unit as its outermost scope, and further scopes open and close
inside it.  The compilation unit itself never closes, so it is kept apart from the scopes opened
inside, and no stack of scopes can be empty.
-/

namespace ShaderTypes.Debug

/-- The debug state of one source file. -/
structure File where
  /-- The source node. -/
  source : NodeId
  /-- The compilation unit. -/
  unit : NodeId
  /-- The scopes open inside the compilation unit, the innermost first. -/
  opened : List NodeId := []
deriving DecidableEq

namespace File

/-- The open scopes, from the compilation unit inwards. -/
def scopes (f : File) : List NodeId :=
  f.unit :: f.opened.reverse

/-- The number of open scopes. -/
def depth (f : File) : Nat :=
  f.scopes.length

/-- The innermost open scope. -/
def innermost (f : File) : NodeId :=
  f.opened.headD f.unit

/-- The file with one more scope open. -/
def push (f : File) (scope : NodeId) : File :=
  { f with opened := scope :: f.opened }

/-- The file with the innermost scope closed, unless that is the compilation unit. -/
def pop? (f : File) : Option File :=
  match f.opened with
  | [] => none
  | _ :: outer => some { f with opened := outer }

variable {f : File} {scope : NodeId}

theorem scopes_push : (f.push scope).scopes = f.scopes ++ [scope] := by
  simp [scopes, push]

theorem depth_push : (f.push scope).depth = f.depth + 1 := by
  simp [depth, scopes_push]

@[simp]
theorem innermost_push : (f.push scope).innermost = scope := rfl

/-- The innermost scope is the last one. -/
theorem getLast?_scopes : f.scopes.getLast? = some f.innermost := by
  obtain ⟨source, unit, opened⟩ := f
  cases opened <;> simp [scopes, innermost, List.getLast?_cons]

/-- Closing undoes opening. -/
theorem pop?_push : (f.push scope).pop? = some f := rfl

/-- Only what was opened closes. -/
theorem pop?_eq_some_iff {g : File} : f.pop? = some g ↔ ∃ scope, f = g.push scope := by
  constructor
  · intro h
    obtain ⟨source, unit, opened⟩ := f
    cases opened with
    | nil => cases h
    | cons scope outer =>
      cases h
      exact ⟨scope, rfl⟩
  · rintro ⟨scope, rfl⟩
    exact pop?_push

/-- Only the compilation unit cannot be closed. -/
theorem pop?_eq_none_iff : f.pop? = none ↔ f.depth = 1 := by
  obtain ⟨source, unit, opened⟩ := f
  cases opened <;> simp [pop?, depth, scopes]

end File

end ShaderTypes.Debug
