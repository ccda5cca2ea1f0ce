import ShaderTypes.Store.Basic

/-!
# Source files and their scopes

A source file is known to the store once its debug state is needed.  From then on it has a source
node, a compilation unit and a stack of open scopes of its own; the store also remembers which scope
was opened or returned to last, in whatever file.
-/

namespace ShaderTypes

/-- The version of the binary format that compilation units record: 1.0. -/
def spirvVersion : UInt32 := 0x10000

/-- The code of the source language that compilation units record. -/
def sourceLanguage : UInt32 := 5

namespace Store

/-- The debug state of a source file, created with its source node and its compilation unit when
the file is first needed. -/
def openFile (s : Store) (name : String) : Debug.File × Store :=
  match s.files.get? name with
  | some file => (file, s)
  | none =>
    let (source, s) := s.addNode (.source { file := name })
    let (unit, s) := s.addNode (.compilationUnit
      { spirvVersion, dwarfVersion := s.options.dwarfVersion, source, language := sourceLanguage })
    let file := { source, unit }
    (file, { s with files := s.files.insert name file })

/-- The store with a scope opened in a file. -/
def pushScope (s : Store) (name : String) (scope : NodeId) : Store :=
  let (file, s) := s.openFile name
  { s with files := s.files.insert name (file.push scope), currentScope := some scope }

/-- The store with the innermost scope of a file closed.  The compilation unit cannot be closed. -/
def popScope (s : Store) (name : String) : Except Refusal Store :=
  match (s.files.get? name).bind Debug.File.pop? with
  | some file =>
    .ok { s with files := s.files.insert name file, currentScope := some file.innermost }
  | none => .error (.scopeUnderflow name)

variable {s : Store} {name : String}

/-- A file that is known stays as it is. -/
theorem openFile_of_get? {file : Debug.File} (h : s.files.get? name = some file) :
    s.openFile name = (file, s) := by
  simp [openFile, h]

/-- A file is known once it was needed. -/
theorem get?_files_openFile : (s.openFile name).2.files.get? name = some (s.openFile name).1 := by
  unfold openFile
  split <;> simp_all

/-- What closing a scope leaves of the store. -/
theorem popScope_eq_ok {t : Store} (h : s.popScope name = .ok t) : ∃ file scope,
    s.files.get? name = some (file.push scope) ∧
      t = { s with files := s.files.insert name file, currentScope := some file.innermost } := by
  rw [popScope] at h
  split at h
  case h_2 => cases h
  case h_1 file hfile =>
  obtain ⟨opened, hopened, hpop⟩ := Option.bind_eq_some_iff.1 hfile
  obtain ⟨scope, rfl⟩ := Debug.File.pop?_eq_some_iff.1 hpop
  exact ⟨file, scope, hopened, (Except.ok.inj h).symm⟩

end Store

end ShaderTypes
