import ShaderTypes.Proofs.Lowering.Account
import ShaderTypes.Proofs.Store.Keeping

/-!
# What operations do to files

Most operations leave the source files alone.  Some make files known, with no scope open in them,
and only two open and close scopes.  `Store.Filing` takes an operation apart accordingly: files are
opened first, whatever the operation is, and then a scope is opened in one of them or closed.

What the source node and the compilation unit of a file say never changes, whatever the operation.
-/

namespace ShaderTypes

/-- What is done to the scopes of a file. -/
inductive ScopeMove where
  /-- A scope is opened. -/
  | opened (scope : NodeId)
  /-- The innermost scope is closed. -/
  | closed
deriving DecidableEq

namespace ScopeMove

/-- The open scopes after a move. -/
def apply (scopes : List NodeId) : ScopeMove → List NodeId
  | .opened scope => scopes ++ [scope]
  | .closed => scopes.dropLast

/-- Whether a scope is opened. -/
def isOpened : ScopeMove → Bool
  | .opened _ => true
  | .closed => false

end ScopeMove

/-- What an operation does to the scopes of the file of the given name, given the answer: a scope is
not closed when the request is turned down. -/
def Operation.scopeMove? (name : String) (reply : Reply) : Operation → Option ScopeMove
  | .pushScope file scope => if file = name then some (.opened scope) else none
  | .popScope file => if file = name ∧ reply = .done then some .closed else none
  | _ => none

namespace Store

/-- What the source node and the compilation unit of a file say. -/
structure Documents (s : Store) (name : String) (file : Debug.File) : Prop where
  source : s.nodes.entry? file.source = some (.source { file := name })
  unit : ∃ u, s.nodes.entry? file.unit = some (.compilationUnit u) ∧ u.source = file.source

/-- A later store in which some more files may be known, and no scope was opened or closed. -/
structure Opening (s t : Store) : Prop where
  kept : ∀ {name : String} {file : Debug.File}, s.files.get? name = some file →
    t.files.get? name = some file
  fresh : ∀ {name : String} {file : Debug.File}, t.files.get? name = some file →
    s.files.get? name = some file ∨
      s.files.get? name = none ∧ file.opened = [] ∧ t.Documents name file
  currentScope : t.currentScope = s.currentScope

/-- What an operation does to the files: they are opened, and then a scope may be opened or
closed. -/
inductive Filing (s : Store) : Operation → Reply → Store → Prop
  | opening {op : Operation} {reply : Reply} {t : Store} (opens : s.Opening t)
      (still : ∀ name, op.scopeMove? name reply = none) : Filing s op reply t
  | pushed {r : Store} {name : String} {scope : NodeId} {file : Debug.File} (opens : s.Opening r)
      (known : r.files.get? name = some file) :
      Filing s (.pushScope name scope) .done
        { r with files := r.files.insert name (file.push scope), currentScope := some scope }
  | popped {r : Store} {name : String} {scope : NodeId} {file : Debug.File} (opens : s.Opening r)
      (known : r.files.get? name = some (file.push scope)) :
      Filing s (.popScope name) .done
        { r with files := r.files.insert name file, currentScope := some file.innermost }

variable {s t u : Store} {a : TypeId} {n d : NodeId} {b : BuilderId} {name : String}
  {file : Debug.File} {op : Operation} {reply : Reply} {keys : Store → TypeId → Prop} {base : Nat}
  {sized closed : Prop}

/-! ### Files that are opened -/

/-- The nodes of a file say what they said. -/
lemma Documents.of_keeps (h : s.Documents name file) (after : s.Keeps sized closed t) :
    t.Documents name file := by
  obtain ⟨u, hunit, hsource⟩ := h.unit
  exact ⟨after.entry?_eq h.source rfl, u, after.entry?_eq hunit rfl, hsource⟩

lemma Opening.of_eq (files : t.files = s.files) (currentScope : t.currentScope = s.currentScope) :
    s.Opening t where
  kept := fun h => by rwa [files]
  fresh := fun h => Or.inl (by rwa [← files])
  currentScope := currentScope

lemma Opening.trans (h : s.Opening t) (h' : t.Opening u) (after : t.Keeps False False u) :
    s.Opening u where
  kept := fun hfile => h'.kept (h.kept hfile)
  fresh := by
    intro name file hfile
    rcases h'.fresh hfile with hfile | ⟨hnone, opened, documents⟩
    · exact (h.fresh hfile).imp_right fun ⟨hnone, opened, documents⟩ =>
        ⟨hnone, opened, documents.of_keeps after⟩
    · refine Or.inr ⟨?_, opened, documents⟩
      rcases hs : s.files.get? name with _ | known
      · rfl
      · cases hnone.symm.trans (h.kept hs)
  currentScope := h'.currentScope.trans h.currentScope

@[simp]
lemma currentScope_openFile : (s.openFile name).2.currentScope = s.currentScope := by
  unfold openFile
  split <;> rfl

@[simp]
lemma currentScope_keyedNode {key : Option TypeId} {e : Debug.Entry} :
    (s.keyedNode key e).2.currentScope = s.currentScope := by
  unfold keyedNode
  split <;> rfl

lemma opening_keyedNode {key : Option TypeId} {e : Debug.Entry} :
    s.Opening (s.keyedNode key e).2 :=
  .of_eq files_keyedNode currentScope_keyedNode

lemma opening_template {target template : NodeId} (h : s.template a target = .ok (template, t)) :
    s.Opening t := by
  rcases template_eq_ok h with rfl | ⟨n, rfl⟩
  · exact .of_eq rfl rfl
  · exact .of_eq rfl rfl

/-- Lowering opens files only. -/
lemma opening_of_changes (h : Lowering.Changes b keys base s t) : s.Opening t where
  kept := files_of_changes h
  fresh := fun hfile => (opened_of_changes h hfile).imp_right fun ⟨hnone, opened⟩ =>
    ⟨hnone, opened.opened, opened.source, _, opened.unit, rfl⟩
  currentScope := by
    refine h.induction (P := fun r => r.currentScope = s.currentScope) rfl fun r r' change hr => ?_
    rw [← hr]
    cases change with
    | openFile => exact currentScope_openFile
    | keyedNode => exact currentScope_keyedNode
    | _ => rfl

lemma opening_openFile : s.Opening (s.openFile name).2 := by
  have change : Lowering.Change ⟨0⟩ (fun _ _ => True) 0 s (s.openFile name).2 := .openFile name
  exact opening_of_changes change.changes

lemma opening_of_walk {instructions : List NodeId} (h : Lowering.Walk b instructions s t) :
    s.Opening t := by
  induction h with
  | nil => exact .of_eq rfl rfl
  | @untyped n _ s _ _ tail ih =>
    have stamp : s.Opening (s.stamp n b) := .of_eq rfl rfl
    exact stamp.trans ih (keeps_of_extends (extends_of_walk tail))
  | @typed n d _ _ s s' _ _ lowered tail ih =>
    have changes := lower_changes lowered
    have stamp : s.Opening (s.stamp n b) := .of_eq rfl rfl
    have set : s'.Opening (s'.withDebugType n d) := .of_eq rfl rfl
    exact ((stamp.trans (opening_of_changes changes) (keeps_of_changes changes)).trans set
      (keeps_of_extends extends_withDebugType)).trans ih (keeps_of_extends (extends_of_walk tail))

/-! ### Operations -/

/-- What an operation does to the files. -/
theorem filing_of_run (h : s.run op = .ok (reply, t)) : s.Filing op reply t := by
  have idle (files : t.files = s.files) (currentScope : t.currentScope = s.currentScope)
      (still : ∀ name, op.scopeMove? name reply = none) : s.Filing op reply t :=
    .opening (.of_eq files currentScope) still
  cases effect_of_run h with
  | idle idles => cases idles <;> exact idle rfl rfl fun _ => rfl
  | types grants => cases grants <;> exact idle rfl rfl fun _ => rfl
  | add adds => cases adds <;> exact idle rfl rfl fun _ => rfl
  | keyed lists => cases lists <;> exact .opening opening_keyedNode fun _ => rfl
  | unkeyed lists => cases lists <;> exact idle rfl rfl fun _ => rfl
  | fill fills => cases fills <;> exact idle rfl rfl fun _ => rfl
  | opened opens =>
    refine .opening opening_openFile fun _ => ?_
    cases opens <;> simp [Operation.scopeMove?]
  | pushScope => exact .pushed opening_openFile get?_files_openFile
  | popScope popped =>
    obtain ⟨file, scope, known, rfl⟩ := popScope_eq_ok popped
    exact .popped opening_openFile known
  | saveFunction => exact idle rfl rfl fun _ => rfl
  | recordDebugType => exact idle rfl rfl fun _ => rfl
  | template _ attached => exact .opening (opening_template attached) fun _ => rfl
  | lower _ lowered => exact .opening (opening_of_changes (lower_changes lowered)) fun _ => rfl
  | lowerComposite _ lowered =>
    exact .opening (opening_of_changes (lowerComposite_changes lowered)) fun _ => rfl
  | lowerModule _ walk => exact .opening (opening_of_walk walk) fun _ => rfl

end Store

end ShaderTypes
