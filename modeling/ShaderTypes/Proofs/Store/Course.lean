import ShaderTypes.Proofs.Store.Advance
import ShaderTypes.Proofs.Store.LoweringBuilt

/-!
# The course of a session

A session that leaves the debug types to lowering is a list of lowerings with other things done
aside.  `Store.Course` keeps the types that are lowered in it, the roots: those of the operations
that lower a type, and those of the variables and functions in the modules that are completed.
What is done aside leaves the registry as it is, and mentions known nodes only.

An invariant that speaks of the registry has to be checked for the two kinds of steps.
-/

namespace ShaderTypes

/-- The types that an operation lowers: one, or those of the variables and functions in a module,
as the given store tells them. -/
def Operation.roots (s : Store) : Operation → List TypeId
  | .lower _ a => [a]
  | .lowerModule _ m => m.instructions.filterMap s.type?
  | _ => []

namespace Store

/-- Something done aside: it adds types, may save other functions for methods and open files, and
leaves the registry. -/
structure Aside (s t : Store) : Prop where
  edits : Edits s t
  debugTypes : t.debugTypes = s.debugTypes
  methods : ∀ {id : Decl.MethodId}, t.function? id = none → s.function? id = none
  functions : ∀ {id : Decl.MethodId} {n : NodeId}, t.function? id = some n →
    s.function? id = some n ∨ n.index < s.nodes.size
  files : ∀ {name : String} {file : Debug.File}, t.files.get? name = some file →
    (∃ file', s.files.get? name = some file' ∧ file.source = file'.source ∧
      file.unit = file'.unit) ∨ file.source.index < t.nodes.size ∧ file.unit.index < t.nodes.size

/-- The course of a session, with the types that are lowered in it. -/
inductive Course (s : Store) : List TypeId → Store → Prop
  | refl : Course s [] s
  | aside {as : List TypeId} {t u : Store} (h : Course s as t) (aside : Aside t u) : Course s as u
  | lower {as : List TypeId} {t u : Store} {b : BuilderId} {a : TypeId} {n : NodeId}
      (h : Course s as t) (known : a.index < t.types.size)
      (run : ShaderTypes.lower b a t = .ok (n, u)) : Course s (as ++ [a]) u

variable {s t u : Store} {as as' : List TypeId} {a : TypeId} {n d : NodeId} {b : BuilderId}
  {op : Operation} {reply : Reply}

lemma Course.trans (h : Course s as t) (h' : Course t as' u) : Course s (as ++ as') u := by
  induction h' with
  | refl => rwa [List.append_nil]
  | aside _ aside ih => exact ih.aside aside
  | lower _ known run ih =>
    rw [← List.append_assoc]
    exact ih.lower known run

/-! ### What is done aside -/

lemma aside_of_eq (edits : Edits s t) (debugTypes : t.debugTypes = s.debugTypes)
    (methods : t.methods = s.methods) (files : t.files = s.files) : Aside s t where
  edits := edits
  debugTypes := debugTypes
  methods := by
    intro id h
    rwa [function?, methods] at h
  functions := by
    intro id n h
    rw [function?, methods] at h
    exact Or.inl h
  files := by
    intro name file h
    rw [files] at h
    exact Or.inl ⟨file, h, rfl, rfl⟩

lemma aside_modifyNode {f : Debug.Node → Debug.Node} (edits : Edits s (s.modifyNode n f)) :
    Aside s (s.modifyNode n f) :=
  aside_of_eq edits rfl rfl rfl

lemma aside_stamp : Aside s (s.stamp n b) :=
  aside_of_eq edits_stamp rfl rfl rfl

/-- The source and the unit of a file that was opened are known. -/
lemma files_openFile_cases {name name' : String} {file : Debug.File}
    (h : (s.openFile name).2.files.get? name' = some file) :
    s.files.get? name' = some file ∨
      name' = name ∧ s.files.get? name = none ∧ file.source = ⟨s.nodes.size⟩ ∧
        file.unit = ⟨s.nodes.size + 1⟩ ∧ (s.openFile name).2.nodes.size = s.nodes.size + 2 := by
  rcases hfile : s.files.get? name with _ | known
  · rw [openFile_of_get?_eq_none hfile] at h ⊢
    by_cases hname : name' = name
    · subst hname
      cases OrderedMap.get?_insert_self.symm.trans h
      exact Or.inr ⟨rfl, rfl, rfl, rfl, by simp⟩
    · exact Or.inl ((OrderedMap.get?_insert_of_ne hname).symm.trans h)
  · rw [openFile_of_get? hfile] at h
    exact Or.inl h

lemma aside_openFile {name : String} : Aside s (s.openFile name).2 where
  edits := edits_openFile
  debugTypes := debugTypes_openFile
  methods := by
    intro id h
    rwa [function?, methods_openFile] at h
  functions := by
    intro id n h
    rw [function?, methods_openFile] at h
    exact Or.inl h
  files := by
    intro name' file h
    rcases files_openFile_cases h with h | ⟨-, -, hsource, hunit, hsize⟩
    · exact Or.inl ⟨file, h, rfl, rfl⟩
    · rw [hsource, hunit, hsize]
      exact Or.inr ⟨Nat.lt_add_of_pos_right (by decide), Nat.lt_succ_self _⟩

/-- A file of which the open scopes change keeps its source and its unit. -/
lemma aside_insertFile {name : String} {file opened : Debug.File} {scope : Option NodeId}
    (h : s.files.get? name = some file) (source : opened.source = file.source)
    (unit : opened.unit = file.unit) :
    Aside s { s with files := s.files.insert name opened, currentScope := scope } where
  edits := Edit.rest.edits
  debugTypes := rfl
  methods := id
  functions := Or.inl
  files := by
    intro name' file' hfile
    by_cases hname : name' = name
    · subst hname
      obtain rfl : opened = file' := Option.some.inj (OrderedMap.get?_insert_self.symm.trans hfile)
      exact Or.inl ⟨file, h, source, unit⟩
    · exact Or.inl ⟨file', (OrderedMap.get?_insert_of_ne hname).symm.trans hfile, rfl, rfl⟩

lemma aside_saveFunction {method : Decl.MethodId} (known : n.index < s.nodes.size) :
    Aside s (s.saveFunction method n) where
  edits := Edit.rest.edits
  debugTypes := rfl
  methods := by
    intro id h
    by_cases hid : id = method
    · subst hid
      cases OrderedMap.get?_insert_self.symm.trans h
    · exact (OrderedMap.get?_insert_of_ne hid).symm.trans h
  functions := by
    intro id m h
    by_cases hid : id = method
    · subst hid
      obtain rfl : n = m := Option.some.inj (OrderedMap.get?_insert_self.symm.trans h)
      exact Or.inr known
    · exact Or.inl ((OrderedMap.get?_insert_of_ne hid).symm.trans h)
  files := fun h => Or.inl ⟨_, h, rfl, rfl⟩

lemma aside_template {target template : NodeId} (h : s.template a target = .ok (template, t)) :
    Aside s t := by
  have edits := edits_template h
  rcases template_eq_ok h with rfl | ⟨n, rfl⟩
  · exact aside_of_eq edits rfl rfl rfl
  · exact aside_of_eq edits rfl rfl rfl

lemma course_pushScope {name : String} {scope : NodeId} : Course s [] (s.pushScope name scope) :=
  (Course.refl.aside aside_openFile).aside (aside_insertFile get?_files_openFile rfl rfl)

lemma course_popScope {name : String} (h : (s.openFile name).2.popScope name = .ok t) :
    Course s [] t := by
  obtain ⟨file, scope, hopened, rfl⟩ := popScope_eq_ok h
  exact (Course.refl.aside aside_openFile).aside (aside_insertFile hopened rfl rfl)

/-! ### The types of nodes -/

lemma Edit.type?_eq (h : Edit s t) (known : n.index < s.nodes.size) : t.type? n = s.type? n := by
  cases h with
  | addNode =>
    rw [type?, type?, Debug.NodeTable.entry?, Debug.NodeTable.entry?, Store.addNode,
      Debug.NodeTable.node?_push_of_lt known]
  | @modifyNode m f type =>
    rw [type?, type?, Debug.NodeTable.entry?, Debug.NodeTable.entry?, Store.modifyNode,
      Debug.NodeTable.node?_modify]
    split
    · rw [Option.map_map, Option.bind_map, Option.bind_map]
      exact congrArg _ (funext fun node => type node)
    · rfl
  | _ => rfl

lemma Edit.size_le (h : Edit s t) : s.nodes.size ≤ t.nodes.size := by
  cases h with
  | addNode => exact Nat.le_of_lt (by simp [Store.addNode])
  | modifyNode => exact Nat.le_of_eq Debug.NodeTable.size_modify.symm
  | _ => exact Nat.le_refl _

lemma Edits.size_le (h : Edits s t) : s.nodes.size ≤ t.nodes.size :=
  h.induction (P := fun r => s.nodes.size ≤ r.nodes.size) (Nat.le_refl _) fun _ _ edit ih =>
    Nat.le_trans ih edit.size_le

/-- The type of a variable or a function that there is stays. -/
lemma Edits.type?_eq (h : Edits s t) (known : n.index < s.nodes.size) : t.type? n = s.type? n := by
  induction h with
  | refl => rfl
  | step before edit ih => exact (edit.type?_eq (Nat.lt_of_lt_of_le known before.size_le)).trans ih

lemma Course.edits (h : Course s as t) : Edits s t := by
  induction h with
  | refl => exact .refl
  | aside _ aside ih => exact ih.trans aside.edits
  | lower _ _ run ih => exact ih.trans (edits_of_changes (lower_changes run))

/-! ### Sessions -/

/-- Completing a module lowers the types of its variables and functions. -/
lemma course_of_walk {instructions : List NodeId} (h : Lowering.Walk b instructions s t)
    (sound : s.Sound) (known : ∀ n ∈ instructions, n.index < s.nodes.size) :
    Course s (instructions.filterMap t.type?) t := by
  induction h with
  | nil => exact .refl
  | @untyped n rest s t htype tail ih =>
    have stamp : Edits s (s.stamp n b) := edits_stamp
    obtain ⟨hn, hrest⟩ := List.forall_mem_cons.1 known
    have htail := ih (stamp.sound sound) fun m hm => Nat.lt_of_lt_of_le (hrest m hm) stamp.size_le
    have hnone : t.type? n = none :=
      (htail.edits.type?_eq (Nat.lt_of_lt_of_le hn stamp.size_le)).trans htype
    rw [List.filterMap_cons_none hnone]
    exact (Course.refl.aside aside_stamp).trans htail
  | @typed n d a rest s s' t htype lowered tail ih =>
    have stamp : Edits s (s.stamp n b) := edits_stamp
    have lower := edits_of_changes (lower_changes lowered)
    have set : Edits s' (s'.withDebugType n d) := edits_withDebugType
    have before := (stamp.trans lower).trans set
    obtain ⟨hn, hrest⟩ := List.forall_mem_cons.1 known
    have htail := ih (before.sound sound) fun m hm => Nat.lt_of_lt_of_le (hrest m hm) before.size_le
    have hsome : t.type? n = some a :=
      (((lower.trans set).trans htail.edits).type?_eq (Nat.lt_of_lt_of_le hn stamp.size_le)).trans
        htype
    have ha := (stamp.sound sound).typed htype
    rw [List.filterMap_cons_some hsome]
    have head := (Course.refl.aside aside_stamp).lower ha lowered
    exact (head.aside (aside_modifyNode set)).trans htail

/-- What an operation that leaves the debug types to lowering does to the store. -/
theorem course_of_run (sound : s.Sound) (leaves : op.leavesDebugTypes = true)
    (h : s.run op = .ok (reply, t)) : Course s (op.roots t) t := by
  have edits := run_edits h
  have simple (debugTypes : t.debugTypes = s.debugTypes) (methods : t.methods = s.methods)
      (files : t.files = s.files) : Course s [] t :=
    Course.refl.aside (aside_of_eq edits debugTypes methods files)
  cases effect_of_run h with
  | idle idles => cases idles <;> exact simple rfl rfl rfl
  | types grants => cases grants <;> exact simple rfl rfl rfl
  | add adds => cases adds <;> exact simple rfl rfl rfl
  | keyed lists => cases lists <;> cases leaves
  | unkeyed lists =>
    cases lists with
    | member => cases leaves
    | templateParameter => exact simple rfl rfl rfl
  | fill fills => cases fills <;> exact simple rfl rfl rfl
  | opened opens => cases opens <;> exact Course.refl.aside aside_openFile
  | pushScope => exact course_pushScope
  | popScope popped => exact course_popScope popped
  | saveFunction known => exact Course.refl.aside (aside_saveFunction known)
  | recordDebugType => cases leaves
  | template _ attached => exact Course.refl.aside (aside_template attached)
  | lower known lowered => exact Course.refl.lower known lowered
  | lowerComposite => cases leaves
  | lowerModule known walk => exact course_of_walk walk sound known

/-- The roots of an operation are the same in every later store. -/
lemma roots_eq (known : ∀ n ∈ op.nodes, n.index < s.nodes.size) (h : Edits s t) :
    op.roots t = op.roots s := by
  cases op with
  | lowerModule b m =>
    refine List.filterMap_congr fun n hn => h.type?_eq (known n ?_)
    exact List.mem_append_left _ hn
  | _ => rfl

/-- A session lowers the roots of its operations. -/
theorem course_of_runAll {ops : List Operation} {replies : List Reply} (sound : s.Sound)
    (leaves : ∀ op ∈ ops, op.leavesDebugTypes = true) (h : s.runAll ops = .ok (replies, t)) :
    Course s (ops.flatMap (·.roots t)) t := by
  induction ops generalizing s replies with
  | nil =>
    cases h
    exact .refl
  | cons op ops ih =>
    obtain ⟨reply, r, replies', hop, hops, -⟩ := runAll_cons_eq_ok h
    obtain ⟨hleaves, hrest⟩ := List.forall_mem_cons.1 leaves
    have later := runAll_edits hops
    have before := run_edits hop
    have hroots : op.roots t = op.roots r := by
      refine roots_eq (fun n hn => ?_) later
      exact Nat.lt_of_lt_of_le ((run_eq_ok hop).2.1 n hn) before.size_le
    rw [List.flatMap_cons, hroots]
    exact (course_of_run sound hleaves hop).trans (ih (before.sound sound) hrest hops)

/-- A store of such a session is reached along a course from a new one. -/
lemma LeftToLowering.exists_course (h : s.LeftToLowering) :
    ∃ options as, Course (Store.new options) as s := by
  obtain ⟨options, ops, replies, leaves, hops⟩ := h
  exact ⟨options, _, course_of_runAll (sound_new options) leaves hops⟩

end Store

end ShaderTypes
