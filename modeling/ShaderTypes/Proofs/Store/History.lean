import ShaderTypes.Proofs.Lowering.Touches
import ShaderTypes.Proofs.Store.Scopes
import ShaderTypes.Proofs.TypeTable.Section

/-!
# Histories

What a module is written from is kept in four lists: the types, the debug types under their keys,
the debug types under no key, and the source files.  An operation adds to these lists at their ends
and never moves what is in them.  Only listing a node under a type that has one already puts it in
the place of the other.

The files are in the order in which they were touched first, by the caller or by lowering a record
or a field that is declared in them: `Store.touchedAll` tells which files a session touches.
-/

namespace ShaderTypes

namespace Store

/-- The files that an operation touches, in order and with repetitions. -/
def touched (s : Store) : Operation → List String
  | .openFile name | .pushScope name _ | .popScope name => [name]
  | .lower _ a => s.trail a
  | .lowerComposite _ a struct record => s.compositeTrail a struct record
  | .lowerModule _ m => (m.instructions.filterMap s.type?).flatMap s.trail
  | _ => []

/-- The files that a session touches, in order and with repetitions. -/
def touchedAll (s : Store) : List Operation → List String
  | [] => []
  | op :: ops => s.touched op ++
    match s.run op with
    | .ok (_, t) => t.touchedAll ops
    | .error _ => []

variable {s t : Store} {op : Operation} {reply : Reply} {key : Option TypeId} {n : NodeId}
  {b : BuilderId} {e : Debug.Entry}

/-! ### Lists that grow at their ends -/

lemma keys_isPrefix_insert {κ ν : Type} [DecidableEq κ] {m : OrderedMap κ ν} {k : κ} {v : ν} :
    m.keys <+: (m.insert k v).keys := by
  rw [OrderedMap.keys_insert]
  split
  · exact List.prefix_refl _
  · exact List.prefix_append _ _

/-- A key that is there keeps its place when its value is replaced. -/
lemma keys_insert_of_get? {κ ν : Type} [DecidableEq κ] {m : OrderedMap κ ν} {k : κ} {v w : ν}
    (h : m.get? k = some v) : (m.insert k w).keys = m.keys := by
  rw [OrderedMap.keys_insert, if_pos]
  by_contra hnone
  cases h.symm.trans (OrderedMap.get?_eq_none_iff.2 hnone)

lemma Edit.isPrefix (h : Edit s t) :
    s.debugTypes.keys <+: t.debugTypes.keys ∧ s.unkeyed <+: t.unkeyed := by
  cases h with
  | list => exact ⟨keys_isPrefix_insert, List.prefix_refl _⟩
  | listUnkeyed => exact ⟨List.prefix_refl _, List.prefix_append _ _⟩
  | _ => exact ⟨List.prefix_refl _, List.prefix_refl _⟩

lemma Edits.isPrefix (h : Edits s t) :
    s.debugTypes.keys <+: t.debugTypes.keys ∧ s.unkeyed <+: t.unkeyed := by
  induction h with
  | refl => exact ⟨List.prefix_refl _, List.prefix_refl _⟩
  | step _ edit ih => exact ⟨ih.1.trans edit.isPrefix.1, ih.2.trans edit.isPrefix.2⟩

/-! ### What is listed under a key -/

lemma get?_keyedNode {k : Option TypeId} (h : s.debugTypes.get? key = some n) :
    (s.keyedNode k e).2.debugTypes.get? key = some n := by
  by_cases hkey : key = k
  · rw [← hkey, keyedNode_of_get? h]
    exact h
  · rwa [get?_debugTypes_keyedNode_of_ne hkey]

lemma get?_of_changes {keys : Store → TypeId → Prop} {base : Nat}
    (changes : Lowering.Changes b keys base s t) (h : s.debugTypes.get? key = some n) :
    t.debugTypes.get? key = some n := by
  refine changes.induction (P := fun r => r.debugTypes.get? key = some n) h fun r r' change hr => ?_
  obtain ⟨more, hmore, -⟩ := change.keyed
  exact OrderedMap.get?_append hmore hr

/-- A node stays under its key unless another one is listed under the same type, in its place. -/
lemma get?_of_run (h : s.run op = .ok (reply, t)) (hn : s.debugTypes.get? key = some n) :
    t.debugTypes.get? key = some n ∨ ∃ a m, op = .recordDebugType a m ∧ key = some a ∧
      t.debugTypes.get? key = some m ∧ t.debugTypes.keys = s.debugTypes.keys := by
  have idle (debugTypes : t.debugTypes = s.debugTypes) :
      t.debugTypes.get? key = some n ∨ ∃ a m, op = .recordDebugType a m ∧ key = some a ∧
        t.debugTypes.get? key = some m ∧ t.debugTypes.keys = s.debugTypes.keys :=
    Or.inl (debugTypes ▸ hn)
  cases effect_of_run h with
  | idle => exact idle rfl
  | types => exact idle rfl
  | add => exact idle rfl
  | keyed => exact Or.inl (get?_keyedNode hn)
  | unkeyed => exact idle rfl
  | fill fills => cases fills <;> exact idle rfl
  | opened => exact idle debugTypes_openFile
  | pushScope => exact idle debugTypes_openFile
  | popScope popped =>
    obtain ⟨file, scope, -, rfl⟩ := popScope_eq_ok popped
    exact idle debugTypes_openFile
  | saveFunction => exact idle rfl
  | @recordDebugType a m =>
    by_cases hkey : key = some a
    · subst hkey
      exact Or.inr ⟨a, m, rfl, rfl, OrderedMap.get?_insert_self, keys_insert_of_get? hn⟩
    · exact Or.inl ((OrderedMap.get?_insert_of_ne hkey).trans hn)
  | template _ attached => rcases template_eq_ok attached with rfl | ⟨m, rfl⟩ <;> exact idle rfl
  | lower _ lowered => exact Or.inl (get?_of_changes (lower_changes lowered) hn)
  | lowerComposite _ lowered =>
    exact Or.inl (get?_of_changes (lowerComposite_changes lowered) hn)
  | lowerModule _ walk => exact Or.inl ((extends_of_walk walk).get?_debugTypes hn)

/-! ### Files in the order of their first touch -/

/-- An operation touches its files, and those that are new go to the end. -/
lemma files_of_run (sound : s.Sound) (h : s.run op = .ok (reply, t)) :
    t.files.keys = (s.touched op).foldl touch s.files.keys := by
  cases effect_of_run h with
  | idle idles => cases idles <;> rfl
  | types grants => cases grants <;> rfl
  | add adds => cases adds <;> rfl
  | keyed lists => cases lists <;> exact congrArg OrderedMap.keys files_keyedNode
  | unkeyed lists => cases lists <;> rfl
  | fill fills => cases fills <;> rfl
  | opened opens => cases opens <;> exact keys_openFile
  | pushScope => exact (keys_insert_of_get? get?_files_openFile).trans keys_openFile
  | popScope popped =>
    obtain ⟨file, scope, known, rfl⟩ := popScope_eq_ok popped
    exact (keys_insert_of_get? known).trans keys_openFile
  | saveFunction => rfl
  | recordDebugType => rfl
  | template _ attached => rcases template_eq_ok attached with rfl | ⟨m, rfl⟩ <;> rfl
  | lower known lowered => exact (touches_lower lowered sound.types known).files
  | lowerComposite known lowered => exact files_of_lowerComposite lowered sound known
  | lowerModule known walk => exact (touches_of_walk walk sound known).files

/-- A session touches its files one after the other. -/
lemma files_of_runAll {ops : List Operation} {replies : List Reply} (sound : s.Sound)
    (h : s.runAll ops = .ok (replies, t)) :
    t.files.keys = (s.touchedAll ops).foldl touch s.files.keys := by
  induction ops generalizing s replies with
  | nil =>
    cases h
    rfl
  | cons op ops ih =>
    obtain ⟨reply, r, replies', hop, hops, -⟩ := runAll_cons_eq_ok h
    rw [ih ((run_edits hop).sound sound) hops, files_of_run sound hop, touchedAll, hop,
      List.foldl_append]

/-! ### Files that are known -/

/-- A file keeps its source node and its compilation unit. -/
lemma Filing.get?_files {name : String} {file : Debug.File} (h : s.Filing op reply t)
    (hfile : s.files.get? name = some file) :
    ∃ file', t.files.get? name = some file' ∧ file'.source = file.source ∧
      file'.unit = file.unit := by
  cases h with
  | opening opens => exact ⟨file, opens.kept hfile, rfl, rfl⟩
  | @pushed r name' scope file' opens known =>
    by_cases hname : name = name'
    · subst hname
      obtain rfl : file = file' := Option.some.inj ((opens.kept hfile).symm.trans known)
      exact ⟨_, OrderedMap.get?_insert_self, rfl, rfl⟩
    · exact ⟨file, (OrderedMap.get?_insert_of_ne hname).trans (opens.kept hfile), rfl, rfl⟩
  | @popped r name' scope file' opens known =>
    by_cases hname : name = name'
    · subst hname
      obtain rfl : file = file'.push scope := Option.some.inj ((opens.kept hfile).symm.trans known)
      exact ⟨_, OrderedMap.get?_insert_self, rfl, rfl⟩
    · exact ⟨file, (OrderedMap.get?_insert_of_ne hname).trans (opens.kept hfile), rfl, rfl⟩

/-- In every session no key and no file is listed twice, and the files are listed as they were
touched first.  Whatever operation comes next only adds to the keys, the nodes under no key, the
types and the files at their ends.  A node stays under its key, unless another one is listed under
the same type, in its place.  A file keeps its source node and its compilation unit, which say what
they said. -/
theorem history_of_runAll {options : Options} {ops : List Operation} {replies : List Reply}
    (h : (Store.new options).runAll ops = .ok (replies, s)) :
    s.debugTypes.keys.Nodup ∧ s.files.keys.Nodup ∧
    s.files.keys = ((Store.new options).touchedAll ops).eraseDups ∧
    ∀ op reply t, s.run op = .ok (reply, t) →
      s.debugTypes.keys <+: t.debugTypes.keys ∧ s.unkeyed <+: t.unkeyed ∧
      s.types.canonical <+: t.types.canonical ∧ s.files.keys <+: t.files.keys ∧
      (∀ key n, s.debugTypes.get? key = some n → t.debugTypes.get? key = some n ∨
        ∃ a m, op = .recordDebugType a m ∧ key = some a ∧ t.debugTypes.get? key = some m ∧
          t.debugTypes.keys = s.debugTypes.keys) ∧
      ∀ name file, s.files.get? name = some file →
        (∃ file', t.files.get? name = some file' ∧ file'.source = file.source ∧
          file'.unit = file.unit) ∧
        s.nodes.entry? file.source = some (.source { file := name }) ∧
        t.nodes.entry? file.source = s.nodes.entry? file.source ∧
        ∃ u, s.nodes.entry? file.unit = some (.compilationUnit u) ∧ u.source = file.source ∧
          t.nodes.entry? file.unit = s.nodes.entry? file.unit := by
  have sound : s.Sound := (runAll_edits h).sound (sound_new options)
  have files := files_of_runAll (sound_new options) h
  refine ⟨sound.keys, files ▸ nodup_foldl_touch List.nodup_nil, files.trans foldl_touch_nil, ?_⟩
  intro op reply t hop
  have edits := run_edits hop
  refine ⟨edits.isPrefix.1, edits.isPrefix.2, TypeTable.canonical_isPrefix edits.grows.shapes_le,
    ?_, fun key n hn => get?_of_run hop hn, fun name file hfile => ?_⟩
  · rw [files_of_run sound hop]
    exact prefix_foldl_touch
  · have documents := ((replays_new options name).runAll h).documents hfile
    obtain ⟨u, hunit, hu⟩ := documents.unit
    have kept := keeps_of_run hop
    exact ⟨(filing_of_run hop).get?_files hfile, documents.source,
      (kept.entry?_eq documents.source rfl).trans documents.source.symm, u, hunit, hu,
      (kept.entry?_eq hunit rfl).trans hunit.symm⟩

/-- A struct whose record is declared in one file and its field in another. -/
def splitStruct : Struct where
  name := "In"
  fields := [{ type := ⟨0⟩ }]
  record := some
    { id := ⟨0⟩, name := "In", keyword := .structKeyword, location := ⟨"b.hlsl", 1, 1⟩
      members := [.field { id := ⟨0⟩, name := "x", location := ⟨"z.hlsl", 2, 3⟩ }] }

/-- A struct with a field of the other one. -/
def includingStruct : Struct where
  name := "Out"
  fields := [{ type := ⟨1⟩ }]
  record := some
    { id := ⟨1⟩, name := "Out", keyword := .structKeyword, location := ⟨"a.hlsl", 1, 1⟩
      members := [.field { id := ⟨1⟩, name := "in", location := ⟨"b.hlsl", 4, 3⟩ }] }

/-- A file is opened, and then the outer struct is lowered. -/
def includingSession : List Operation :=
  [.openFile "z.hlsl", .type .bool, .type (.struct splitStruct), .type (.struct includingStruct),
    .lower ⟨0⟩ ⟨2⟩]

/-- The files are listed as they were touched first, and a node that is listed under the truth value
afterwards takes the place of the other. -/
theorem history_of_runAll_includingSession : ∃ (replies : List Reply) (s t : Store),
    (Store.new {}).runAll includingSession = .ok (replies, s) ∧
    (Store.new {}).touchedAll includingSession =
      ["z.hlsl", "a.hlsl", "b.hlsl", "z.hlsl", "b.hlsl"] ∧
    s.files.keys = ["z.hlsl", "a.hlsl", "b.hlsl"] ∧
    s.run (.recordDebugType ⟨0⟩ ⟨0⟩) = .ok (.done, t) ∧
    s.debugTypes.keys = [some ⟨2⟩, some ⟨1⟩, some ⟨0⟩] ∧
    t.debugTypes.keys = [some ⟨2⟩, some ⟨1⟩, some ⟨0⟩] ∧
    t.debugTypes.get? (some ⟨0⟩) = some ⟨0⟩ := by
  obtain ⟨⟨replies, s⟩, hrun, hs⟩ := (Option.any_eq_true _ _).1 (show
    (((Store.new {}).runAll includingSession).toOption.any fun r =>
      r.2.debugTypes.entries = [(some ⟨2⟩, ⟨4⟩), (some ⟨1⟩, ⟨7⟩), (some ⟨0⟩, ⟨8⟩)] &&
      r.2.knows (.recordDebugType ⟨0⟩ ⟨0⟩)) = true
    by decide +kernel)
  simp only [Bool.and_eq_true, decide_eq_true_eq] at hs
  obtain ⟨hentries, hknows⟩ := hs
  have hsession := eq_ok_of_toOption hrun
  have touched : (Store.new {}).touchedAll includingSession =
      ["z.hlsl", "a.hlsl", "b.hlsl", "z.hlsl", "b.hlsl"] := by decide +kernel
  have replaced : s.run (.recordDebugType ⟨0⟩ ⟨0⟩) = .ok (.done, s.recordDebugType ⟨0⟩ ⟨0⟩) := by
    rw [run, if_pos hknows]
    rfl
  have keys : s.debugTypes.keys = [some ⟨2⟩, some ⟨1⟩, some ⟨0⟩] := by
    rw [OrderedMap.keys, hentries]
    rfl
  have before : s.debugTypes.get? (some ⟨0⟩) = some ⟨8⟩ := by
    rw [OrderedMap.get?, hentries]
    rfl
  have after : (s.recordDebugType ⟨0⟩ ⟨0⟩).debugTypes.get? (some ⟨0⟩) = some ⟨0⟩ :=
    OrderedMap.get?_insert_self
  obtain ⟨-, -, files, next⟩ := history_of_runAll hsession
  obtain ⟨-, -, -, -, replacing, -⟩ := next _ _ _ replaced
  rw [touched] at files
  rcases replacing (some ⟨0⟩) ⟨8⟩ before with hkept | ⟨_, _, -, -, -, hkeys⟩
  · cases after.symm.trans hkept
  · exact ⟨replies, s, _, hsession, touched, files, replaced, keys, hkeys.trans keys, after⟩

end Store

end ShaderTypes
