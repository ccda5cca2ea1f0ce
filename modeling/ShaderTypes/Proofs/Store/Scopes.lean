import ShaderTypes.Proofs.Store.Files

/-!
# Scopes of files

Every file has a stack of open scopes of its own, with its compilation unit at the bottom.  Whatever
else a session does, the stack of a file is what its own moves make of it, the scopes that were
opened in it and those that were closed; a request to close the compilation unit is no move.

`Store.Replays` says this of one file, known or not, and goes along a session operation by
operation.
-/

namespace ShaderTypes

/-- What the operations of a session do to the scopes of the file of the given name, given the
answers. -/
def Operation.scopeMoves (name : String) (ops : List Operation) (replies : List Reply) :
    List ScopeMove :=
  (ops.zip replies).filterMap fun p => p.1.scopeMove? name p.2

namespace Store

/-- The scopes of a file are what the given moves make of the compilation unit alone.  A file that
is not known was not moved in. -/
structure Replays (s : Store) (name : String) (moves : List ScopeMove) : Prop where
  unknown : s.files.get? name = none → moves = []
  documents : ∀ {file : Debug.File}, s.files.get? name = some file → s.Documents name file
  scopes : ∀ {file : Debug.File}, s.files.get? name = some file →
    file.scopes = moves.foldl ScopeMove.apply [file.unit]
  depth : ∀ {file : Debug.File}, s.files.get? name = some file →
    file.depth + moves.countP (!·.isOpened) = 1 + moves.countP (·.isOpened)

variable {s t r : Store} {name name' : String} {file file' : Debug.File} {moves : List ScopeMove}
  {op : Operation} {reply : Reply} {sized closed : Prop}

lemma replays_new (options : Options) (name : String) : (Store.new options).Replays name [] where
  unknown := fun _ => rfl
  documents := fun h => by cases h
  scopes := fun h => by cases h
  depth := fun h => by cases h

/-- Files that are opened start with their compilation unit. -/
lemma Replays.of_opening (hs : s.Replays name moves) (h : s.Opening t)
    (after : s.Keeps sized closed t) : t.Replays name moves := by
  have new {file : Debug.File} (hnone : s.files.get? name = none) (opened : file.opened = []) :
      file.scopes = moves.foldl ScopeMove.apply [file.unit] ∧
        file.depth + moves.countP (!·.isOpened) = 1 + moves.countP (·.isOpened) := by
    rw [hs.unknown hnone]
    simp [Debug.File.depth, Debug.File.scopes, opened]
  refine ⟨fun hnone => hs.unknown ?_, fun hfile => ?_, fun hfile => ?_, fun hfile => ?_⟩
  · rcases hold : s.files.get? name with _ | file
    · rfl
    · cases hnone.symm.trans (h.kept hold)
  · rcases h.fresh hfile with hfile | ⟨-, -, documents⟩
    · exact (hs.documents hfile).of_keeps after
    · exact documents
  · rcases h.fresh hfile with hfile | ⟨hnone, opened, -⟩
    · exact hs.scopes hfile
    · exact (new hnone opened).1
  · rcases h.fresh hfile with hfile | ⟨hnone, opened, -⟩
    · exact hs.depth hfile
    · exact (new hnone opened).2

/-- A move in one file leaves every other file. -/
lemma Replays.insert_of_ne {scope : Option NodeId} (hs : s.Replays name moves) (h : name ≠ name') :
    Replays { s with files := s.files.insert name' file', currentScope := scope } name moves := by
  have same : (s.files.insert name' file').get? name = s.files.get? name :=
    OrderedMap.get?_insert_of_ne h
  refine ⟨fun hnone => hs.unknown (same ▸ hnone), fun hfile => ?_,
    fun hfile => hs.scopes (same ▸ hfile), fun hfile => hs.depth (same ▸ hfile)⟩
  exact ⟨(hs.documents (same ▸ hfile)).source, (hs.documents (same ▸ hfile)).unit⟩

/-- A scope is opened on top of the stack of its file. -/
lemma Replays.push {scope : NodeId} {current : Option NodeId} (hs : s.Replays name moves)
    (known : s.files.get? name = some file) :
    Replays { s with files := s.files.insert name (file.push scope), currentScope := current } name
      (moves ++ [.opened scope]) := by
  have self {file' : Debug.File}
      (h : (s.files.insert name (file.push scope)).get? name = some file') :
      file' = file.push scope := Option.some.inj (h.symm.trans OrderedMap.get?_insert_self)
  refine ⟨fun hnone => ?_, fun hfile => ?_, fun hfile => ?_, fun hfile => ?_⟩
  · cases hnone.symm.trans OrderedMap.get?_insert_self
  · rw [self hfile]
    exact ⟨(hs.documents known).source, (hs.documents known).unit⟩
  · rw [self hfile, Debug.File.scopes_push, List.foldl_append, hs.scopes known]
    rfl
  · have hdepth := hs.depth known
    rw [self hfile, Debug.File.depth_push]
    simp [ScopeMove.isOpened] at hdepth ⊢
    omega

/-- The innermost scope is taken off the stack of its file, where the compilation unit stays. -/
lemma Replays.pop {scope : NodeId} {current : Option NodeId} (hs : s.Replays name moves)
    (known : s.files.get? name = some (file.push scope)) :
    Replays { s with files := s.files.insert name file, currentScope := current } name
      (moves ++ [.closed]) := by
  have self {file' : Debug.File} (h : (s.files.insert name file).get? name = some file') :
      file' = file := Option.some.inj (h.symm.trans OrderedMap.get?_insert_self)
  refine ⟨fun hnone => ?_, fun hfile => ?_, fun hfile => ?_, fun hfile => ?_⟩
  · cases hnone.symm.trans OrderedMap.get?_insert_self
  · rw [self hfile]
    exact ⟨(hs.documents known).source, (hs.documents known).unit⟩
  · have hscopes := hs.scopes known
    rw [Debug.File.scopes_push] at hscopes
    have hunit : (file.push scope).unit = file.unit := rfl
    rw [self hfile, List.foldl_append, ← hunit, ← hscopes]
    exact List.dropLast_concat.symm
  · have hdepth := hs.depth known
    rw [Debug.File.depth_push] at hdepth
    rw [self hfile]
    simp [ScopeMove.isOpened] at hdepth ⊢
    omega

/-- An operation goes on with the replay of every file. -/
lemma Filing.replays (h : s.Filing op reply t) (after : s.Keeps sized closed t)
    (hs : s.Replays name moves) :
    t.Replays name (moves ++ (op.scopeMove? name reply).toList) := by
  cases h with
  | opening opens still =>
    rw [still name, Option.toList_none, List.append_nil]
    exact hs.of_opening opens after
  | @pushed r name' scope file opens known =>
    have hr : r.Replays name moves := hs.of_opening opens after
    by_cases hname : name' = name
    · subst hname
      simpa [Operation.scopeMove?] using hr.push known
    · simpa [Operation.scopeMove?, hname] using hr.insert_of_ne (Ne.symm hname)
  | @popped r name' scope file opens known =>
    have hr : r.Replays name moves := hs.of_opening opens after
    by_cases hname : name' = name
    · subst hname
      simpa [Operation.scopeMove?] using hr.pop known
    · simpa [Operation.scopeMove?, hname] using hr.insert_of_ne (Ne.symm hname)

/-- A session replays the moves in every file. -/
lemma Replays.runAll {ops : List Operation} {replies : List Reply} (hs : s.Replays name moves)
    (h : s.runAll ops = .ok (replies, t)) :
    t.Replays name (moves ++ Operation.scopeMoves name ops replies) := by
  induction ops generalizing s moves replies with
  | nil =>
    cases h
    simpa [Operation.scopeMoves] using hs
  | cons op ops ih =>
    obtain ⟨reply, r, replies', hop, hops, rfl⟩ := runAll_cons_eq_ok h
    have hr := ih ((filing_of_run hop).replays (keeps_of_run hop) hs) hops
    rw [List.append_assoc] at hr
    have hmoves : Operation.scopeMoves name (op :: ops) (reply :: replies') =
        (op.scopeMove? name reply).toList ++ Operation.scopeMoves name ops replies' := by
      rcases hmove : op.scopeMove? name reply with _ | move <;>
        simp [Operation.scopeMoves, hmove]
    rwa [hmoves]

/-- A scope of a known file is closed unless only the compilation unit is open; then the request is
turned down and nothing is changed. -/
lemma run_popScope (known : s.files.get? name = some file) :
    ∃ reply t, s.run (.popScope name) = .ok (reply, t) ∧
      (reply = .refused (.scopeUnderflow name) ↔ file.depth = 1) ∧
      (reply ≠ .done → reply = .refused (.scopeUnderflow name) ∧ t = s) := by
  have hknows : s.knows (.popScope name) = true := rfl
  rw [run, if_pos hknows, perform, openFile_of_get? known, popScope, known, Option.bind_some]
  rcases hpop : file.pop? with _ | outer
  · refine ⟨_, _, rfl, ?_, fun _ => ⟨rfl, rfl⟩⟩
    simpa using Debug.File.pop?_eq_none_iff.1 hpop
  · refine ⟨_, _, rfl, ?_, fun hdone => absurd rfl hdone⟩
    simpa using mt Debug.File.pop?_eq_none_iff.2 (by simp [hpop])

/-- In every session, the scopes of a file begin with its compilation unit, and they are what the
scopes opened in it and closed in it make of the compilation unit alone, so that there is one more
than were opened and not closed.  Closing a scope is turned down just when the compilation unit is
the only one, with the name of the file, and then nothing is changed.  A file that is not known had
no scope opened or closed. -/
theorem scopes_of_runAll {options : Options} {ops : List Operation} {replies : List Reply}
    (h : (Store.new options).runAll ops = .ok (replies, s)) :
    (∀ name file, s.files.get? name = some file →
      (∃ u, s.nodes.entry? file.unit = some (.compilationUnit u) ∧ u.source = file.source ∧
        s.nodes.entry? file.source = some (.source { file := name })) ∧
      file.scopes.head? = some file.unit ∧
      file.scopes = (Operation.scopeMoves name ops replies).foldl ScopeMove.apply [file.unit] ∧
      file.depth + (Operation.scopeMoves name ops replies).countP (!·.isOpened) =
        1 + (Operation.scopeMoves name ops replies).countP (·.isOpened) ∧
      ∃ reply t, s.run (.popScope name) = .ok (reply, t) ∧
        (reply = .refused (.scopeUnderflow name) ↔ file.depth = 1) ∧
        (reply ≠ .done → reply = .refused (.scopeUnderflow name) ∧ t = s)) ∧
    ∀ name, s.files.get? name = none → Operation.scopeMoves name ops replies = [] := by
  have replays (name : String) : s.Replays name (Operation.scopeMoves name ops replies) := by
    simpa using (replays_new options name).runAll h
  refine ⟨fun name file known => ?_, fun name hnone => (replays name).unknown hnone⟩
  obtain ⟨u, hunit, hsource⟩ := ((replays name).documents known).unit
  exact ⟨⟨u, hunit, hsource, ((replays name).documents known).source⟩, rfl,
    (replays name).scopes known, (replays name).depth known, run_popScope known⟩

/-- A block is opened twice in one file and closed once.  In another file the compilation unit of
the first is opened and closed, and then there is nothing left to close. -/
def scopeSession : List Operation :=
  [.openFile "a.hlsl", .lexicalBlock { site := ⟨⟨0⟩, 1, 1⟩, parent := ⟨1⟩ },
    .pushScope "a.hlsl" ⟨2⟩, .pushScope "b.hlsl" ⟨1⟩, .popScope "b.hlsl", .popScope "b.hlsl",
    .pushScope "a.hlsl" ⟨2⟩, .popScope "a.hlsl", .type .bool]

/-- The moves in the first file are not disturbed by those in the second, where the last request is
turned down. -/
theorem scopes_of_runAll_scopeSession : ∃ (replies : List Reply) (s : Store) (a b : Debug.File),
    (Store.new {}).runAll scopeSession = .ok (replies, s) ∧
    s.files.get? "a.hlsl" = some a ∧ s.files.get? "b.hlsl" = some b ∧
    Operation.scopeMoves "a.hlsl" scopeSession replies = [.opened ⟨2⟩, .opened ⟨2⟩, .closed] ∧
    a.scopes = [a.unit, ⟨2⟩] ∧ b.scopes = [b.unit] ∧
    s.run (.popScope "b.hlsl") = .ok (.refused (.scopeUnderflow "b.hlsl"), s) := by
  obtain ⟨⟨replies, s⟩, hrun, hmoves⟩ := (Option.any_eq_true _ _).1 (show
    (((Store.new {}).runAll scopeSession).toOption.any fun r =>
      (r.2.files.get? "a.hlsl").isSome && (r.2.files.get? "b.hlsl").isSome &&
      Operation.scopeMoves "a.hlsl" scopeSession r.1 = [.opened ⟨2⟩, .opened ⟨2⟩, .closed] &&
      Operation.scopeMoves "b.hlsl" scopeSession r.1 = [.opened ⟨1⟩, .closed]) = true
    by decide +kernel)
  simp only [Bool.and_eq_true, decide_eq_true_eq, Option.isSome_iff_exists] at hmoves
  obtain ⟨⟨⟨⟨a, ha⟩, b, hb⟩, hmovesA⟩, hmovesB⟩ := hmoves
  have hsession := eq_ok_of_toOption hrun
  obtain ⟨-, -, scopesA, -, -⟩ := (scopes_of_runAll hsession).1 "a.hlsl" a ha
  obtain ⟨-, -, scopesB, -, reply, t, hpop, hrefused, hunchanged⟩ :=
    (scopes_of_runAll hsession).1 "b.hlsl" b hb
  rw [hmovesA] at scopesA
  rw [hmovesB] at scopesB
  obtain rfl := hrefused.2 (congrArg List.length scopesB)
  obtain ⟨-, rfl⟩ := hunchanged (by simp)
  exact ⟨replies, t, a, b, hsession, ha, hb, hmovesA, scopesA, scopesB, hpop⟩

end Store

end ShaderTypes
