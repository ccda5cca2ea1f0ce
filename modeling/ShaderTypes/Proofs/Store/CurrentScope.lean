import ShaderTypes.Proofs.Store.Scopes

/-!
# The current scope

Beside the stacks of open scopes, one for each file, the store remembers a single current scope: the
one that was opened last or returned to by closing another, in whatever file.  It never disagrees
with the stacks.  Once a scope was opened or closed, the current scope is the innermost scope of the
file in which that happened last, as the stack of this file is now.

`Store.Follows` says this with the name of that file, and goes along a session operation by
operation.  Only a move in the very same file could change its stack, and every move sets the
current scope anew.
-/

namespace ShaderTypes

namespace Operation

/-- The file in which an operation opens or closes a scope, given the answer. -/
def movedFile? (reply : Reply) : Operation → Option String
  | .pushScope file _ => some file
  | .popScope file => if reply = .done then some file else none
  | _ => none

/-- The file in which a session opened or closed a scope last, given the answers. -/
def lastMoved? (ops : List Operation) (replies : List Reply) : Option String :=
  ((ops.zip replies).filterMap fun p => p.1.movedFile? p.2).getLast?

variable {op : Operation} {ops : List Operation} {reply : Reply} {replies : List Reply}
  {name : String}

/-- An operation moves in the file in which it makes a move. -/
lemma movedFile?_eq_some_iff : op.movedFile? reply = some name ↔
    (op.scopeMove? name reply).isSome = true := by
  cases op with
  | pushScope file scope =>
    simp only [movedFile?, scopeMove?, Option.some.injEq]
    split <;> simp_all
  | popScope file =>
    simp only [movedFile?, scopeMove?]
    split <;> split <;> simp_all
  | _ => simp [movedFile?, scopeMove?]

lemma lastMoved?_cons : lastMoved? (op :: ops) (reply :: replies) =
    (lastMoved? ops replies).or (op.movedFile? reply) := by
  rw [lastMoved?, lastMoved?, List.zip_cons_cons, List.filterMap_cons]
  rcases hmoved : op.movedFile? reply with _ | name
  · simp
  · simp only [List.getLast?_cons]
    rcases List.getLast? _ <;> rfl

end Operation

namespace Store

/-- The current scope is the innermost one of the given file, and without a file there is none. -/
def Follows (s : Store) : Option String → Prop
  | none => s.currentScope = none
  | some name => ∃ file, s.files.get? name = some file ∧ s.currentScope = some file.innermost

variable {s t : Store} {last : Option String} {op : Operation} {reply : Reply}

/-- Where files are opened only, the file that is followed keeps its stack. -/
lemma Follows.of_opening (hs : s.Follows last) (h : s.Opening t) : t.Follows last := by
  cases last with
  | none => exact h.currentScope.trans hs
  | some name =>
    obtain ⟨file, known, current⟩ := hs
    exact ⟨file, h.kept known, h.currentScope.trans current⟩

/-- After an operation the file is followed that it moved in, or else the one from before. -/
lemma Filing.follows (h : s.Filing op reply t) (hs : s.Follows last) :
    t.Follows ((op.movedFile? reply).or last) := by
  cases h with
  | opening opens still =>
    have unmoved : op.movedFile? reply = none := by
      rw [Option.eq_none_iff_forall_ne_some]
      intro name hmoved
      have moves := Operation.movedFile?_eq_some_iff.1 hmoved
      rw [still name] at moves
      cases moves
    rw [unmoved]
    exact hs.of_opening opens
  | pushed opens known => exact ⟨_, OrderedMap.get?_insert_self, rfl⟩
  | popped opens known => exact ⟨_, OrderedMap.get?_insert_self, rfl⟩

/-- After a session the file is followed in which it moved last. -/
lemma Follows.runAll {ops : List Operation} {replies : List Reply} (hs : s.Follows last)
    (h : s.runAll ops = .ok (replies, t)) :
    t.Follows ((Operation.lastMoved? ops replies).or last) := by
  induction ops generalizing s last replies with
  | nil =>
    cases h
    exact hs
  | cons op ops ih =>
    obtain ⟨reply, r, replies', hop, hops, rfl⟩ := runAll_cons_eq_ok h
    rw [Operation.lastMoved?_cons, Option.or_assoc]
    exact ih ((filing_of_run hop).follows hs) hops

/-- In every session there is no current scope as long as no scope was opened or closed.  From then
on, the current scope is the innermost scope, at this moment, of the file in which a scope was
opened or closed last, which is the last one in the stack of this file. -/
theorem currentScope_of_runAll {options : Options} {ops : List Operation} {replies : List Reply}
    (h : (Store.new options).runAll ops = .ok (replies, s)) :
    (Operation.lastMoved? ops replies = none → s.currentScope = none) ∧
    ∀ name, Operation.lastMoved? ops replies = some name → ∃ file,
      s.files.get? name = some file ∧ s.currentScope = some file.innermost ∧
        file.scopes.getLast? = s.currentScope := by
  have start : (Store.new options).Follows none := rfl
  have follows : s.Follows (Operation.lastMoved? ops replies) := by
    simpa using start.runAll h
  constructor
  · intro hnone
    rwa [hnone] at follows
  · intro name hname
    rw [hname] at follows
    obtain ⟨file, known, current⟩ := follows
    exact ⟨file, known, current, Debug.File.getLast?_scopes.trans current.symm⟩

/-- A block stays open in one file while another file is moved in.  There a request is turned down,
and then a type is lowered. -/
def parkedSession : List Operation :=
  [.openFile "a.hlsl", .lexicalBlock { site := ⟨⟨0⟩, 1, 1⟩, parent := ⟨1⟩ },
    .pushScope "a.hlsl" ⟨2⟩, .pushScope "b.hlsl" ⟨1⟩, .popScope "b.hlsl", .popScope "b.hlsl",
    .type .bool, .lower ⟨0⟩ ⟨0⟩]

/-- The current scope is the compilation unit of the second file, to which the last scope that was
closed returned, although the block is still open in the first. -/
theorem currentScope_of_runAll_parkedSession :
    ∃ (replies : List Reply) (s : Store) (b : Debug.File),
    (Store.new {}).runAll parkedSession = .ok (replies, s) ∧
    Operation.lastMoved? parkedSession replies = some "b.hlsl" ∧
    s.files.get? "b.hlsl" = some b ∧ s.currentScope = some b.innermost ∧
    b.innermost = b.unit ∧ (s.files.get? "a.hlsl").map Debug.File.innermost = some ⟨2⟩ := by
  obtain ⟨⟨replies, s⟩, hrun, hmoved⟩ := (Option.any_eq_true _ _).1 (show
    (((Store.new {}).runAll parkedSession).toOption.any fun r =>
      Operation.lastMoved? parkedSession r.1 = some "b.hlsl" &&
      (r.2.files.get? "b.hlsl").all (fun b => b.innermost = b.unit) &&
      (r.2.files.get? "a.hlsl").map Debug.File.innermost = some ⟨2⟩) = true
    by decide +kernel)
  simp only [Bool.and_eq_true, decide_eq_true_eq] at hmoved
  obtain ⟨⟨hlast, hreturned⟩, hparked⟩ := hmoved
  have hsession := eq_ok_of_toOption hrun
  obtain ⟨b, known, current, -⟩ := (currentScope_of_runAll hsession).2 "b.hlsl" hlast
  have returned : b.innermost = b.unit := by simpa [known] using hreturned
  exact ⟨replies, s, b, hsession, hlast, known, current, returned, hparked⟩

end Store

end ShaderTypes
