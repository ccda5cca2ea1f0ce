import ShaderTypes.Fault
import ShaderTypes.Handle

/-!
# Modules and passes over them

The debug section of a module is a list of instructions.  A pass walks it: it is told that the walk
begins, it is shown each instruction that is there at that moment, and it is told that the walk is
done.  At the first and the last of these it may add instructions to the module.  It may end the
walk at any time.
-/

namespace ShaderTypes

/-- The debug section of a module. -/
structure Module where
  /-- The instructions in order. -/
  instructions : List NodeId := []
deriving DecidableEq

/-- The module with instructions added at its end. -/
def Module.append (m : Module) (nodes : List NodeId) : Module :=
  ⟨m.instructions ++ nodes⟩

/-- A moment at which a pass is told about the module as a whole. -/
inductive Phase where
  /-- Before the first instruction. -/
  | init
  /-- After the last instruction. -/
  | done
deriving DecidableEq

/-- A pass over a module, with a state of its own.  Each answer says whether the walk goes on.  By
default a pass changes nothing and goes on. -/
structure Pass (σ : Type) where
  /-- What happens before and after the instructions; the module may be changed. -/
  onModule : Phase → Module → σ → Except Fault (Bool × Module × σ) :=
    fun _ m s => .ok (true, m, s)
  /-- What happens at an instruction. -/
  onInstruction : NodeId → σ → Except Fault (Bool × σ) :=
    fun _ s => .ok (true, s)

namespace Pass

variable {σ : Type} (p : Pass σ)

/-- The instructions shown one by one, for as long as the pass goes on. -/
def visitAll : List NodeId → σ → Except Fault (Bool × σ)
  | [], s => .ok (true, s)
  | n :: rest, s => do
    let (goOn, s) ← p.onInstruction n s
    if goOn then visitAll rest s else return (false, s)

/-- The walk of a pass over a module.  It shows the instructions that are there once the pass was
told of its beginning, and says whether it came to its end. -/
def walk (m : Module) (s : σ) : Except Fault (Bool × Module × σ) := do
  let (goOn, m, s) ← p.onModule .init m s
  if !goOn then return (false, m, s)
  let (goOn, s) ← p.visitAll m.instructions s
  if !goOn then return (false, m, s)
  p.onModule .done m s

/-- Walking over no instructions does nothing. -/
@[simp]
theorem visitAll_nil (s : σ) : p.visitAll [] s = .ok (true, s) := rfl

section Cases

variable {p} {m m' : Module} {s s' : σ} {n : NodeId} {rest : List NodeId} {fault : Fault}

/-- A pass that fails at an instruction fails. -/
theorem visitAll_cons_of_error (h : p.onInstruction n s = .error fault) :
    p.visitAll (n :: rest) s = .error fault := by
  rw [visitAll, h]
  rfl

/-- A pass that ends the walk at an instruction is shown no other one. -/
theorem visitAll_cons_of_stop (h : p.onInstruction n s = .ok (false, s')) :
    p.visitAll (n :: rest) s = .ok (false, s') := by
  rw [visitAll, h]
  rfl

/-- A pass that goes on is shown the rest. -/
theorem visitAll_cons_of_goOn (h : p.onInstruction n s = .ok (true, s')) :
    p.visitAll (n :: rest) s = p.visitAll rest s' := by
  rw [visitAll, h]
  rfl

/-- A pass that fails at the beginning fails. -/
theorem walk_of_error (h : p.onModule .init m s = .error fault) : p.walk m s = .error fault := by
  rw [walk, h]
  rfl

/-- A pass that ends the walk at the beginning is shown nothing. -/
theorem walk_of_stop (h : p.onModule .init m s = .ok (false, m', s')) :
    p.walk m s = .ok (false, m', s') := by
  rw [walk, h]
  rfl

/-- A pass that goes on is shown the instructions that there are then, and told of the end if it
goes on at all of them. -/
theorem walk_of_goOn (h : p.onModule .init m s = .ok (true, m', s')) :
    p.walk m s = (p.visitAll m'.instructions s' >>= fun r =>
      if r.1 then p.onModule .done m' r.2 else .ok (false, m', r.2)) := by
  simp only [walk, h, bind, Except.bind]
  rcases p.visitAll m'.instructions s' with fault | ⟨_ | _, r⟩ <;> rfl

end Cases

end Pass

/-! ### A pass that writes down what it sees -/

/-- One call of a pass. -/
inductive Call where
  | phase (moment : Phase)
  | instruction (node : NodeId)
deriving DecidableEq

/-- What a recording pass answers and adds. -/
structure Recorder where
  /-- The answer at the beginning. -/
  init : Bool := true
  /-- The answer at the end. -/
  done : Bool := true
  /-- The number of instructions after which it ends the walk, if it does. -/
  limit : Option UInt32 := none
  /-- The instructions added at the beginning. -/
  addedFirst : List NodeId := []
  /-- The instructions added at the end. -/
  addedLast : List NodeId := []

/-- The pass that writes down its calls in order.  The call at the beginning stands before those for
the instructions, so when an instruction is shown the list counts the instructions up to it. -/
def Recorder.pass (r : Recorder) : Pass (List Call) where
  onModule phase m calls :=
    match phase with
    | .init => .ok (r.init, m.append r.addedFirst, calls ++ [.phase .init])
    | .done => .ok (r.done, m.append r.addedLast, calls ++ [.phase .done])
  onInstruction n calls :=
    .ok (r.limit.all (calls.length ≤ ·.toNat), calls ++ [.instruction n])

end ShaderTypes
