import ShaderTypes.Lowering.Basic
import ShaderTypes.Module

/-!
# The debug types of a module

The pass that completes the debug section of a module.  Every instruction is stamped, every variable
and function of a known type gets its debug type, and at the end all debug types are added to the
module: those that describe a type first, then the others.
-/

namespace ShaderTypes

namespace Store

/-- All debug types, in the order in which a module lists them. -/
def emitted (s : Store) : List NodeId :=
  s.debugTypes.values ++ s.unkeyed

end Store

namespace Lowering

/-- One instruction of the module: it is stamped, and its type is lowered if it has one. -/
def visit (b : BuilderId) (n : NodeId) : Lower Unit := do
  modify (·.stamp n b)
  match ((← get).nodes.entry? n).bind Debug.Entry.type? with
  | none => return
  | some a =>
    let type ← lower b a
    set (← (← get).setDebugType n type)

/-- The pass that lowers the types of a module. -/
def pass (b : BuilderId) : Pass Store where
  onModule phase m s :=
    match phase with
    | .init => .ok (true, m, s)
    | .done => .ok (true, m.append s.emitted, s)
  onInstruction n s := do
    let ((), s) ← visit b n s
    return (true, s)

end Lowering

/-- The module with the debug types of its variables and functions, and whether the pass came to its
end. -/
def lowerModule (b : BuilderId) (m : Module) (s : Store) : Except Fault (Bool × Module × Store) :=
  (Lowering.pass b).walk m s

end ShaderTypes
