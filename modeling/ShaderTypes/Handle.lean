/-!
# Handles

Types and debug nodes live in tables and are named by their position there.  Two handles are the
same type or the same node exactly when the positions agree; whether two types look alike is a
different question, which the type table answers.
-/

namespace ShaderTypes

/-- The identity of a type: its position in the type table. -/
structure TypeId where
  /-- The position in the table. -/
  index : Nat
deriving DecidableEq

/-- The identity of a debug node: its position in the node table. -/
structure NodeId where
  /-- The position in the table. -/
  index : Nat
deriving DecidableEq

/-- The identity of a builder.  Every builder imports the debug instruction set once, so this is
also the identity of that import. -/
structure BuilderId where
  /-- The number of the builder. -/
  index : Nat
deriving DecidableEq

end ShaderTypes
