/-!
# Flags of debug instructions

A word of flags.  Fourteen bits have names; a word may have other bits, and they are kept.
-/

namespace ShaderTypes.Debug

/-- A word of flags. -/
structure Flags where
  /-- The bits. -/
  bits : UInt32
deriving DecidableEq

namespace Flags

/-- The names of the lowest bits, from the lowest up. -/
def names : List String :=
  ["IS_PROTECTED", "IS_PRIVATE", "IS_LOCAL", "IS_DEFINITION", "FWD_DECL", "ARTIFICIAL", "EXPLICIT",
    "PROTOTYPED", "OBJECT_POINTER", "STATIC_MEMBER", "INDIRECT_VARIABLE", "LVALUE_REFERENCE",
    "RVALUE_REFERENCE", "IS_OPTIMIZED"]

/-- Private access. -/
def isPrivate : Flags := ⟨2⟩

/-- Public access, which has the bits of protected and of private access both. -/
def isPublic : Flags := ⟨3⟩

/-- The access of a declaration that is or is not private to its module. -/
def visibility (isPrivateToModule : Bool) : Flags :=
  if isPrivateToModule then isPrivate else isPublic

/-- The bits that have no name. -/
def unnamed (f : Flags) : Nat :=
  f.bits.toNat >>> names.length <<< names.length

/-- The text of the flags: the names of the bits set, from the lowest up, and then the bits without
a name together as one number.  No flags at all are the number zero. -/
def text (f : Flags) : String :=
  let named := names.zipIdx.filterMap fun (name, place) =>
    if f.bits.toNat.testBit place then some name else none
  let rest := "0x" ++ String.ofList (Nat.toDigits 16 f.unnamed)
  let parts := if f.unnamed = 0 ∧ named ≠ [] then named else named ++ [rest]
  " | ".intercalate parts

end Flags

end ShaderTypes.Debug
