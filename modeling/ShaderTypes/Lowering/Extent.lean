/-!
# Laying out the members of a composite

Members are placed one after the other.  One whose offset is fixed goes there, any other follows
where the member before it ended.  Offsets, ends and sizes are words of bits and wrap around.
-/

namespace ShaderTypes.Lowering

/-- How far a layout has come. -/
structure Extent where
  /-- The end of the member placed last, in bits. -/
  next : UInt32 := 0
  /-- The largest end so far, in bits. -/
  size : UInt32 := 0
deriving DecidableEq

namespace Extent

/-- The offset in bits of the next member, whose offset in bytes may be fixed. -/
def offset (e : Extent) (bytes : Option UInt32) : UInt32 :=
  match bytes with
  | some bytes => bytes * 8
  | none => e.next

/-- The extent with a member placed. -/
def place (e : Extent) (offset size : UInt32) : Extent :=
  { next := offset + size, size := max e.size (offset + size) }

/-- The size after a placement, as a natural number. -/
theorem toNat_size_place (e : Extent) (offset size : UInt32) :
    (e.place offset size).size.toNat = max e.size.toNat (offset + size).toNat := by
  have h : (e.place offset size).size =
      if e.size ≤ offset + size then offset + size else e.size := rfl
  rw [h]
  split <;> simp_all only [UInt32.le_iff_toNat_le] <;> omega

end Extent

end ShaderTypes.Lowering
