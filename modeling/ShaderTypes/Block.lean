/-!
# Raw blocks of memory

A compilation may ask for a raw block.  Nothing of its content is modelled, only which sizes and
alignments are acceptable: the alignment is a power of two, and the size, rounded up to the
alignment, is at most half of the address space.  A block that could exist may still be more than
the memory at hand.
-/

namespace ShaderTypes

/-- A request for a block of memory. -/
structure Block where
  /-- The size in bytes. -/
  size : Nat
  /-- The boundary that the block starts on, in bytes. -/
  align : Nat
deriving DecidableEq

/-- Half of the number of addresses. -/
def Block.limit : Nat :=
  0x8000000000000000

/-- Whether a block of this size and alignment can exist. -/
def Block.isValid (b : Block) : Bool :=
  1 <<< b.align.log2 == b.align && b.size + b.align ≤ limit

/-- The memory at hand for a block, in bytes. -/
def Block.memory : Nat :=
  0x800000000

/-- Whether there is memory for a block.  A boundary as far off as `align` can be needs that much
room besides the block itself. -/
def Block.fits (b : Block) : Bool :=
  b.size + b.align < memory

/-- The alignment of a valid block is a power of two. -/
theorem Block.exists_align_eq_shiftLeft {b : Block} (h : b.isValid = true) :
    ∃ k, b.align = 1 <<< k := by
  simp only [Block.isValid, Bool.and_eq_true, beq_iff_eq] at h
  exact ⟨b.align.log2, h.1.symm⟩

end ShaderTypes
