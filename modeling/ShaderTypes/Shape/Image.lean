import ShaderTypes.Handle
import ShaderTypes.Named

/-!
# Image types

The parameters of an image: what is read from it, its dimensions, how it is used, and how its texels
are laid out.
-/

namespace ShaderTypes

/-- The dimensions of an image. -/
inductive Dimension where
  | dim1D
  | dim2D
  | dim3D
  | cube
  | rect
  | buffer
  | subpassData
deriving DecidableEq

instance : Named Dimension where
  table :=
    ⟨[("Dim1D", .dim1D), ("Dim2D", .dim2D), ("Dim3D", .dim3D), ("Cube", .cube), ("Rect", .rect),
      ("Buffer", .buffer), ("SubpassData", .subpassData)]⟩
  distinct := by decide
  complete x := by cases x <;> decide

/-- The dimensions of the given name. -/
def Dimension.ofName? : String → Option Dimension :=
  Named.ofName?

/-- The code of the dimensions. -/
def Dimension.code : Dimension → Nat :=
  Named.place

/-- Whether an image is known to hold depths. -/
inductive Depth where
  | no
  | yes
  | unknown
deriving DecidableEq

instance : Named Depth where
  table :=
    ⟨[("No", .no), ("Yes", .yes), ("Unknown", .unknown)]⟩
  distinct := by decide
  complete x := by cases x <;> decide

/-- The answer of the given name. -/
def Depth.ofName? : String → Option Depth :=
  Named.ofName?

/-- The code of the answer. -/
def Depth.code : Depth → Nat :=
  Named.place

/-- Whether an image is read through a sampler, used as storage, or not yet known to be either. -/
inductive Sampling where
  | unknown
  | yes
  | no
deriving DecidableEq

instance : Named Sampling where
  table :=
    ⟨[("Unknown", .unknown), ("Yes", .yes), ("No", .no)]⟩
  distinct := by decide
  complete x := by cases x <;> decide

/-- The answer of the given name. -/
def Sampling.ofName? : String → Option Sampling :=
  Named.ofName?

/-- The code of the answer. -/
def Sampling.code : Sampling → Nat :=
  Named.place

/-- The layout of the texels of an image: the channels, their width, and how they are read. -/
inductive Texel where
  | unknown | rgba32f | rgba16f | r32f | rgba8 | rgba8Snorm | rg32f | rg16f | r11fG11fB10f
  | r16f | rgba16 | rgb10A2 | rg16 | rg8 | r16 | r8 | rgba16Snorm | rg16Snorm | rg8Snorm
  | r16Snorm | r8Snorm | rgba32i | rgba16i | rgba8i | r32i | rg32i | rg16i | rg8i | r16i | r8i
  | rgba32ui | rgba16ui | rgba8ui | r32ui | rgb10a2ui | rg32ui | rg16ui | rg8ui | r16ui | r8ui
deriving DecidableEq

instance : Named Texel where
  table :=
    ⟨[("Unknown", .unknown), ("Rgba32f", .rgba32f), ("Rgba16f", .rgba16f), ("R32f", .r32f),
      ("Rgba8", .rgba8), ("Rgba8Snorm", .rgba8Snorm), ("Rg32f", .rg32f), ("Rg16f", .rg16f),
      ("R11fG11fB10f", .r11fG11fB10f), ("R16f", .r16f), ("Rgba16", .rgba16),
      ("Rgb10A2", .rgb10A2), ("Rg16", .rg16), ("Rg8", .rg8), ("R16", .r16), ("R8", .r8),
      ("Rgba16Snorm", .rgba16Snorm), ("Rg16Snorm", .rg16Snorm), ("Rg8Snorm", .rg8Snorm),
      ("R16Snorm", .r16Snorm), ("R8Snorm", .r8Snorm), ("Rgba32i", .rgba32i),
      ("Rgba16i", .rgba16i), ("Rgba8i", .rgba8i), ("R32i", .r32i), ("Rg32i", .rg32i),
      ("Rg16i", .rg16i), ("Rg8i", .rg8i), ("R16i", .r16i), ("R8i", .r8i), ("Rgba32ui", .rgba32ui),
      ("Rgba16ui", .rgba16ui), ("Rgba8ui", .rgba8ui), ("R32ui", .r32ui),
      ("Rgb10a2ui", .rgb10a2ui), ("Rg32ui", .rg32ui), ("Rg16ui", .rg16ui), ("Rg8ui", .rg8ui),
      ("R16ui", .r16ui), ("R8ui", .r8ui)]⟩
  distinct := by decide
  complete x := by cases x <;> decide

/-- The format of the given name. -/
def Texel.ofName? : String → Option Texel :=
  Named.ofName?

/-- The code of the format. -/
def Texel.code : Texel → Nat :=
  Named.place

/-- An image. -/
structure Image where
  /-- The scalar that reading yields. -/
  sampled : TypeId
  /-- The dimensions. -/
  dimension : Dimension
  /-- Whether the image holds depths. -/
  depth : Depth
  /-- Whether there are several layers. -/
  arrayed : Bool
  /-- Whether there are several samples a texel. -/
  multisampled : Bool
  /-- How the image is used. -/
  sampling : Sampling
  /-- The layout of the texels. -/
  texel : Texel
deriving DecidableEq

namespace Image

/-- Whether two images have equal parameters and related sampled types. -/
def agrees (same : TypeId → TypeId → Bool) (a b : Image) : Bool :=
  same a.sampled b.sampled && a.dimension == b.dimension && a.depth == b.depth &&
    a.arrayed == b.arrayed && a.multisampled == b.multisampled && a.sampling == b.sampling &&
    a.texel == b.texel

end Image

end ShaderTypes
