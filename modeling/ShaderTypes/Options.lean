import ShaderTypes.Named

/-!
# Compilation options

The options of one compilation: the shader stage it is for, the version of its profile, and the
DWARF version that every compilation unit records.
-/

namespace ShaderTypes

/-- The stage that a compilation is for, or a library of entry points.  `invalid` stands for a
compilation whose profile was never set. -/
inductive ShaderModel where
  | pixel
  | vertex
  | geometry
  | hull
  | domain
  | compute
  | library
  | rayGeneration
  | intersection
  | anyHit
  | closestHit
  | miss
  | callable
  | mesh
  | amplification
  | invalid
deriving DecidableEq

instance : Named ShaderModel where
  table :=
    ⟨[("Pixel", .pixel), ("Vertex", .vertex), ("Geometry", .geometry), ("Hull", .hull),
      ("Domain", .domain), ("Compute", .compute), ("Library", .library),
      ("RayGeneration", .rayGeneration), ("Intersection", .intersection), ("AnyHit", .anyHit),
      ("ClosestHit", .closestHit), ("Miss", .miss), ("Callable", .callable), ("Mesh", .mesh),
      ("Amplification", .amplification), ("Invalid", .invalid)]⟩
  distinct := by decide
  complete x := by cases x <;> decide

/-- The shader model of the given name. -/
def ShaderModel.ofName? : String → Option ShaderModel :=
  Named.ofName?

/-- The name that profiles use. -/
def ShaderModel.name : ShaderModel → String :=
  Named.name

/-- Whether the model is one of the six ray tracing stages. -/
def ShaderModel.isRayTracing : ShaderModel → Bool
  | .rayGeneration | .intersection | .anyHit | .closestHit | .miss | .callable => true
  | _ => false

/-- The options of one compilation. -/
structure Options where
  /-- The stage compiled for. -/
  model : ShaderModel := .invalid
  /-- The major version of the profile, `6` in `ps_6_5`. -/
  major : UInt32 := 0
  /-- The minor version of the profile, `5` in `ps_6_5`. -/
  minor : UInt32 := 0
  /-- The DWARF version recorded in every compilation unit. -/
  dwarfVersion : UInt32 := 4
deriving DecidableEq

/-- The options of a profile, with the usual DWARF version. -/
def Options.ofProfile (model : ShaderModel) (major minor : UInt32) : Options :=
  { model, major, minor }

end ShaderTypes
