/-!
# Faults

A fault ends a compilation: a request broke the rules of the type system, or a record and its struct
do not fit together.  Each cause carries what its message names.

Requests of the debug registry that are merely refused are not faults; see `Refusal`.
-/

namespace ShaderTypes

/-- The cause that ended a compilation. -/
inductive Fault where
  /-- A number of a width that no number has. -/
  | unsupportedWidth (bits : UInt32)
  /-- A vector of something other than scalars. -/
  | vectorComponent (got : String)
  /-- A vector too short or too long. -/
  | vectorCount (count : UInt32)
  /-- A matrix of something other than vectors. -/
  | matrixColumn (got : String)
  /-- A matrix too narrow or too wide. -/
  | matrixCount (count : UInt32)
  /-- An image of something other than numbers. -/
  | imageSampled (got : String)
  /-- A sampled image of something other than an image. -/
  | sampledImage (got : String)
  /-- An integer constant of another type. -/
  | integerConstant (got : String)
  /-- A floating constant of another type. -/
  | floatConstant (got : String)
  /-- A block of memory that cannot exist. -/
  | invalidBlock (size align : Nat)
  /-- A block that there is no memory for. -/
  | outOfMemory
  /-- An enumeration described as a composite. -/
  | enumComposite (record : String)
  /-- A struct whose debug type was registered as something else. -/
  | compositeExpected (struct : String)
  /-- A method whose debug function was never saved. -/
  | missingFunction (record method : String)
  /-- A struct with fewer fields than its record has. -/
  | missingField (struct : String)
  /-- A struct field that was made from another declaration. -/
  | declarationMismatch (field : String)
  /-- A debug type given to an instruction that has none. -/
  | noDebugType
  /-- A handle that the table never gave out. -/
  | unknownHandle
deriving DecidableEq

/-- The message of a fault. -/
def Fault.message : Fault → String
  | .unsupportedWidth bits => "unsupported bitwidth " ++ toString bits.toNat
  | .vectorComponent got => "vector element must be a scalar, got " ++ got
  | .vectorCount count => "vector must have 2, 3 or 4 components, got " ++ toString count.toNat
  | .matrixColumn got => "matrix column must be a vector, got " ++ got
  | .matrixCount count => "matrix must have 2, 3 or 4 columns, got " ++ toString count.toNat
  | .imageSampled got => "image sampled type must be an integer or float, got " ++ got
  | .sampledImage got => "sampled image must wrap an image, got " ++ got
  | .integerConstant got => "integer constant needs an integer type, got " ++ got
  | .floatConstant got => "float constant needs a float type, got " ++ got
  | .invalidBlock size align =>
    "invalid allocation layout: size " ++ toString size ++ " align " ++ toString align
  | .outOfMemory => "out of memory"
  | .enumComposite record =>
    "internal error: entered unreachable code: enum \x60" ++ record ++
      "\x60 lowered as a composite"
  | .compositeExpected struct =>
    "debug type for struct \x60" ++ struct ++ "\x60 is not a composite"
  | .missingFunction record method =>
    "no debug function registered for method \x60" ++ record ++ "::" ++ method ++ "\x60"
  | .missingField struct =>
    "struct \x60" ++ struct ++ "\x60 has fewer fields than its declaration"
  | .declarationMismatch field =>
    "field \x60" ++ field ++ "\x60 does not match its declaration"
  | .noDebugType => "does not carry a debug type"
  | .unknownHandle => "unknown handle"

/-- A request of the debug registry that was turned down.  The compilation goes on. -/
inductive Refusal where
  /-- The innermost scope of the file is its compilation unit, which stays. -/
  | scopeUnderflow (file : String)
  /-- No debug type is registered for the type of this name. -/
  | unregisteredType (type : String)
  /-- The debug type of the type of this name is not a composite. -/
  | notAComposite (type : String)
deriving DecidableEq

/-- The message of a refusal. -/
def Refusal.message : Refusal → String
  | .scopeUnderflow file =>
    "cannot pop the compilation unit scope of \x60" ++ file ++ "\x60"
  | .unregisteredType type =>
    "no debug type has been registered for \x60" ++ type ++ "\x60"
  | .notAComposite type =>
    "debug type for \x60" ++ type ++ "\x60 is not a composite"

end ShaderTypes
