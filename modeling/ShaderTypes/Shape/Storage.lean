import ShaderTypes.Named

/-!
# Storage classes

Where the object that a pointer points to is kept.
-/

namespace ShaderTypes

/-- The storage class of a pointer. -/
inductive Storage where
  | uniformConstant
  | input
  | uniform
  | output
  | workgroup
  | crossWorkgroup
  | privateMemory
  | functionLocal
  | generic
  | pushConstant
  | atomicCounter
  | image
  | storageBuffer
  | callableData
  | incomingCallableData
  | rayPayload
  | hitAttribute
  | incomingRayPayload
  | shaderRecordBuffer
  | physicalStorageBuffer
deriving DecidableEq

instance : Named Storage where
  table :=
    ⟨[("UniformConstant", .uniformConstant), ("Input", .input), ("Uniform", .uniform),
      ("Output", .output), ("Workgroup", .workgroup), ("CrossWorkgroup", .crossWorkgroup),
      ("Private", .privateMemory), ("Function", .functionLocal), ("Generic", .generic),
      ("PushConstant", .pushConstant), ("AtomicCounter", .atomicCounter), ("Image", .image),
      ("StorageBuffer", .storageBuffer), ("CallableData", .callableData),
      ("IncomingCallableData", .incomingCallableData), ("RayPayload", .rayPayload),
      ("HitAttribute", .hitAttribute), ("IncomingRayPayload", .incomingRayPayload),
      ("ShaderRecordBuffer", .shaderRecordBuffer),
      ("PhysicalStorageBuffer", .physicalStorageBuffer)]⟩
  distinct := by decide
  complete x := by cases x <;> decide

/-- The storage class of the given name. -/
def Storage.ofName? : String → Option Storage :=
  Named.ofName?

/-- The name of the storage class. -/
def Storage.name : Storage → String :=
  Named.name

/-- The code of the storage class.  The codes have gaps. -/
def Storage.code : Storage → Nat
  | .uniformConstant => 0
  | .input => 1
  | .uniform => 2
  | .output => 3
  | .workgroup => 4
  | .crossWorkgroup => 5
  | .privateMemory => 6
  | .functionLocal => 7
  | .generic => 8
  | .pushConstant => 9
  | .atomicCounter => 10
  | .image => 11
  | .storageBuffer => 12
  | .callableData => 5328
  | .incomingCallableData => 5329
  | .rayPayload => 5338
  | .hitAttribute => 5339
  | .incomingRayPayload => 5342
  | .shaderRecordBuffer => 5343
  | .physicalStorageBuffer => 5349

end ShaderTypes
