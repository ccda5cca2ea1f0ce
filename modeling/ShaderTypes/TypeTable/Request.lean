import ShaderTypes.Fault
import ShaderTypes.TypeTable.Basic

/-!
# Requests for types

A type is asked for by its shape.  If the table has a type of that shape, the first such type is the
answer, and otherwise a new one is added.  A hybrid shape is never found, so each request for one
makes a type of its own.

There is one scan for all kinds of types, where one could keep an intern table for each kind with a
look-up of its own.  Only types of the kind that is asked for answer a request, so the scan finds
what a look-up by key in the table of the kind finds: `TypeTable.Interned.find?_eq_some_iff`.

What counts as the same shape depends on the kind: for vectors, matrices, sampled images and
pointers the operand must be the very same type, for the others it is enough that the operands look
the same.  Over hybrid operands the two differ.
-/

namespace ShaderTypes

namespace TypeTable

/-- Whether an entry of the table answers a request. -/
def answers (t : TypeTable) (request entry : Shape) : Bool :=
  !request.isHybrid &&
    request.agrees (if request.isKeyedByIdentity then (· == ·) else t.alike) entry

/-- The first type that answers a request. -/
def find? (t : TypeTable) (request : Shape) : Option TypeId :=
  (t.shapes.findIdx? (t.answers request)).map TypeId.mk

/-- The type of the given shape, added to the table if it is not there. -/
def intern (t : TypeTable) (request : Shape) : TypeId × TypeTable :=
  match t.find? request with
  | some a => (a, t)
  | none => (⟨t.size⟩, t.push request)

/-- Numbers have sixteen, thirty-two or sixty-four bits. -/
def checkWidth (bits : UInt32) : Except Fault Unit :=
  if bits = 16 ∨ bits = 32 ∨ bits = 64 then .ok () else .error (.unsupportedWidth bits)

/-- Vectors and matrices have two, three or four parts. -/
def isPartCount (count : UInt32) : Bool :=
  2 ≤ count && count ≤ 4

/-- Whether the shape of a type satisfies `p`. -/
def has (t : TypeTable) (a : TypeId) (p : Shape → Bool) : Bool :=
  (t.shape? a).any p

/-- The component of a vector type. -/
def component? (t : TypeTable) (a : TypeId) : Option TypeId :=
  match t.shape? a with
  | some (.vector u _) => some u
  | _ => none

/-- The rules of the type system that the table enforces. -/
def check (t : TypeTable) : Shape → Except Fault Unit
  | .integer bits _ => checkWidth bits
  | .float bits => checkWidth bits
  | .vector u n =>
    if !t.has u Shape.isScalar then .error (.vectorComponent (t.name u))
    else if isPartCount n then .ok () else .error (.vectorCount n)
  | .matrix u n =>
    if (t.component? u).isNone then .error (.matrixColumn (t.name u))
    else if isPartCount n then .ok () else .error (.matrixCount n)
  | .image i =>
    if t.has i.sampled Shape.isNumerical then .ok () else .error (.imageSampled (t.name i.sampled))
  | .sampledImage u =>
    if t.has u Shape.isImage then .ok () else .error (.sampledImage (t.name u))
  | _ => .ok ()

/-- The shape that stands for a requested one.  Matrices have floating components only, and a matrix
of any others is an array of its columns. -/
def resolve (t : TypeTable) : Shape → Shape
  | .matrix u n =>
    if (t.component? u).any (t.has · Shape.isFloat) then .matrix u n else .array u n none
  | s => s

/-- The type of the given shape, if there can be one. -/
def request (t : TypeTable) (s : Shape) : Except Fault (TypeId × TypeTable) := do
  t.check s
  return t.intern (t.resolve s)

variable {t : TypeTable} {s : Shape} {a : TypeId}

/-- A type that is found answers the request. -/
theorem answers_of_find? (h : t.find? s = some a) :
    ∃ r, t.shape? a = some r ∧ t.answers s r = true := by
  obtain ⟨i, hi, rfl⟩ := Option.map_eq_some_iff.1 h
  obtain ⟨hlt, hp, -⟩ := List.findIdx?_eq_some_iff_getElem.1 hi
  exact ⟨t.shapes[i], List.getElem?_eq_getElem hlt, hp⟩

/-- A hybrid shape is never found. -/
theorem find?_of_isHybrid (h : s.isHybrid = true) : t.find? s = none := by
  simp [find?, answers, h, List.findIdx?_eq_none_iff]

/-- Asking for a hybrid type always makes a new one. -/
theorem intern_of_isHybrid (h : s.isHybrid = true) : t.intern s = (⟨t.size⟩, t.push s) := by
  simp [intern, find?_of_isHybrid h]

/-- A request only adds to the end of the table. -/
theorem shapes_prefix_intern (t : TypeTable) (s : Shape) : t.shapes <+: (t.intern s).2.shapes := by
  unfold intern
  split
  · exact List.prefix_refl _
  · exact List.prefix_append _ _

end TypeTable

/-- The buffer of raw bytes: a struct around a runtime array of 32-bit words. -/
def TypeTable.byteAddressBuffer (t : TypeTable) (writable : Bool) : TypeId × TypeTable :=
  let (word, t) := t.intern (.integer 32 false)
  let (words, t) := t.intern (.runtimeArray word (some 4))
  t.intern (.struct
    { fields := [{ type := words, name := some "", offset := some 0 }]
      name := if writable then "type.RWByteAddressBuffer" else "type.ByteAddressBuffer"
      readOnly := !writable
      interface := .storageBuffer })

/-- The counter beside a buffer that shaders append to and consume from. -/
def TypeTable.counterBuffer (t : TypeTable) : TypeId × TypeTable :=
  let (int, t) := t.intern (.integer 32 true)
  t.intern (.struct
    { fields := [{ type := int, name := some "counter", offset := some 0 }]
      name := "type.ACSBuffer.counter"
      interface := .storageBuffer })

end ShaderTypes
