import Trusty.Keymaster.Param

/-!
# The wire format of authorization sets

`serializable.cpp` and both directions of `authorization_set.cpp`. What is read lies in
an address space of `w` bits, and every read says whether it stays inside.
-/

namespace Trusty.Keymaster

inductive SetError where
  | ok
  | allocationFailure
  | malformedData
  deriving DecidableEq, Repr

/-- Why `Deserialize` fails. -/
inductive Refusal where
  | allocationFailure
  | malformedData
  deriving DecidableEq, Repr

def Refusal.error : Refusal → SetError
  | .allocationFailure => .allocationFailure
  | .malformedData => .malformedData

/-- Where the data of a blob lies, from `indirect_data_` on. -/
structure Slice where
  offset : Nat
  length : Nat
  deriving DecidableEq, Repr

/-- `keymaster_key_param_t` inside of a set. -/
abbrev SetParam := Param Slice

/-- `ComputeIndirectDataSize`, without the overflow of `size_t`. -/
def blobTotal (elems : List SetParam) : Nat :=
  (elems.map fun param => if param.tag.isBlob then param.blob.length else 0).sum

structure Buffer (w : Nat) where
  base : BitVec w
  bytes : List UInt8
  fits : base.toNat + bytes.length < 2 ^ w

inductive Stop where
  | outOfBounds
  | refused (error : Refusal)
  deriving DecidableEq, Repr

variable {w : Nat} (buffer : Buffer w)

def Buffer.limit : BitVec w := .ofNat w (buffer.base.toNat + buffer.bytes.length)

/-- `memcpy` from the buffer. -/
def Buffer.read (pointer : BitVec w) (size : Nat) : Except Stop (List UInt8) :=
  if size = 0 then .ok []
  else if buffer.base.toNat ≤ pointer.toNat ∧
      pointer.toNat + size ≤ buffer.base.toNat + buffer.bytes.length then
    .ok ((buffer.bytes.drop (pointer.toNat - buffer.base.toNat)).take size)
  else .error .outOfBounds

def copyFromBuf (limit : BitVec w) (size pointer : BitVec w) :
    Except Stop (List UInt8 × BitVec w) :=
  if pointer + size < pointer then .error (.refused .malformedData)
  else if limit < pointer + size then .error (.refused .malformedData)
  else do
    let bytes ← buffer.read pointer size.toNat
    return (bytes, pointer + size)

def copyUint32 (limit pointer : BitVec w) : Except Stop (UInt32 × BitVec w) := do
  let (bytes, behind) ← copyFromBuf buffer limit 4 pointer
  return (.ofNat (LittleEndian.decode bytes), behind)

def copyUint64 (limit pointer : BitVec w) : Except Stop (UInt64 × BitVec w) := do
  let (bytes, behind) ← copyFromBuf buffer limit 8 pointer
  return (.ofNat (LittleEndian.decode bytes), behind)

/-- A number of 32 bits as a `size_t`. -/
def toSize (w : Nat) (value : UInt32) : BitVec w := .ofNat w value.toNat

def copySizeAndData (limit : BitVec w) (allocated : Bool) (pointer : BitVec w) :
    Except Stop (List UInt8 × BitVec w) := do
  let (length, start) ← copyUint32 buffer limit pointer
  let size := toSize w length
  if start + size < start then .error (.refused .malformedData)
  else if limit < start + size then .error (.refused .malformedData)
  else if size = 0 then return ([], start)
  else if !allocated then .error (.refused .malformedData)
  else copyFromBuf buffer limit size start

abbrev Exceeds (w : Nat) := BitVec w → BitVec w → Bool

/-- The comparison of the source, which casts the size to `ptrdiff_t`. -/
def signedExceeds (w : Nat) : Exceeds w := fun size span => span.slt size

/-- The checks of `deserialize` on the length and the offset of a blob fail. -/
def BlobRefused (exceeds : Exceeds w) (span : BitVec w) (dataLength offset : UInt32) : Prop :=
  toSize w dataLength + toSize w offset < toSize w dataLength ∨
    exceeds (toSize w offset) span ∨ exceeds (toSize w offset + toSize w dataLength) span

instance (exceeds : Exceeds w) (span : BitVec w) (dataLength offset : UInt32) :
    Decidable (BlobRefused exceeds span dataLength offset) :=
  inferInstanceAs (Decidable (_ ∨ _ ∨ _))

/-- The case of `deserialize` for a blob. -/
def deserializeBlob (exceeds : Exceeds w) (buffer : Buffer w) (limit span pointer : BitVec w) :
    Except Stop (Slice × BitVec w) := do
  let (dataLength, second) ← copyUint32 buffer limit pointer
  let (offset, behind) ← copyUint32 buffer limit second
  if BlobRefused exceeds span dataLength offset then .error (.refused .malformedData)
  else return (⟨offset.toNat, dataLength.toNat⟩, behind)

/-- The case of `deserialize` for a boolean, which can be any byte. -/
def deserializeBool (limit pointer : BitVec w) :
    Except Stop (UInt64 × BitVec w) :=
  if pointer < limit then do
    let byte ← buffer.read pointer 1
    return (if byte.headD 0 = 0 then 0 else 1, pointer + 1)
  else .error (.refused .malformedData)

/-- The value that `deserialize` reads for a type of tag. -/
def deserializeValue (exceeds : Exceeds w) (buffer : Buffer w) (limit span pointer : BitVec w) :
    TagType → Except Stop ((UInt64 × Slice) × BitVec w)
  | .invalid | .unknown => .error (.refused .malformedData)
  | .enum | .enumRep | .uint | .uintRep => do
      let (number, behind) ← copyUint32 buffer limit pointer
      return ((number.toUInt64, ⟨0, 0⟩), behind)
  | .ulong | .ulongRep | .date => do
      let (number, behind) ← copyUint64 buffer limit pointer
      return ((number, ⟨0, 0⟩), behind)
  | .bool => do
      let (flag, behind) ← deserializeBool buffer limit pointer
      return ((flag, ⟨0, 0⟩), behind)
  | .bignum | .bytes => do
      let (slice, behind) ← deserializeBlob exceeds buffer limit span pointer
      return ((0, slice), behind)

/-- `deserialize` of one parameter. -/
def deserializeParam (exceeds : Exceeds w) (buffer : Buffer w) (limit span pointer : BitVec w) :
    Except Stop (SetParam × BitVec w) := do
  let (tag, value) ← copyUint32 buffer limit pointer
  let ((word, blob), behind) ← deserializeValue exceeds buffer limit span value (Tag.type tag)
  return (⟨tag, word, blob⟩, behind)

/-- The loop of `DeserializeElementsData`. -/
def deserializeElems (exceeds : Exceeds w) (buffer : Buffer w) (limit span : BitVec w) :
    Nat → BitVec w → Except Stop (List SetParam × BitVec w)
  | 0, pointer => .ok ([], pointer)
  | count + 1, pointer => do
      let (param, next) ← deserializeParam exceeds buffer limit span pointer
      let (rest, behind) ← deserializeElems exceeds buffer limit span count next
      return (param :: rest, behind)

/-- `sizeof(keymaster_key_param_t)`. -/
def paramSize (w : Nat) : Nat := if w = 32 then 16 else 24

/-- The array of elements can be allocated, which it cannot if it is larger than
the address space. -/
def elemsAllocate (w : Nat) (allocated : Bool) (count : Nat) : Bool :=
  allocated && decide (count * paramSize w < 2 ^ w)

/-- What `Deserialize` finds. -/
structure Parsed (w : Nat) where
  indirect : List UInt8
  elementsCount : Nat
  elems : List SetParam
  pointer : BitVec w
  deriving DecidableEq, Repr

/-- The two allocations of `Deserialize`. -/
structure Allocations where
  indirect : Bool
  elems : Bool
  deriving DecidableEq, Repr

def deserializeElementsData (exceeds : Exceeds w) (buffer : Buffer w) (limit : BitVec w)
    (allocated : Bool) (span pointer : BitVec w) : Except Stop (Nat × List SetParam × BitVec w) := do
  let (elementsCount, second) ← copyUint32 buffer limit pointer
  let (elementsSize, start) ← copyUint32 buffer limit second
  let count := toSize w elementsCount
  let size := toSize w elementsSize
  if exceeds size (limit - start) ∨ size < count * 4 ∨
      start + count * BitVec.ofNat w (paramSize w) < start then
    .error (.refused .malformedData)
  else if !elemsAllocate w allocated count.toNat then .error (.refused .allocationFailure)
  else do
    let (elems, behind) ← deserializeElems exceeds buffer (start + size) span count.toNat start
    return (count.toNat, elems, behind)

/-- `Deserialize`, with the comparison as a parameter. -/
def deserializeWith (exceeds : Exceeds w) (buffer : Buffer w) (limit : BitVec w)
    (allocations : Allocations) (pointer : BitVec w) : Except Stop (Parsed w) := do
  let (indirect, second) ← copySizeAndData buffer limit allocations.indirect pointer
  let (count, elems, behind) ← deserializeElementsData exceeds buffer limit allocations.elems
    (.ofNat w indirect.length) second
  if indirect.length ≠ blobTotal elems % 2 ^ w then .error (.refused .malformedData)
  else return ⟨indirect, count, elems, behind⟩

def deserialize (limit : BitVec w) (allocations : Allocations)
    (pointer : BitVec w) : Except Stop (Parsed w) :=
  deserializeWith (signedExceeds w) buffer limit allocations pointer

/-- What is written into a buffer with room for `room` bytes: the position of the
next byte, and the bytes before it. -/
structure Written where
  position : Nat
  bytes : List UInt8
  deriving DecidableEq, Repr

/-- `append_to_buf`, which leaves out what does not fit. -/
def Written.append (room : Nat) (data : List UInt8) (written : Written) : Written :=
  if written.position + data.length ≤ room then
    ⟨written.position + data.length, written.bytes ++ data⟩
  else written

def Written.appendUint32 (room : Nat) (value : Nat) (written : Written) : Written :=
  written.append room (LittleEndian.encode 4 value)

def Written.appendUint64 (room : Nat) (value : UInt64) (written : Written) : Written :=
  written.append room (LittleEndian.encode 8 value.toNat)

/-- `serialized_size` of one parameter. -/
def paramSerializedSize (param : SetParam) : Nat :=
  match param.tag.type with
  | .invalid | .unknown => 4
  | .enum | .enumRep | .uint | .uintRep => 8
  | .ulong | .ulongRep | .date => 12
  | .bool => 5
  | .bignum | .bytes => 12

/-- `serialize` of one parameter. -/
def serializeParam (room : Nat) (param : SetParam) (written : Written) : Written :=
  let tagged := written.appendUint32 room param.tag.toNat
  match param.tag.type with
  | .invalid | .unknown => tagged
  | .enum | .enumRep | .uint | .uintRep => tagged.appendUint32 room param.integer.toNat
  | .ulong | .ulongRep | .date => tagged.appendUint64 room param.longInteger
  | .bool =>
    ⟨tagged.position + 1,
      if tagged.position < room then tagged.bytes ++ [if param.boolean then 1 else 0]
      else tagged.bytes⟩
  | .bignum | .bytes =>
    (tagged.appendUint32 room param.blob.length).appendUint32 room param.blob.offset

def serializedSizeOfElements (elems : List SetParam) : Nat := (elems.map paramSerializedSize).sum

def serializedSize (indirect : List UInt8) (elems : List SetParam) : Nat :=
  4 + indirect.length + 4 + 4 + serializedSizeOfElements elems

/-- `Serialize`, of the indirect data and the elements of a set. -/
def serialize (room : Nat) (indirect : List UInt8) (elems : List SetParam) (written : Written) :
    Written :=
  let data := (written.appendUint32 room indirect.length).append room indirect
  let header := (data.appendUint32 room elems.length).appendUint32 room
    (serializedSizeOfElements elems)
  elems.foldl (fun sofar param => serializeParam room param sofar) header

end Trusty.Keymaster
