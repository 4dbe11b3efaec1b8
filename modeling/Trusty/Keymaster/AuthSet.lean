import Trusty.Keymaster.Wire

/-!
# Authorization sets

`authorization_set.cpp`: the elements, the indirect data that their blobs point into,
and the operations on them. A call ends with nothing if a copy leaves the array that
it writes to.
-/

namespace Trusty.Keymaster

/-- `AuthorizationSet`. The elements are those up to `elems_size_`, and `indirect`
has the bytes of the whole allocation. How much is allocated for the elements is
not kept by the source. -/
structure AuthSet where
  elems : List SetParam
  elemsCapacity : Nat
  elemsAllocated : Nat
  indirect : List UInt8
  indirectSize : Nat
  indirectCapacity : Nat
  error : SetError
  deriving DecidableEq, Repr

namespace AuthSet

/-- A set without storage, as `FreeData` leaves it. -/
def freed (error : SetError) : AuthSet := ⟨[], 0, 0, [], 0, 0, error⟩

/-- `AuthorizationSet::AuthorizationSet`. -/
def empty : AuthSet := freed .ok

/-- A call that returns `done` and leaves the set so. -/
structure Returned where
  done : Bool
  set : AuthSet
  deriving DecidableEq, Repr

def reserveElems (w : Nat) (set : AuthSet) (count : Nat) (allocated : Bool) : Option Returned :=
  if set.error ≠ .ok then some ⟨false, set⟩
  else if set.elemsCapacity ≤ count then
    if !elemsAllocate w allocated count then some ⟨false, freed .allocationFailure⟩
    else if count < set.elems.length then none
    else some ⟨true, { set with elemsCapacity := count, elemsAllocated := count }⟩
  else some ⟨true, set⟩

variable (set : AuthSet)

/-- `reserve_indirect`. The offsets of the blobs stay the same when their data moves.
New storage that nothing is written to is shown as zeros. -/
def reserveIndirect (length : Nat) (allocated : Bool) : Option Returned :=
  if set.error ≠ .ok then some ⟨false, set⟩
  else if set.indirectCapacity < length then
    if !allocated then some ⟨false, freed .allocationFailure⟩
    else if length < set.indirectSize then none
    else
      some ⟨true, { set with
        indirect := set.indirect.take set.indirectSize ++
          List.replicate (length - set.indirectSize) 0
        indirectCapacity := length }⟩
  else some ⟨true, set⟩

/-- `memcpy` into the indirect data. -/
def writeIndirect (position : Nat) (data : List UInt8) : Option AuthSet :=
  if position + data.length ≤ set.indirect.length then
    some { set with
      indirect := set.indirect.take position ++ data ++ set.indirect.drop (position + data.length) }
  else none

def startingElemsCapacity : Nat := 8

/-- The copy of the data of a blob behind the data that is there, and the place where
it then is. -/
def appendBlob (data : List UInt8) : Option (AuthSet × Slice) :=
  match set.writeIndirect set.indirectSize data with
  | none => none
  | some copied =>
    some ({ copied with indirectSize := set.indirectSize + data.length },
      ⟨set.indirectSize, data.length⟩)

/-- The storage that `push_back` asks for before it copies a blob. What is free is
computed as a `size_t`. -/
def reserveBlob (w : Nat) (set : AuthSet) (length : Nat) (allocated : Bool) : Option Returned :=
  if (set.indirectCapacity + 2 ^ w - set.indirectSize) % 2 ^ w < length then
    set.reserveIndirect (2 * (set.indirectCapacity + length) % 2 ^ w) allocated
  else some ⟨true, set⟩

/-- The last step of `push_back`. -/
def storeElem (elem : SetParam) : Option Returned :=
  if set.elems.length < set.elemsAllocated then
    some ⟨true, { set with elems := set.elems ++ [elem] }⟩
  else none

/-- `push_back` when there is room in the array of elements. -/
def pushReserved (w : Nat) (set : AuthSet) (elem : KeyParam) (allocated : Bool) :
    Option Returned :=
  if elem.tag.isBlob then
    match set.reserveBlob w elem.blob.length allocated with
    | none => none
    | some ⟨false, failed⟩ => some ⟨false, failed⟩
    | some ⟨true, ready⟩ =>
      match ready.appendBlob elem.blob with
      | none => none
      | some (copied, slice) => copied.storeElem ⟨elem.tag, elem.word, slice⟩
  else set.storeElem ⟨elem.tag, elem.word, ⟨0, 0⟩⟩

/-- The room in the array of elements that `push_back` asks for. -/
def reserveElem (w : Nat) (set : AuthSet) (allocated : Bool) : Option Returned :=
  if set.elemsCapacity ≤ set.elems.length then
    set.reserveElems w
      (if set.elemsCapacity = 0 then startingElemsCapacity else set.elemsCapacity * 2 % 2 ^ w)
      allocated
  else some ⟨true, set⟩

/-- `push_back` of a parameter whose data is outside of the set. -/
def pushBack (w : Nat) (set : AuthSet) (elem : KeyParam) (allocations : Allocations) :
    Option Returned :=
  if set.error ≠ .ok then some ⟨false, set⟩
  else
    match set.reserveElem w allocations.elems with
    | none => none
    | some ⟨false, failed⟩ => some ⟨false, failed⟩
    | some ⟨true, ready⟩ => ready.pushReserved w elem allocations.indirect

/-- The loop of `push_back` of a set. -/
def pushAll (w : Nat) (set : AuthSet) (elems : AuthList) (allocations : Allocations) :
    Option Returned :=
  match elems with
  | [] => some ⟨true, set⟩
  | elem :: rest =>
    match set.pushBack w elem allocations with
    | none => none
    | some ⟨false, failed⟩ => some ⟨false, failed⟩
    | some ⟨true, pushed⟩ => pushAll w pushed rest allocations

def dataTotal (elems : AuthList) : Nat :=
  (List.map (fun param : KeyParam => if param.tag.isBlob then param.blob.length else 0) elems).sum

/-- `push_back` of a set of parameters. -/
def pushBackSet (w : Nat) (set : AuthSet) (elems : AuthList) (allocations : Allocations) :
    Option Returned :=
  if set.error ≠ .ok then some ⟨false, set⟩
  else
    match set.reserveElems w ((set.elems.length + elems.length) % 2 ^ w) allocations.elems with
    | none => none
    | some ⟨false, failed⟩ => some ⟨false, failed⟩
    | some ⟨true, ready⟩ =>
      match ready.reserveIndirect ((ready.indirectSize + dataTotal elems % 2 ^ w) % 2 ^ w)
          allocations.indirect with
      | none => none
      | some ⟨false, failed⟩ => some ⟨false, failed⟩
      | some ⟨true, roomy⟩ => roomy.pushAll w elems allocations

/-- The parameters are copied into the array of elements, and by `CopyIndirectData`
their data behind each other into the indirect data. -/
def copyIndirectData (set : AuthSet) : AuthList → Option Returned
  | [] => some ⟨true, set⟩
  | elem :: rest =>
    let copied :=
      if elem.tag.isBlob then set.appendBlob elem.blob else some (set, ⟨0, 0⟩)
    match copied with
    | none => none
    | some (ready, slice) =>
      match ready.storeElem ⟨elem.tag, elem.word, slice⟩ with
      | none => none
      | some ⟨_, stored⟩ => copyIndirectData stored rest

/-- `Reinitialize`, and with it the constructors from parameters. The memory of
the set before does not matter. -/
def reinitializeSet (w : Nat) (elems : AuthList) (allocations : Allocations) : Option Returned :=
  if elems = [] then some ⟨true, empty⟩
  else
    match empty.reserveElems w elems.length allocations.elems with
    | none => none
    | some ⟨false, failed⟩ => some ⟨false, failed⟩
    | some ⟨true, ready⟩ =>
      match ready.reserveIndirect (dataTotal elems % 2 ^ w) allocations.indirect with
      | none => none
      | some ⟨false, failed⟩ => some ⟨false, failed⟩
      | some ⟨true, roomy⟩ => copyIndirectData roomy elems

def erase (index : Nat) : Returned :=
  if set.elems.length ≤ index then ⟨false, set⟩
  else ⟨true, { set with elems := set.elems.eraseIdx index }⟩

def blobData (slice : Slice) : List UInt8 :=
  (set.indirect.drop slice.offset).take slice.length

/-- `memcmp` on the common length, then the lengths: a shorter one comes first. -/
def compareBytes : List UInt8 → List UInt8 → Ordering
  | [], [] => .eq
  | [], _ :: _ => .lt
  | _ :: _, [] => .gt
  | left :: lefts, right :: rights =>
    if left < right then .lt else if right < left then .gt else compareBytes lefts rights

def compareBlobs (left right : List UInt8) : Ordering :=
  match left, right with
  | [], [] => .eq
  | [], _ :: _ => .gt
  | _ :: _, [] => .lt
  | _, _ => compareBytes left right

/-- `KEYMASTER_SIMPLE_COMPARE`. -/
def compareNat (left right : Nat) : Ordering :=
  if left < right then .lt else if right < left then .gt else .eq

/-- `keymaster_param_compare`. The enumeration of tags has negative members, so
tags are compared as signed numbers. -/
def compareParams (left right : SetParam) : Ordering :=
  if left.tag.toInt32 < right.tag.toInt32 then .lt
  else if right.tag.toInt32 < left.tag.toInt32 then .gt
  else
    match left.tag.type with
    | .invalid | .bool | .unknown => .eq
    | .enum | .enumRep | .uint | .uintRep => compareNat left.integer.toNat right.integer.toNat
    | .ulong | .ulongRep | .date => compareNat left.longInteger.toNat right.longInteger.toNat
    | .bignum | .bytes => compareBlobs (set.blobData left.blob) (set.blobData right.blob)

/-- `qsort` of the C library, which is not said to be stable. -/
abbrev QSort := (SetParam → SetParam → Ordering) → List SetParam → List SetParam

def sort (qsort : QSort) (set : AuthSet) : AuthSet :=
  { set with elems := qsort set.compareParams set.elems }

/-- The loop of `Deduplicate`: an element that is the same as the next one is marked
as invalid. -/
def markDuplicates (set : AuthSet) : List SetParam → List SetParam
  | [] => []
  | [last] => [last]
  | elem :: next :: rest =>
    (if elem.tag ≠ Tag.invalid ∧ set.compareParams elem next = .eq then
      { elem with tag := Tag.invalid } else elem) :: markDuplicates set (next :: rest)

def invalidCount (elems : List SetParam) : Nat := elems.countP (·.tag == Tag.invalid)

/-- `Deduplicate`. It drops as many elements from the front as are invalid. -/
def deduplicate (qsort : QSort) (set : AuthSet) : AuthSet :=
  let sorted := set.sort qsort
  let marked := sorted.markDuplicates sorted.elems
  if invalidCount marked = 0 then sorted
  else
    let again := sort qsort { sorted with elems := marked }
    { again with elems := again.elems.drop (invalidCount marked) }

def clear : AuthSet :=
  { set with
    elems := []
    indirectSize := 0
    indirect := List.replicate set.indirectSize 0 ++ set.indirect.drop set.indirectSize }

/-- What `Deserialize` leaves. It does not set the capacity of the indirect data. -/
def ofParsed {w : Nat} (parsed : Parsed w) : AuthSet where
  elems := parsed.elems
  elemsCapacity := parsed.elementsCount
  elemsAllocated := parsed.elementsCount
  indirect := parsed.indirect
  indirectSize := parsed.indirect.length
  indirectCapacity := 0
  error := .ok

/-- `Deserialize`, unless it reads outside of the buffer. -/
def deserialized {w : Nat} (outcome : Except Stop (Parsed w)) : Option Returned :=
  match outcome with
  | .ok parsed => some ⟨true, ofParsed parsed⟩
  | .error (.refused error) => some ⟨false, freed error.error⟩
  | .error .outOfBounds => none

inductive Value where
  | nothing
  | number (value : UInt32)
  | long (value : UInt64)
  | flag (value : Bool)
  | blob (value : List UInt8)
  deriving DecidableEq, Repr

def value {Blob : Type} (data : Blob → List UInt8) (param : Param Blob) : Value :=
  match param.tag.type with
  | .invalid | .unknown => .nothing
  | .enum | .enumRep | .uint | .uintRep => .number param.integer
  | .ulong | .ulongRep | .date => .long param.longInteger
  | .bool => .flag param.boolean
  | .bignum | .bytes => .blob (data param.blob)

def view : List (Tag × Value) :=
  set.elems.map fun param => (param.tag, value set.blobData param)

def viewParam (param : KeyParam) : Tag × Value := (param.tag, value id param)

/-- A call on a set. The constructors are a fresh set, `Reinitialize` and
`Deserialize`. -/
inductive Call (w : Nat) where
  | reinitializeSet (elems : AuthList) (allocations : Allocations)
  | pushBack (elem : KeyParam) (allocations : Allocations)
  | pushBackSet (elems : AuthList) (allocations : Allocations)
  | erase (index : Nat)
  | sort
  | deduplicate
  | clear
  | deserialize (buffer : Buffer w) (allocations : Allocations)

def perform {w : Nat} (qsort : QSort) (set : AuthSet) : Call w → Option Returned
  | .reinitializeSet elems allocations => reinitializeSet w elems allocations
  | .pushBack elem allocations => set.pushBack w elem allocations
  | .pushBackSet elems allocations => set.pushBackSet w elems allocations
  | .erase index => some (set.erase index)
  | .sort => some ⟨true, set.sort qsort⟩
  | .deduplicate => some ⟨true, set.deduplicate qsort⟩
  | .clear => some ⟨true, set.clear⟩
  | .deserialize buffer allocations =>
    deserialized (Keymaster.deserialize buffer buffer.limit allocations buffer.base)

end AuthSet

end Trusty.Keymaster
