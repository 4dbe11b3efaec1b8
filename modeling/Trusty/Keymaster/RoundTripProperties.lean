import Trusty.Keymaster.AuthSetProperties

/-!
Sets that are serialized and read again.
-/

namespace Trusty.Keymaster.AuthSet

open List

variable {w : Nat} {set : AuthSet}

/-!
## What all calls keep

Also after a `Deserialize` that leaves a wrong capacity: a call that then does not
leave the arrays has blobs inside the used indirect data.
-/

structure Loose (set : AuthSet) : Prop where
  used : set.indirectSize ≤ set.indirect.length
  inside : ∀ param ∈ set.elems, SetParam.Inside set.indirectSize param

theorem loose_freed (error : SetError) : Loose (freed error) where
  used := le_rfl
  inside _ member := nomatch member

theorem Loose.withElems (loose : Loose set) {elems : List SetParam}
    (inside : ∀ param ∈ elems, SetParam.Inside set.indirectSize param) :
    Loose { set with elems := elems } where
  used := loose.used
  inside := inside

variable {returned : Returned} {allocated : Bool}

section

variable (loose : Loose set)
include loose

theorem Loose.reserveElems {count : Nat} (ran : set.reserveElems w count allocated = some returned) :
    Loose returned.set := by
  unfold AuthSet.reserveElems at ran
  split at ran
  · cases ran
    exact loose
  split at ran
  · split at ran
    · cases ran
      exact loose_freed _
    split at ran
    · cases ran
    · cases ran
      exact ⟨loose.used, loose.inside⟩
  · cases ran
    exact loose

theorem Loose.reserveIndirect {length : Nat} (ran : set.reserveIndirect length allocated = some returned) :
    Loose returned.set := by
  unfold AuthSet.reserveIndirect at ran
  split at ran
  · cases ran
    exact loose
  split at ran
  · split at ran
    · cases ran
      exact loose_freed _
    split at ran
    · cases ran
    cases ran
    have used := loose.used
    refine ⟨?_, loose.inside⟩
    simp only [length_append, length_take, length_replicate]
    omega
  · cases ran
    exact loose

theorem Loose.appendBlob {data : List UInt8} {copied : AuthSet} {slice : Slice}
    (ran : set.appendBlob data = some (copied, slice)) :
    Loose copied ∧ slice.offset + slice.length ≤ copied.indirectSize := by
  unfold AuthSet.appendBlob AuthSet.writeIndirect at ran
  split at ran
  · cases ran
  next written =>
  split at written
  next fits =>
    cases written
    cases ran
    refine ⟨⟨?_, ?_⟩, le_rfl⟩
    · simp only [length_append, length_take, length_drop]
      omega
    intro param member blob
    have bound := loose.inside param member blob
    dsimp only
    omega
  · cases written

theorem Loose.storeElem {elem : SetParam} (inside : SetParam.Inside set.indirectSize elem)
    (ran : set.storeElem elem = some returned) : Loose returned.set := by
  unfold AuthSet.storeElem at ran
  split at ran
  · cases ran
    refine loose.withElems ?_
    intro param member
    rcases mem_append.mp member with old | new
    · exact loose.inside param old
    · rw [mem_singleton.mp new]
      exact inside
  · cases ran

theorem Loose.reserveBlob {length : Nat} (ran : set.reserveBlob w length allocated = some returned) :
    Loose returned.set := by
  unfold AuthSet.reserveBlob at ran
  split at ran
  · exact loose.reserveIndirect ran
  · cases ran
    exact loose

end

theorem inside_of_not_blob {size : Nat} {tag : Tag} (plain : ¬tag.isBlob = true) (word : UInt64)
    (slice : Slice) : SetParam.Inside size ⟨tag, word, slice⟩ :=
  fun blob => absurd blob plain

theorem Loose.pushReserved (loose : Loose set) {elem : KeyParam}
    (ran : set.pushReserved w elem allocated = some returned) : Loose returned.set := by
  unfold AuthSet.pushReserved at ran
  split at ran
  · split at ran
    · cases ran
    next failed reserved =>
      cases ran
      exact loose.reserveBlob reserved
    next ready reserved =>
    have roomy := loose.reserveBlob reserved
    split at ran
    · cases ran
    next copied slice appended =>
    obtain ⟨kept, inside⟩ := Loose.appendBlob roomy appended
    exact kept.storeElem (fun _ => inside) ran
  next plain => exact loose.storeElem (inside_of_not_blob plain _ _) ran

variable {allocations : Allocations}

theorem Loose.pushBack (loose : Loose set) {elem : KeyParam} (ran : set.pushBack w elem allocations = some returned) :
    Loose returned.set := by
  unfold AuthSet.pushBack at ran
  split at ran
  · cases ran
    exact loose
  have reserves {ready : Returned} (reserved : set.reserveElem w allocations.elems = some ready) : Loose ready.set := by
    unfold AuthSet.reserveElem at reserved
    split at reserved
    · exact loose.reserveElems reserved
    · cases reserved
      exact loose
  split at ran
  · cases ran
  next failed reserved =>
    cases ran
    exact reserves reserved
  next ready reserved => exact (reserves reserved).pushReserved ran

variable {elems : AuthList}

theorem Loose.pushAll (loose : Loose set) (ran : set.pushAll w elems allocations = some returned) :
    Loose returned.set := by
  induction elems generalizing set with
  | nil =>
    cases ran
    exact loose
  | cons elem rest ih =>
  rw [AuthSet.pushAll] at ran
  split at ran
  · cases ran
  next failed pushed =>
    cases ran
    exact loose.pushBack pushed
  next ready pushed => exact ih (loose.pushBack pushed) ran

theorem Loose.pushBackSet (loose : Loose set) (ran : set.pushBackSet w elems allocations = some returned) :
    Loose returned.set := by
  unfold AuthSet.pushBackSet at ran
  split at ran
  · cases ran
    exact loose
  split at ran
  · cases ran
  next failed reserved =>
    cases ran
    exact loose.reserveElems reserved
  next ready reserved =>
  have first := loose.reserveElems reserved
  split at ran
  · cases ran
  next failed second =>
    cases ran
    exact first.reserveIndirect second
  next roomy second => exact (first.reserveIndirect second).pushAll ran

theorem Loose.copyIndirectData (loose : Loose set)
    (ran : set.copyIndirectData elems = some returned) : Loose returned.set := by
  induction elems generalizing set with
  | nil =>
    cases ran
    exact loose
  | cons elem rest ih =>
  rw [AuthSet.copyIndirectData] at ran
  split at ran
  · cases ran
  next ready slice copied =>
  split at ran
  · cases ran
  next done stored kept =>
  have good : Loose ready ∧ SetParam.Inside ready.indirectSize ⟨elem.tag, elem.word, slice⟩ := by
    split at copied
    · obtain ⟨appended, inside⟩ := loose.appendBlob copied
      exact ⟨appended, fun _ => inside⟩
    next plain =>
    cases copied
    exact ⟨loose, inside_of_not_blob plain _ _⟩
  exact ih (good.1.storeElem good.2 kept) ran

theorem loose_reinitializeSet (ran : reinitializeSet w elems allocations = some returned) : Loose returned.set := by
  have start : Loose empty := loose_freed _
  unfold reinitializeSet at ran
  split at ran
  · cases ran
    exact start
  split at ran
  · cases ran
  next failed reserved =>
    cases ran
    exact start.reserveElems reserved
  next ready reserved =>
  have first := start.reserveElems reserved
  split at ran
  · cases ran
  next failed second =>
    cases ran
    exact first.reserveIndirect second
  next roomy second => exact (first.reserveIndirect second).copyIndirectData ran

variable {qsort : QSort}

theorem Loose.sort (loose : Loose set) (permutes : Permutes qsort) : Loose (set.sort qsort) :=
  loose.withElems fun param member =>
    loose.inside param ((permutes set.compareParams set.elems).subset member)

theorem Loose.deduplicate (loose : Loose set) (permutes : Permutes qsort) : Loose (set.deduplicate qsort) := by
  have sorted := loose.sort permutes
  unfold AuthSet.deduplicate
  dsimp only
  split
  · exact sorted
  have marked : Loose { set.sort qsort with
      elems := (set.sort qsort).markDuplicates (set.sort qsort).elems } :=
    sorted.withElems (inside_markDuplicates sorted.inside)
  have again := marked.sort permutes
  refine again.withElems ?_
  exact fun param member => again.inside param ((drop_sublist _ _).subset member)

/-- The sizes in the bytes of a `Deserialize` are harmless. -/
def Call.Inside : Call w → Prop
  | .deserialize buffer _ => Keymaster.Tame w buffer.bytes
  | _ => True

theorem Loose.perform (word : w = 32 ∨ w = 64) (loose : Loose set) (permutes : Permutes qsort) {call : Call w}
    (inside : call.Inside) (ran : set.perform qsort call = some returned) : Loose returned.set := by
  cases call with
  | reinitializeSet elems allocations => exact loose_reinitializeSet ran
  | pushBack elem allocations => exact loose.pushBack ran
  | pushBackSet elems allocations => exact loose.pushBackSet ran
  | erase index =>
    cases ran
    unfold AuthSet.erase
    split
    · exact loose
    · exact loose.withElems fun param member =>
        loose.inside param ((eraseIdx_sublist _ _).subset member)
  | sort =>
    cases ran
    exact loose.sort permutes
  | deduplicate =>
    cases ran
    exact loose.deduplicate permutes
  | clear =>
    cases ran
    exact ⟨Nat.zero_le _, nofun⟩
  | deserialize buffer allocations =>
  have confines := (@Tame.confined w buffer allocations word inside).1
  simp only [AuthSet.perform] at ran
  cases outcome : Keymaster.deserialize buffer buffer.limit allocations buffer.base with
  | ok parsed =>
    rw [outcome] at ran confines
    cases ran
    exact ⟨le_rfl, confines.2⟩
  | error stop =>
  rw [outcome] at ran
  cases stop with
  | outOfBounds => cases ran
  | refused error =>
  cases ran
  exact loose_freed error.error

inductive Reached (qsort : QSort) (w : Nat) : AuthSet → Prop where
  | fresh : Reached qsort w empty
  | call {set after : AuthSet} (before : Reached qsort w set) (call : Call w)
      (inside : call.Inside) (ran : set.perform qsort call = some ⟨true, after⟩) :
      Reached qsort w after

theorem Reached.loose (word : w = 32 ∨ w = 64) (permutes : Permutes qsort) (reached : Reached qsort w set) :
    Loose set := by
  induction reached with
  | fresh => exact loose_freed _
  | call _ call inside ran ih => exact ih.perform word permutes inside ran

def usedIndirect (set : AuthSet) : List UInt8 := set.indirect.take set.indirectSize

def serializedSize (set : AuthSet) : Nat := Keymaster.serializedSize set.usedIndirect set.elems

def serialize (set : AuthSet) (room : Nat) (written : Written) : Written :=
  Keymaster.serialize room set.usedIndirect set.elems written

/-- A buffer in the lower part of memory, so that an array of the elements could
follow it. -/
def Roomy (set : AuthSet) (buffer : Buffer w) : Prop :=
  buffer.bytes.length + 12 ≤ 2 ^ (w - 1) ∧
    buffer.base.toNat + buffer.bytes.length + set.elems.length * paramSize w < 2 ^ w

/-- A set is written into as many bytes as it says, and reading these bytes, whatever
follows them, ends behind them with the same parameters. -/
def RoundTrip (w : Nat) (set : AuthSet) : Prop :=
  (set.serialize set.serializedSize ⟨0, []⟩).position = set.serializedSize ∧
    (set.serialize set.serializedSize ⟨0, []⟩).bytes.length = set.serializedSize ∧
    ∀ (buffer : Buffer w) (after : List UInt8),
      buffer.bytes = (set.serialize set.serializedSize ⟨0, []⟩).bytes ++ after →
      Roomy set buffer →
      ∃ parsed, Keymaster.deserialize buffer buffer.limit ⟨true, true⟩ buffer.base = .ok parsed ∧
        parsed.pointer.toNat = buffer.base.toNat + set.serializedSize ∧
        (ofParsed parsed).view = set.view

theorem Loose.length_usedIndirect (loose : Loose set) : set.usedIndirect.length = set.indirectSize := by
  unfold usedIndirect
  rw [length_take]
  exact min_eq_left loose.used

theorem serialize_eq (set : AuthSet) : set.serialize set.serializedSize ⟨0, []⟩ =
      ⟨set.serializedSize, encodeSet set.usedIndirect set.elems⟩ := by
  unfold serialize serializedSize
  rw [serialize_fits (by exact le_of_eq (zero_add _))]
  simp only [zero_add, nil_append]

theorem value_reread (data : Slice → List UInt8) (param : SetParam) : value data (reread param) = value data param := by
  unfold value
  rw [reread_tag]
  unfold reread
  cases kind : Tag.type param.tag with
  | invalid | unknown => rfl
  | enum | enumRep | uint | uintRep =>
    exact congrArg Value.number (UInt32.toUInt32_toUInt64 _)
  | ulong | ulongRep | date => rfl
  | bool =>
    cases flag : param.boolean with
    | true | false => rfl
  | bignum | bytes => rfl

theorem Loose.view_ofParsed (loose : Loose set) {count : Nat} {pointer : BitVec w} :
    (ofParsed ⟨set.usedIndirect, count, set.elems.map reread, pointer⟩).view = set.view := by
  have same : view { set with indirect := set.usedIndirect } = set.view := by
    refine view_congr rfl ?_ loose.inside
    unfold usedIndirect
    rw [take_take, min_self]
  rw [← same]
  change (set.elems.map reread).map _ = _
  rw [map_map]
  apply map_congr_left
  intro param _
  exact Prod.ext (reread_tag param) (value_reread _ param)

theorem Loose.deserialize_serialized (loose : Loose set) (word : w = 32 ∨ w = 64) (sized : set.serializedSize < 2 ^ 31)
    {buffer : Buffer w} {after : List UInt8} (bytes : buffer.bytes = encodeSet set.usedIndirect set.elems ++ after)
    (roomy : Roomy set buffer) :
    Follows buffer buffer.limit Parsed.parts (Keymaster.deserialize buffer buffer.limit ⟨true, true⟩ buffer.base)
      (if AllKnown set.elems ∧ set.indirectSize = blobTotal set.elems % 2 ^ w then
        .ok ((set.usedIndirect, set.elems.length, set.elems.map reread), after)
      else .error .malformedData) := by
  have limit := buffer.limit_toNat
  have length : buffer.bytes.length = set.serializedSize + after.length := by
    rw [bytes, length_append, length_encodeSet]
    rfl
  have data : set.usedIndirect.length < set.serializedSize := by
    unfold serializedSize Keymaster.serializedSize
    omega
  have spanIs : (BitVec.ofNat w set.usedIndirect.length).toNat = set.usedIndirect.length :=
    ofNat_small (by omega) (by omega)
  have inside := loose.inside
  rw [← loose.length_usedIndirect] at inside ⊢
  have accepted (param) (member : param ∈ set.elems) :
      SetParam.Accepted (signedExceeds w) (.ofNat w set.usedIndirect.length) param :=
    SetParam.Inside.accepted (by omega) (signedExceeds_exact (by omega))
      (by rw [spanIs]; exact inside param member) (by omega)
  have bounded : set.serializedSize + after.length < 2 ^ (w - 1) := by
    have short := roomy.1
    omega
  have read := @parseSet_encode w (signedExceeds w) (buffer.bound word) set.elems after set.usedIndirect
    (signedExceeds_exact (by omega)) accepted sized bounded
    (by change _ ≤ buffer.limit.toNat; rw [limit, length]; exact Nat.le_add_left _ _)
    (by change buffer.limit.toNat + _ < _; rw [limit]; exact roomy.2)
  rw [← read, ← bytes]
  refine (deserialize_reads word buffer.ahead ?_ _).2 ?_
  · have short := roomy.1
    rcases word with rfl | rfl
    · exact .inr short
    · exact .inl rfl
  rintro ⟨indirect, middle, first, count, second, number, size, rest, announced, _, _, more, _⟩
  rw [bytes, encodeSet] at first
  simp only [append_assoc] at first
  rw [parseSizeAndData_encode (by omega)] at first
  cases first
  have few := length_le_serializedSize set.elems
  have whole : serializedSizeOfElements set.elems ≤ set.serializedSize := by
    unfold serializedSize Keymaster.serializedSize
    omega
  rw [parseUint32_encode (by omega)] at number
  cases number
  rw [parseUint32_encode (by omega)] at announced
  cases announced
  rw [UInt32.toNat_ofNat_of_lt' (by change _ < 2 ^ 32; omega), length_append, length_encodeElems] at more
  omega

theorem exists_roomy (word : w = 32 ∨ w = 64) (sized : set.serializedSize < 2 ^ 28) :
    ∃ buffer : Buffer w, buffer.bytes = encodeSet set.usedIndirect set.elems ++ [] ∧ Roomy set buffer := by
  have length : (encodeSet set.usedIndirect set.elems).length = set.serializedSize := length_encodeSet _ _
  have fewer := length_le_serializedSize set.elems
  have whole : serializedSizeOfElements set.elems ≤ set.serializedSize := by
    unfold serializedSize Keymaster.serializedSize
    omega
  have zero : (0 : BitVec w).toNat = 0 := BitVec.toNat_zero
  rcases word with small | large
  · subst small
    refine ⟨⟨0, encodeSet set.usedIndirect set.elems, by omega⟩, (append_nil _).symm, ?_⟩
    simp only [Roomy, length, zero, paramSize, if_pos]
    omega
  subst large
  refine ⟨⟨0, encodeSet set.usedIndirect set.elems, by omega⟩, (append_nil _).symm, ?_⟩
  have size : paramSize 64 = 24 := by decide
  simp only [Roomy, length, zero, size]
  omega

/-- A set can be read again exactly if all its types are known and its indirect data
is as long as its blobs together. -/
theorem roundTrip_iff (word : w = 32 ∨ w = 64) (permutes : Permutes qsort)
    (reached : Reached qsort w set) (sized : set.serializedSize < 2 ^ 28) :
    RoundTrip w set ↔ AllKnown set.elems ∧ set.indirectSize = blobTotal set.elems % 2 ^ w := by
  have loose := reached.loose word permutes
  have written := set.serialize_eq
  unfold RoundTrip
  rw [written]
  constructor
  · intro trip
    obtain ⟨buffer, bytes, roomy⟩ := exists_roomy word sized
    obtain ⟨parsed, ran, _⟩ := trip.2.2 buffer [] bytes roomy
    have follows := loose.deserialize_serialized word (by omega) bytes roomy
    by_contra unreadable
    rw [if_neg unreadable, ran] at follows
    cases follows
  intro readable
  refine ⟨rfl, length_encodeSet _ _, ?_⟩
  intro buffer after bytes roomy
  have follows := loose.deserialize_serialized word (by omega) bytes roomy
  rw [if_pos readable] at follows
  obtain ⟨⟨indirect, count, elems, pointer⟩, ran, same, ahead⟩ := follows
  cases same
  refine ⟨_, ran, ?_, loose.view_ofParsed⟩
  have length : buffer.bytes.length = set.serializedSize + after.length := by
    rw [bytes, length_append, length_encodeSet]
    rfl
  have behind := ahead.length
  have limit := buffer.limit_toNat
  have order : pointer.toNat ≤ buffer.limit.toNat := ahead.1.2.1
  change pointer.toNat = _
  dsimp only [Parsed.parts] at behind
  omega

def blobs (slices : List Slice) (indirect : List UInt8) (size : Nat) : AuthSet where
  elems := slices.map fun slice => ⟨Tag.applicationData, 0, slice⟩
  elemsCapacity := 8
  elemsAllocated := 8
  indirect := indirect
  indirectSize := size
  indirectCapacity := 8
  error := .ok

def twoBlobs : AuthSet := blobs [⟨0, 4⟩, ⟨4, 4⟩] [1, 2, 3, 4, 1, 2, 3, 4] 8

def oneErased : AuthSet := blobs [⟨4, 4⟩] [1, 2, 3, 4, 1, 2, 3, 4] 8

theorem reached_twoBlobs : Reached mergeSort 64 twoBlobs := by
  have first : empty.perform mergeSort pushFourBytes =
      some ⟨true, blobs [⟨0, 4⟩] [1, 2, 3, 4, 0, 0, 0, 0] 4⟩ := by decide +kernel
  have second : (blobs [⟨0, 4⟩] [1, 2, 3, 4, 0, 0, 0, 0] 4).perform mergeSort pushFourBytes =
      some ⟨true, twoBlobs⟩ := by decide +kernel
  exact .call (.call .fresh pushFourBytes True.intro first) pushFourBytes True.intro second

theorem reached_oneErased : Reached mergeSort 64 oneErased := by
  have erased : twoBlobs.perform mergeSort (.erase 0 : Call 64) = some ⟨true, oneErased⟩ := by
    decide +kernel
  exact .call reached_twoBlobs (.erase 0) True.intro erased

/-- Two blobs can be read again. -/
theorem two_blobs_read_again : Reached mergeSort 64 twoBlobs ∧ RoundTrip 64 twoBlobs :=
  ⟨reached_twoBlobs, (roundTrip_iff (.inr rfl) permutes_mergeSort reached_twoBlobs (by decide)).mpr
      ⟨by decide, by decide⟩⟩

def oneErasedBuffer : Buffer 64 where
  base := 0x1000
  bytes := (oneErased.serialize oneErased.serializedSize ⟨0, []⟩).bytes
  fits := by decide +kernel

/-- What is left when one of them is erased can not, as the data of the erased one is
still serialized. -/
theorem erased_not_read_again : Reached mergeSort 64 oneErased ∧ AllKnown oneErased.elems ∧
    ¬RoundTrip 64 oneErased := by
  refine ⟨reached_oneErased, by decide, ?_⟩
  intro trip
  have refused : Keymaster.deserialize oneErasedBuffer oneErasedBuffer.limit ⟨true, true⟩
      oneErasedBuffer.base = .error (.refused .malformedData) := by
    decide +kernel
  have roomy : Roomy oneErased oneErasedBuffer := by
    unfold Roomy
    decide +kernel
  obtain ⟨parsed, ran, _⟩ := trip.2.2 oneErasedBuffer [] (append_nil _).symm roomy
  cases ran

end Trusty.Keymaster.AuthSet
