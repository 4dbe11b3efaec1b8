import Trusty.Keymaster.KeyBlob
import Trusty.Keymaster.RoundTripProperties

/-!
Sets in key blobs: what their bytes tell, what is read from bytes, and the sets that
`push_back` builds.
-/

namespace Trusty.Keymaster

open List SetData

variable {w : Nat}

structure SetData.Canon (w : Nat) (set : SetData) : Prop where
  accepted : ∀ param ∈ set.elems, SetParam.Accepted (signedExceeds w) (.ofNat w set.indirect.length) param
  known : AllKnown set.elems
  total : set.indirect.length = blobTotal set.elems % 2 ^ w

def SetData.reread (set : SetData) : SetData := ⟨set.indirect, set.elems.map Keymaster.reread⟩

theorem SetData.length_bytes (set : SetData) : set.bytes.length = serializedSize set.indirect set.elems :=
  length_encodeSet _ _

theorem SetData.view_reread (set : SetData) : set.reread.view = set.view := by
  unfold SetData.view SetData.reread
  rw [map_map]
  apply map_congr_left
  intro param _
  exact Prod.ext (reread_tag param) (AuthSet.value_reread
    (fun slice => (set.indirect.drop slice.offset).take slice.length) param)

theorem encodeParam_reread (param : SetParam) : encodeParam (reread param) = encodeParam param := by
  unfold encodeParam encodeValue
  rw [reread_tag]
  unfold reread
  cases Tag.type param.tag with
  | enum | enumRep | uint | uintRep =>
    simp only [Param.integer, UInt32.toUInt32_toUInt64]
  | bool =>
    cases param.boolean with
    | true | false => rfl
  | _ => rfl

theorem SetData.bytes_reread (set : SetData) : set.reread.bytes = set.bytes := by
  have each : (set.elems.map Keymaster.reread).map encodeParam = set.elems.map encodeParam := by
    rw [map_map]
    exact map_congr_left fun param _ => encodeParam_reread param
  have size : serializedSizeOfElements (set.elems.map Keymaster.reread) = serializedSizeOfElements set.elems := by
    rw [← length_encodeElems, each, length_encodeElems]
  unfold SetData.bytes SetData.reread encodeSet
  rw [each, size, length_map]

/-- The input is shorter than `2^31` bytes, and there is room for its parameters behind it. -/
structure Fits (limit : Limit w) (length : Nat) : Prop where
  small : length < 2 ^ 31
  below : length ≤ limit.address.toNat
  above : limit.address.toNat + 6 * length < 2 ^ w

theorem SetData.Canon.parse {limit : Limit w} {set : SetData} (canon : set.Canon w) {rest : List UInt8}
    (fits : Fits limit (set.bytes.length + rest.length)) :
    parseSetData limit ⟨true, true⟩ (set.bytes ++ rest) = .ok (set.reread, rest) := by
  obtain ⟨small, below, above⟩ := fits
  rw [set.length_bytes] at small below above
  have wide := limit.wide
  have fewer := length_le_serializedSize set.elems
  have whole : serializedSizeOfElements set.elems ≤ serializedSize set.indirect set.elems := by
    unfold serializedSize
    omega
  have half : (2 : Nat) ^ 31 ≤ 2 ^ (w - 1) := Nat.pow_le_pow_right (by decide) (by omega)
  have array : set.elems.length * paramSize w ≤ set.elems.length * 24 := by
    unfold paramSize
    split <;> omega
  have read := @parseSet_encode w (signedExceeds w) limit set.elems rest set.indirect
    (signedExceeds_exact (by omega)) canon.accepted (by omega) (by omega) below (by omega)
  rw [if_pos ⟨canon.known, canon.total⟩] at read
  unfold parseSetData SetData.bytes
  rw [read]
  rfl

theorem SetData.Canon.bytes_inj {set other : SetData} (canon : set.Canon w) (canon' : other.Canon w)
    {rest rest' : List UInt8} (small : set.bytes.length + rest.length < 2 ^ 31)
    (same : set.bytes ++ rest = other.bytes ++ rest') : set.reread = other.reread ∧ rest = rest' := by
  have small' : other.bytes.length + rest'.length < 2 ^ 31 := by
    rw [← length_append, ← same, length_append]
    exact small
  have fewer := length_le_serializedSize set.elems
  have fewer' := length_le_serializedSize other.elems
  rw [length_bytes, serializedSize] at small small'
  unfold SetData.bytes encodeSet at same
  simp only [append_assoc] at same
  have data := congrArg (parseSizeAndData true) same
  rw [parseSizeAndData_encode (by omega), parseSizeAndData_encode (by omega)] at data
  obtain ⟨indirects, same⟩ := Prod.mk.inj (Except.ok.inj data)
  obtain ⟨counts, same⟩ := append_inj same rfl
  obtain ⟨_, same⟩ := append_inj same rfl
  have counts := congrArg LittleEndian.decode counts
  rw [LittleEndian.decode_encode (by omega), LittleEndian.decode_encode (by omega)] at counts
  have loop := parseElems_encode canon.accepted rest
  have loop' := parseElems_encode (indirects ▸ canon'.accepted) rest'
  rw [if_pos canon.known, same, counts] at loop
  rw [if_pos canon'.known, loop] at loop'
  obtain ⟨elems, rests⟩ := Prod.mk.inj (Except.ok.inj loop')
  exact ⟨SetData.mk.injEq .. |>.mpr ⟨indirects, elems⟩, rests⟩

theorem parseSetData_canon {limit : Limit w} {allocations : Allocations} {content rest : List UInt8} {set : SetData}
    (read : parseSetData limit allocations content = .ok (set, rest)) :
    set.Canon w ∧ set.reread = set ∧ rest = content.drop set.bytes.length := by
  obtain ⟨⟨⟨indirect, count, elems⟩, behind⟩, parsed, same⟩ := bind_ok read
  cases same
  obtain ⟨size, pieces, bytes, whole, left, spelled⟩ := parseSet_inv parsed
  have each := spelled.each
  refine ⟨⟨Spelled.forall each fun _ _ spelled => spelled.accepted, Spelled.forall each fun _ _ spelled => spelled.known,
    spelled.total⟩, ?_, ?_⟩
  · have same : elems.map reread = elems := by
      have eachSame := Spelled.forall each fun _ _ spelled => spelled.reread
      rw [map_congr_left eachSame, map_id']
    unfold SetData.reread
    rw [same]
  · rw [length_bytes, serializedSize, ← drop_drop, ← drop_drop, whole, drop_spellSet,
      LittleEndian.drop_encode, left]

/-- The set that `Deserialize` has read, and the pointer behind it. -/
def Parsed.setData (parsed : Parsed w) : SetData × BitVec w :=
  (⟨parsed.indirect, parsed.elems⟩, parsed.pointer)

/-- `Deserialize` leaves the buffer exactly if the input is overrun, which never happens in 64
bits, and else reads as from a list. -/
theorem deserialize_setData (word : w = 32 ∨ w = 64) {buffer : Buffer w} {pointer : BitVec w} {content : List UInt8}
    (ahead : buffer.Ahead buffer.limit pointer content) (short : w = 64 ∨ content.length + 12 ≤ 2 ^ 31)
    (allocations : Allocations) :
    (Overrun (buffer.bound word) allocations content →
      w = 32 ∧ deserialize buffer buffer.limit allocations pointer = .error .outOfBounds) ∧
    (¬Overrun (buffer.bound word) allocations content →
      Follows buffer buffer.limit Parsed.setData (deserialize buffer buffer.limit allocations pointer)
        (parseSetData (buffer.bound word) allocations content)) := by
  obtain ⟨outside, inside⟩ := deserialize_reads word ahead short allocations
  refine ⟨fun overrun => ⟨?_, outside overrun⟩, fun whole => ?_⟩
  · rcases word with narrow | rfl
    · exact narrow
    have length := ahead.length
    have top := buffer.limit.isLt
    exact absurd overrun (harmless_wide _ (by omega)).1
  have follows := inside whole
  unfold parseSetData
  generalize parseSet (signedExceeds w) (buffer.bound word) allocations content = read at follows
  cases read with
  | error reason => exact follows
  | ok found =>
  obtain ⟨set, rest⟩ := found
  obtain ⟨parsed, ran, rfl, behind⟩ := follows
  exact ⟨parsed, ran, rfl, behind⟩

/-- The bytes that lead outside are overrun. -/
theorem huge_elements_overrun : Overrun (hugeElements.bound (.inl rfl)) ⟨true, true⟩ hugeElements.bytes ∧
    deserialize hugeElements hugeElements.limit ⟨true, true⟩ hugeElements.base = .error .outOfBounds := by
  have overrun : Overrun (hugeElements.bound (.inl rfl)) ⟨true, true⟩ hugeElements.bytes :=
    ⟨[], _, rfl, 1, _, rfl, 0x80000000, [], rfl, by decide, by decide, by decide, by decide, .inl (.inl (by decide))⟩
  exact ⟨overrun, ((deserialize_setData (.inl rfl) hugeElements.ahead (.inr (by decide)) ⟨true, true⟩).1 overrun).2⟩

/-- What `push_back` keeps. -/
structure SetData.Built (set : SetData) : Prop where
  inside : ∀ param ∈ set.elems, SetParam.Inside set.indirect.length param
  total : set.indirect.length = blobTotal set.elems

theorem blobTotal_append (elems : List SetParam) (param : SetParam) : blobTotal (elems ++ [param]) =
      blobTotal elems + if param.tag.isBlob then param.blob.length else 0 := by
  unfold blobTotal
  rw [map_append, sum_append]
  rfl

theorem SetData.Built.place {set : SetData} (built : set.Built) (param : KeyParam) :
    (set.place param).Built ∧ (set.place param).view = set.view ++ [AuthSet.viewParam param] := by
  unfold SetData.place
  split
  next blob =>
    refine ⟨⟨?_, ?_⟩, ?_⟩
    · intro found member
      rw [length_append]
      rcases mem_append.mp member with old | new
      · exact fun isBlob => Nat.le_trans (built.inside found old isBlob) (Nat.le_add_right _ _)
      · rw [mem_singleton.mp new]
        exact fun _ => Nat.le_refl _
    · rw [blobTotal_append, if_pos blob, length_append, built.total]
    unfold SetData.view
    rw [map_append]
    congr 1
    · apply map_congr_left
      intro found member
      refine congrArg (Prod.mk found.tag) ?_
      cases kind : found.tag.isBlob with
      | false => exact AuthSet.value_of_not_blob kind rfl rfl
      | true =>
      have inside : found.blob.offset + found.blob.length ≤ set.indirect.length := built.inside found member kind
      refine AuthSet.value_of_blob rfl rfl ?_
      rw [drop_append_of_le_length (by omega), take_append_of_le_length]
      rw [length_drop]
      omega
    · refine congrArg (fun value => [(param.tag, value)]) ?_
      refine AuthSet.value_of_blob rfl rfl ?_
      change ((set.indirect ++ param.blob).drop set.indirect.length).take param.blob.length = param.blob
      rw [drop_left, take_length]
  next plain =>
  refine ⟨⟨?_, ?_⟩, ?_⟩
  · intro found member
    rcases mem_append.mp member with old | new
    · exact built.inside found old
    · rw [mem_singleton.mp new]
      exact fun isBlob => absurd isBlob plain
  · rw [blobTotal_append, if_neg plain, built.total]
    rfl
  · unfold SetData.view
    rw [map_append]
    refine congrArg (fun value => _ ++ [(param.tag, value)]) ?_
    exact AuthSet.value_of_not_blob (Bool.eq_false_iff.mpr plain) rfl rfl

theorem SetData.ofParams_built (params : AuthList) : (SetData.ofParams params).Built ∧
      (SetData.ofParams params).view = List.map AuthSet.viewParam params := by
  have fold (params : List KeyParam) (set : SetData) (built : set.Built) : (params.foldl SetData.place set).Built ∧
        (params.foldl SetData.place set).view = set.view ++ params.map AuthSet.viewParam := by
    induction params generalizing set with
    | nil => exact ⟨built, (append_nil _).symm⟩
    | cons param others ih =>
    obtain ⟨next, shown⟩ := built.place param
    obtain ⟨all, view⟩ := ih _ next
    refine ⟨all, ?_⟩
    rw [foldl_cons, view, shown, append_assoc]
    rfl
  exact fold params ⟨[], []⟩ ⟨nofun, rfl⟩

theorem SetData.ofParams_canon {params : AuthList} (known : ∀ param ∈ params, (Tag.type param.tag).known = true)
    (wide : 32 ≤ w) (small : (SetData.ofParams params).bytes.length < 2 ^ 31) : (SetData.ofParams params).Canon w := by
  obtain ⟨built, view⟩ := ofParams_built params
  rw [length_bytes] at small
  unfold serializedSize at small
  have spanIs : (BitVec.ofNat w (SetData.ofParams params).indirect.length).toNat =
      (SetData.ofParams params).indirect.length := ofNat_small wide (by omega)
  refine ⟨fun param member => SetParam.Inside.accepted wide (signedExceeds_exact (by omega))
    (by rw [spanIs]; exact built.inside param member) (by omega), ?_, ?_⟩
  · intro elem member
    have shown : elem.tag ∈ (SetData.ofParams params).view.map Prod.fst := by
      unfold SetData.view
      rw [map_map]
      exact mem_map_of_mem member
    rw [view, map_map] at shown
    obtain ⟨param, from_, same⟩ := mem_map.mp shown
    rw [← same]
    exact known param from_
  · have most : (2 : Nat) ^ 32 ≤ 2 ^ w := Nat.pow_le_pow_right (by decide) wide
    rw [← built.total, Nat.mod_eq_of_lt]
    omega

namespace AuthSet

def data (set : AuthSet) : SetData := ⟨set.usedIndirect, set.elems⟩

variable {set ready : AuthSet} {allocated : Bool}

theorem reserveElems_data {count : Nat}
    (reserved : set.reserveElems w count allocated = some ⟨true, ready⟩) : ready.data = set.data := by
  unfold reserveElems at reserved
  split_ifs at reserved <;> cases reserved <;> rfl

theorem reserveIndirect_data (loose : Loose set) {length : Nat}
    (reserved : set.reserveIndirect length allocated = some ⟨true, ready⟩) : ready.data = set.data := by
  unfold reserveIndirect at reserved
  split_ifs at reserved <;> cases reserved
  · have used : (set.indirect.take set.indirectSize).length = set.indirectSize := loose.length_usedIndirect
    unfold data usedIndirect
    dsimp only
    rw [take_append_of_le_length (by omega), take_take, min_self]
  · rfl

theorem appendBlob_data (loose : Loose set) {copied : AuthSet} {bytes : List UInt8} {slice : Slice}
    (appended : set.appendBlob bytes = some (copied, slice)) :
    copied.data = ⟨set.usedIndirect ++ bytes, set.elems⟩ ∧ slice = ⟨set.usedIndirect.length, bytes.length⟩ := by
  have used : (set.indirect.take set.indirectSize).length = set.indirectSize := loose.length_usedIndirect
  unfold appendBlob writeIndirect at appended
  split_ifs at appended
  cases appended
  unfold data usedIndirect
  rw [take_left' (by rw [length_append, used]), used]
  exact ⟨rfl, rfl⟩

theorem storeElem_data {elem : SetParam} (pushed : set.storeElem elem = some ⟨true, ready⟩) :
    ready.data = ⟨set.data.indirect, set.data.elems ++ [elem]⟩ := by
  unfold storeElem at pushed
  split_ifs at pushed
  cases pushed
  rfl

theorem pushReserved_data (loose : Loose set) {elem : KeyParam}
    (pushed : set.pushReserved w elem allocated = some ⟨true, ready⟩) : ready.data = set.data.place elem := by
  unfold pushReserved at pushed
  unfold SetData.place
  split at pushed
  next blob =>
    rw [if_pos blob]
    split at pushed
    next => nomatch pushed
    next => nomatch pushed
    next roomy reserved =>
    have same : roomy.data = set.data := by
      unfold reserveBlob at reserved
      split_ifs at reserved
      · exact reserveIndirect_data loose reserved
      · cases reserved
        rfl
    split at pushed
    next => nomatch pushed
    next copied slice appended =>
    obtain ⟨copiedData, place⟩ := appendBlob_data (loose.reserveBlob reserved) appended
    rw [storeElem_data pushed, copiedData, place, ← same]
    rfl
  next plain =>
  rw [if_neg plain]
  exact storeElem_data pushed

theorem pushBack_data (loose : Loose set) {elem : KeyParam} {allocations : Allocations}
    (pushed : set.pushBack w elem allocations = some ⟨true, ready⟩) : ready.data = set.data.place elem := by
  unfold pushBack at pushed
  split at pushed
  next => nomatch pushed
  next =>
  split at pushed
  next => nomatch pushed
  next => nomatch pushed
  next roomy reserved =>
  have same : roomy.data = set.data ∧ Loose roomy := by
    unfold reserveElem at reserved
    split at reserved
    · exact ⟨reserveElems_data reserved, loose.reserveElems reserved⟩
    · cases reserved
      exact ⟨rfl, loose⟩
  rw [← same.1]
  exact pushReserved_data same.2 pushed

inductive Pushed (w : Nat) : AuthSet → AuthList → AuthSet → Prop where
  | done (set : AuthSet) : Pushed w set [] set
  | push {set next last : AuthSet} {elem : KeyParam} {others : AuthList} {allocations : Allocations} :
      set.pushBack w elem allocations = some ⟨true, next⟩ → Pushed w next others last →
      Pushed w set (elem :: others) last

/-- Calls of `push_back` that succeed place one parameter after the other. -/
theorem pushed_places {params : AuthList} {last : AuthSet} (pushed : Pushed w set params last)
    (loose : Loose set) : last.data = List.foldl SetData.place set.data params := by
  induction pushed with
  | done => rfl
  | push first _ ih =>
  rw [ih (loose.pushBack first), pushBack_data loose first]
  rfl

/-- The third parameter moves the indirect data. -/
theorem four_bytes_placed : ∃ last, Pushed 32 empty (.replicate 3 fourBytes) last ∧ last.indirectCapacity = 24 ∧
    last.data = .ofParams (.replicate 3 fourBytes) := by
  have pushed := @Pushed.push 32 empty _ _ fourBytes _ ⟨true, true⟩ rfl
    (@Pushed.push 32 _ _ _ fourBytes _ ⟨true, true⟩ rfl
      (@Pushed.push 32 _ _ _ fourBytes [] ⟨true, true⟩ rfl (.done _)))
  exact ⟨_, pushed, by decide, pushed_places pushed (loose_freed .ok)⟩

end AuthSet

end Trusty.Keymaster
