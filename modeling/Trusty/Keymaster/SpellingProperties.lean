import Trusty.Keymaster.EncodeProperties

/-!
Which bytes are read as a given set. There are several: a boolean can be any byte, and
more bytes can be announced than the elements need.
-/

namespace Trusty.Keymaster

open List UInt32

open LittleEndian (encode decode decode_lt encode_decode)

variable {w : Nat} {exceeds : Exceeds w} {span : BitVec w} {content rest : List UInt8}

theorem parseBytes_inv {size : Nat} {bytes : List UInt8} (read : parseBytes size content = .ok (bytes, rest)) :
    content = bytes ++ rest ∧ bytes.length = size := by
  unfold parseBytes at read
  split at read
  next enough =>
    cases read
    refine ⟨(take_append_drop _ _).symm, ?_⟩
    rw [length_take]
    omega
  · cases read

theorem parseUint32_inv {value : UInt32} (read : parseUint32 content = .ok (value, rest)) :
    content = encode 4 value.toNat ++ rest := by
  obtain ⟨⟨bytes, behind⟩, front, same⟩ := bind_ok read
  obtain ⟨split, length⟩ := parseBytes_inv front
  have small := decode_lt bytes
  rw [length] at small
  have number : (UInt32.ofNat (decode bytes)).toNat = decode bytes := toNat_ofNat_of_lt small
  cases same
  rw [split, number, ← length, encode_decode]

theorem parseUint64_inv {value : UInt64} (read : parseUint64 content = .ok (value, rest)) :
    content = encode 8 value.toNat ++ rest := by
  obtain ⟨⟨bytes, behind⟩, front, same⟩ := bind_ok read
  obtain ⟨split, length⟩ := parseBytes_inv front
  have small := decode_lt bytes
  rw [length] at small
  have number : (UInt64.ofNat (decode bytes)).toNat = decode bytes := UInt64.toNat_ofNat_of_lt small
  cases same
  rw [split, number, ← length, encode_decode]

theorem parseSizeAndData_inv {allocated : Bool} {data : List UInt8}
    (read : parseSizeAndData allocated content = .ok (data, rest)) :
    content = encode 4 data.length ++ (data ++ rest) ∧ data.length < 2 ^ 32 := by
  obtain ⟨⟨length, behind⟩, front, read⟩ := bind_ok read
  have start := parseUint32_inv front
  have small : length.toNat < 2 ^ 32 := length.toNat_lt
  dsimp only at read
  split at read
  · cases read
  split at read
  next zero =>
    cases read
    rw [zero] at start
    exact ⟨start, by decide⟩
  · split at read
    · cases read
    · obtain ⟨split, same⟩ := parseBytes_inv read
      rw [start, split, same]
      exact ⟨rfl, small⟩

structure Spelled (exceeds : Exceeds w) (span : BitVec w) (param : SetParam) (bytes : List UInt8) : Prop where
  known : (Tag.type param.tag).known = true
  reread : reread param = param
  accepted : param.Accepted exceeds span
  length : bytes.length = paramSerializedSize param
  exact : bytes = encodeParam param ∨ Tag.type param.tag = .bool ∧
    ∃ byte, 1 < byte ∧ bytes = encode 4 param.tag.toNat ++ [byte]

theorem parseBlob_inv {slice : Slice} (read : parseBlob exceeds span content = .ok (slice, rest)) :
    content = encode 4 slice.length ++ (encode 4 slice.offset ++ rest) ∧ slice.Accepted exceeds span := by
  obtain ⟨⟨dataLength, second⟩, first, read⟩ := bind_ok read
  obtain ⟨⟨offset, behind⟩, next, read⟩ := bind_ok read
  dsimp only at read next
  split at read
  · cases read
  next passed =>
  cases read
  refine ⟨?_, offset.toNat_lt, dataLength.toNat_lt, ?_⟩
  · rw [parseUint32_inv first, parseUint32_inv next]
  · rwa [UInt32.ofNat_toNat, UInt32.ofNat_toNat]

theorem spelled_exact {param : SetParam} (known : (Tag.type param.tag).known = true) (same : reread param = param)
    (accepted : param.Accepted exceeds span) : Spelled exceeds span param (encodeParam param) where
  known := known
  reread := same
  accepted := accepted
  length := length_encodeParam param
  exact := .inl rfl

theorem accepted_of_type {tag : Tag} {word : UInt64} {slice : Slice} (plain : tag.isBlob = false) :
    SetParam.Accepted exceeds span ⟨tag, word, slice⟩ :=
  fun blob => nomatch plain.symm.trans blob

theorem parseParam_inv {param : SetParam} (read : parseParam exceeds span content = .ok (param, rest)) :
    ∃ bytes, content = bytes ++ rest ∧ Spelled exceeds span param bytes := by
  obtain ⟨⟨tag, second⟩, first, read⟩ := bind_ok read
  obtain ⟨⟨⟨word, blob⟩, behind⟩, value, read⟩ := bind_ok read
  cases read
  have start := parseUint32_inv first
  cases kind : Tag.type tag with
  | invalid | unknown =>
    rw [kind] at value
    cases value
  | enum | enumRep | uint | uintRep =>
    rw [kind] at value
    obtain ⟨⟨number, last⟩, read, same⟩ := bind_ok value
    cases same
    have param : Spelled exceeds span ⟨tag, number.toUInt64, ⟨0, 0⟩⟩ (encodeParam ⟨tag, number.toUInt64, ⟨0, 0⟩⟩) := by
      refine spelled_exact (by rw [kind]; rfl) ?_ (accepted_of_type (by simp [Tag.isBlob, kind]))
      simp only [reread, kind, Param.integer, toUInt32_toUInt64]
    refine ⟨_, ?_, param⟩
    rw [start, parseUint32_inv read]
    simp only [encodeParam, encodeValue, kind, Param.integer, toUInt32_toUInt64, append_assoc]
  | ulong | ulongRep | date =>
    rw [kind] at value
    obtain ⟨⟨number, last⟩, read, same⟩ := bind_ok value
    cases same
    have param : Spelled exceeds span ⟨tag, word, ⟨0, 0⟩⟩ (encodeParam ⟨tag, word, ⟨0, 0⟩⟩) := by
      refine spelled_exact (by rw [kind]; rfl) ?_ (accepted_of_type (by simp [Tag.isBlob, kind]))
      simp only [reread, kind, Param.longInteger]
    refine ⟨_, ?_, param⟩
    rw [start, parseUint64_inv read]
    simp only [encodeParam, encodeValue, kind, Param.longInteger, append_assoc]
  | bignum | bytes =>
    rw [kind] at value
    obtain ⟨⟨slice, last⟩, read, same⟩ := bind_ok value
    cases same
    obtain ⟨bytes, accepted⟩ := parseBlob_inv read
    have param : Spelled exceeds span ⟨tag, 0, blob⟩ (encodeParam ⟨tag, 0, blob⟩) := by
      refine spelled_exact (by rw [kind]; rfl) ?_ (fun _ => accepted)
      simp only [reread, kind]
    refine ⟨_, ?_, param⟩
    rw [start, bytes]
    simp only [encodeParam, encodeValue, kind, append_assoc]
  | bool =>
  rw [kind] at value
  obtain ⟨⟨flag, last⟩, read, same⟩ := bind_ok value
  cases same
  cases second with
  | nil => cases read
  | cons byte tail =>
  cases read
  have plain (word : UInt64) : SetParam.Accepted exceeds span ⟨tag, word, ⟨0, 0⟩⟩ :=
    accepted_of_type (by simp [Tag.isBlob, kind])
  have known : (Tag.type tag).known = true := by rw [kind]; rfl
  refine ⟨encode 4 tag.toNat ++ [byte], ?_, known, ?_, plain _, ?_, ?_⟩
  · rw [start, append_assoc]
    rfl
  · simp only [reread, kind]
    by_cases zero : byte = 0
    · rw [if_pos zero]
      rfl
    · rw [if_neg zero]
      rfl
  · simp only [paramSerializedSize, kind, length_append, LittleEndian.length_encode]
    rfl
  simp only [encodeParam, encodeValue, kind]
  by_cases zero : byte = 0
  · rw [if_pos zero, zero]
    exact .inl rfl
  rw [if_neg zero]
  by_cases one : byte = 1
  · rw [one]
    exact .inl rfl
  refine .inr ⟨trivial, byte, ?_, rfl⟩
  rw [UInt8.lt_iff_toNat_lt]
  have notZero : byte.toNat ≠ 0 := fun same => zero (UInt8.toNat_inj.mp same)
  have notOne : byte.toNat ≠ 1 := fun same => one (UInt8.toNat_inj.mp same)
  change 1 < byte.toNat
  omega

theorem parseElems_inv {count : Nat} {elems : List SetParam}
    (read : parseElems exceeds span count content = .ok (elems, rest)) : elems.length = count ∧
      ∃ pieces, content = List.flatten pieces ++ rest ∧ Forall₂ (Spelled exceeds span) elems pieces := by
  induction count generalizing content elems with
  | zero =>
    cases read
    exact ⟨rfl, [], rfl, .nil⟩
  | succ count ih =>
  obtain ⟨⟨param, second⟩, first, read⟩ := bind_ok read
  obtain ⟨⟨others, behind⟩, next, read⟩ := bind_ok read
  cases read
  obtain ⟨bytes, start, spelled⟩ := parseParam_inv first
  obtain ⟨length, pieces, further, each⟩ := ih next
  refine ⟨congrArg (· + 1) length, bytes :: pieces, ?_, .cons spelled each⟩
  rw [start, further, flatten_cons, append_assoc]

theorem Spelled.length_flatten {elems : List SetParam} {pieces : List (List UInt8)}
    (each : Forall₂ (Spelled exceeds span) elems pieces) : pieces.flatten.length = serializedSizeOfElements elems := by
  induction each with
  | nil => rfl
  | cons spelled _ ih =>
  rw [flatten_cons, length_append, spelled.length, ih]
  rfl

theorem Spelled.forall {elems : List SetParam} {pieces : List (List UInt8)} {holds : SetParam → Prop}
    (each : Forall₂ (Spelled exceeds span) elems pieces)
    (implies : ∀ param piece, Spelled exceeds span param piece → holds param) : ∀ param ∈ elems, holds param := by
  induction each with
  | nil => exact nofun
  | cons spelled _ ih => exact forall_mem_cons.mpr ⟨implies _ _ spelled, ih⟩

theorem Limit.length_window_le (limit : Limit w) (size : BitVec w) (content : List UInt8) :
    (limit.window size content).length ≤ size.toNat := by
  unfold Limit.window
  split
  · exact Nat.zero_le _
  · rw [length_take]
    exact Nat.min_le_left _ _

/-- A set as it stands in the bytes: what is announced for its elements, and the bytes of
each of them, which can go on behind the input. -/
structure SetSpelled (exceeds : Exceeds w) (limit : Limit w) (indirect : List UInt8) (elems : List SetParam)
    (size : Nat) (pieces : List (List UInt8)) (bytes : List UInt8) : Prop where
  indirectSmall : indirect.length < 2 ^ 32
  countSmall : elems.length < 2 ^ 32
  sizeSmall : size < 2 ^ 32
  enough : serializedSizeOfElements elems ≤ size
  total : indirect.length = blobTotal elems % 2 ^ w
  window : ∃ left, limit.window (.ofNat w size) bytes = pieces.flatten ++ left
  each : Forall₂ (Spelled exceeds (.ofNat w indirect.length)) elems pieces

def spellSet (indirect : List UInt8) (elems : List SetParam) (size : Nat) (bytes : List UInt8) : List UInt8 :=
  encode 4 indirect.length ++ (indirect ++ (encode 4 elems.length ++ (encode 4 size ++ bytes)))

theorem drop_spellSet (indirect : List UInt8) (elems : List SetParam) (size : Nat) (bytes : List UInt8) :
    (spellSet indirect elems size bytes).drop (4 + indirect.length + 4) = encode 4 size ++ bytes := by
  have front : (encode 4 indirect.length ++ (indirect ++ encode 4 elems.length)).length = 4 + indirect.length + 4 := by
    simp only [length_append, LittleEndian.length_encode]
    omega
  have whole : spellSet indirect elems size bytes =
      (encode 4 indirect.length ++ (indirect ++ encode 4 elems.length)) ++ (encode 4 size ++ bytes) := by
    simp only [spellSet, append_assoc]
  rw [whole, ← front, drop_left]

theorem parseSet_inv {limit : Limit w} {allocations : Allocations} {indirect : List UInt8} {count : Nat}
    {elems : List SetParam} (read : parseSet exceeds limit allocations content = .ok ((indirect, count, elems), rest)) :
    ∃ size pieces bytes, content = spellSet indirect elems size bytes ∧
      rest = bytes.drop (serializedSizeOfElements elems) ∧
      SetSpelled exceeds limit indirect elems size pieces bytes := by
  obtain ⟨⟨data, second⟩, first, read⟩ := bind_ok read
  obtain ⟨start, indirectSmall⟩ := parseSizeAndData_inv first
  obtain ⟨⟨⟨number, found⟩, behind⟩, elements, read⟩ := bind_ok read
  dsimp only at read elements
  split at read
  · cases read
  next total =>
  cases read
  obtain ⟨⟨elementsCount, third⟩, countRead, elements⟩ := bind_ok elements
  obtain ⟨⟨elementsSize, fourth⟩, sizeRead, elements⟩ := bind_ok elements
  have countIs := toSize_toNat limit.wide elementsCount
  have sizeIs := toSize_toNat limit.wide elementsSize
  dsimp only at elements
  split at elements
  · cases elements
  split at elements
  · cases elements
  obtain ⟨⟨loop, left⟩, loopRead, elements⟩ := bind_ok elements
  cases elements
  obtain ⟨⟨elems, last⟩, elemsRead, same⟩ := bind_ok loopRead
  cases same
  obtain ⟨length, pieces, split, each⟩ := parseElems_inv elemsRead
  have flatten := Spelled.length_flatten each
  have most := limit.length_window_le (toSize w elementsSize) fourth
  have lengths := congrArg List.length split
  rw [length_append, flatten] at lengths
  dsimp only at total ⊢
  have few : elementsCount.toNat < 2 ^ 32 := elementsCount.toNat_lt
  refine ⟨elementsSize.toNat, pieces, fourth, ?_, ?_, indirectSmall, by omega, elementsSize.toNat_lt, by omega, not_not.mp total,
    ⟨last, split⟩, each⟩
  · have number : elementsCount.toNat = loop.length := countIs.symm.trans length.symm
    rw [start, parseUint32_inv countRead, parseUint32_inv sizeRead, number]
    rfl
  · congr 1
    omega

end Trusty.Keymaster
