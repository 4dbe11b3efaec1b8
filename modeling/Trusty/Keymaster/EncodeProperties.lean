import Trusty.Keymaster.ParseProperties

/-!
The bytes that `Serialize` writes, and what reading them gives.
-/

namespace Trusty.Keymaster

open List UInt32

open List (append_assoc length_append map_cons map_map)

open LittleEndian (encode length_encode decode_encode)

variable {w : Nat}

def encodeValue (param : SetParam) : List UInt8 :=
  match param.tag.type with
  | .invalid | .unknown => []
  | .enum | .enumRep | .uint | .uintRep => encode 4 param.integer.toNat
  | .ulong | .ulongRep | .date => encode 8 param.longInteger.toNat
  | .bool => [if param.boolean then 1 else 0]
  | .bignum | .bytes =>
    encode 4 param.blob.length ++ encode 4 param.blob.offset

def encodeParam (param : SetParam) : List UInt8 :=
  encode 4 param.tag.toNat ++ encodeValue param

def encodeSet (indirect : List UInt8) (elems : List SetParam) : List UInt8 :=
  encode 4 indirect.length ++ (indirect ++ (encode 4 elems.length ++
    (encode 4 (serializedSizeOfElements elems) ++ (elems.map encodeParam).flatten)))

theorem length_encodeParam (param : SetParam) : (encodeParam param).length = paramSerializedSize param := by
  unfold encodeParam encodeValue paramSerializedSize
  cases Tag.type param.tag with
  | _ => simp only [length_append, length_encode, length_nil,
      length_singleton]

theorem length_encodeElems (elems : List SetParam) :
    (elems.map encodeParam).flatten.length = serializedSizeOfElements elems := by
  rw [length_flatten, map_map]
  exact congrArg List.sum (map_congr_left fun param _ => length_encodeParam param)

theorem length_encodeSet (indirect : List UInt8) (elems : List SetParam) :
    (encodeSet indirect elems).length = serializedSize indirect elems := by
  unfold encodeSet serializedSize
  simp only [length_append, length_encode, length_encodeElems]
  omega

variable {room : Nat} {written : Written} {data : List UInt8}

theorem Written.append_fits (fits : written.position + data.length ≤ room) :
    written.append room data = ⟨written.position + data.length, written.bytes ++ data⟩ :=
  if_pos fits

theorem Written.appendUint32_fits {value : Nat} (fits : written.position + 4 ≤ room) :
    written.appendUint32 room value = ⟨written.position + 4, written.bytes ++ encode 4 value⟩ := by
  unfold Written.appendUint32
  rw [Written.append_fits (by rwa [length_encode]), length_encode]

theorem Written.appendUint64_fits {value : UInt64} (fits : written.position + 8 ≤ room) :
    written.appendUint64 room value = ⟨written.position + 8, written.bytes ++ encode 8 value.toNat⟩ := by
  unfold Written.appendUint64
  rw [Written.append_fits (by rwa [length_encode]), length_encode]

variable {param : SetParam}

theorem serializeParam_fits (fits : written.position + paramSerializedSize param ≤ room) :
    serializeParam room param written =
      ⟨written.position + paramSerializedSize param, written.bytes ++ encodeParam param⟩ := by
  unfold paramSerializedSize at fits ⊢
  unfold serializeParam encodeParam encodeValue
  cases kind : Tag.type param.tag with
  | invalid | unknown =>
    simp only [kind] at fits ⊢
    rw [Written.appendUint32_fits fits, append_nil]
  | enum | enumRep | uint | uintRep =>
    simp only [kind] at fits ⊢
    rw [@Written.appendUint32_fits room written _ (by omega), Written.appendUint32_fits (by dsimp only; omega)]
    simp only [append_assoc, Nat.add_assoc]
  | ulong | ulongRep | date =>
    simp only [kind] at fits ⊢
    rw [Written.appendUint32_fits (by omega), Written.appendUint64_fits (by dsimp only; omega)]
    simp only [append_assoc, Nat.add_assoc]
  | bool =>
    simp only [kind] at fits ⊢
    rw [Written.appendUint32_fits (by omega)]
    dsimp only
    rw [if_pos (by omega), append_assoc]
  | bignum | bytes =>
  simp only [kind] at fits ⊢
  rw [@Written.appendUint32_fits room written _ (by omega),
    @Written.appendUint32_fits room ⟨written.position + 4, _⟩ _ (by dsimp only; omega),
    Written.appendUint32_fits (by dsimp only; omega)]
  simp only [append_assoc, Nat.add_assoc]

theorem serializeElems_fits {elems : List SetParam} (fits : written.position + serializedSizeOfElements elems ≤ room) :
    elems.foldl (fun sofar param => serializeParam room param sofar) written =
      ⟨written.position + serializedSizeOfElements elems, written.bytes ++ (elems.map encodeParam).flatten⟩ := by
  induction elems generalizing written with
  | nil => simp [serializedSizeOfElements]
  | cons param rest ih =>
  have size : serializedSizeOfElements (param :: rest) =
      paramSerializedSize param + serializedSizeOfElements rest := rfl
  rw [size] at fits ⊢
  rw [foldl_cons, serializeParam_fits (by omega), ih (by dsimp only; omega)]
  simp only [map_cons, flatten_cons, append_assoc, add_assoc]

theorem serialize_fits {indirect : List UInt8} {elems : List SetParam}
    (fits : written.position + serializedSize indirect elems ≤ room) :
    serialize room indirect elems written = ⟨written.position + serializedSize indirect elems,
        written.bytes ++ encodeSet indirect elems⟩ := by
  unfold serializedSize at fits ⊢
  unfold serialize encodeSet
  dsimp only
  rw [@Written.appendUint32_fits room written _ (by omega), Written.append_fits (by dsimp only; omega),
    @Written.appendUint32_fits room ⟨written.position + 4 + indirect.length, _⟩ _ (by dsimp only; omega),
    Written.appendUint32_fits (by dsimp only; omega),
    serializeElems_fits (by dsimp only; omega)]
  simp only [append_assoc, add_assoc]

theorem parseBytes_append {size : Nat} {rest : List UInt8} (length : data.length = size) :
    parseBytes size (data ++ rest) = .ok (data, rest) := by
  subst length
  unfold parseBytes
  rw [if_pos (by rw [length_append]; omega), take_left, drop_left]

theorem parseUint32_encode {value : Nat} (small : value < 2 ^ 32) (rest : List UInt8) :
    parseUint32 (encode 4 value ++ rest) = .ok (.ofNat value, rest) := by
  unfold parseUint32
  rw [parseBytes_append (length_encode 4 value)]
  dsimp only [bind, Except.bind]
  rw [decode_encode small]
  rfl

theorem parseUint64_encode (value : UInt64) (rest : List UInt8) :
    parseUint64 (encode 8 value.toNat ++ rest) = .ok (value, rest) := by
  unfold parseUint64
  rw [parseBytes_append (length_encode 8 value.toNat)]
  dsimp only [bind, Except.bind]
  rw [decode_encode value.toNat_lt, UInt64.ofNat_toNat]
  rfl

theorem parseUint32_toNat (value : UInt32) (rest : List UInt8) :
    parseUint32 (encode 4 value.toNat ++ rest) = .ok (value, rest) := by
  rw [parseUint32_encode value.toNat_lt, UInt32.ofNat_toNat]

theorem parseSizeAndData_encode (small : data.length < 2 ^ 32) (rest : List UInt8) :
    parseSizeAndData true (encode 4 data.length ++ (data ++ rest)) = .ok (data, rest) := by
  have length : (UInt32.ofNat data.length).toNat = data.length := toNat_ofNat_of_lt small
  unfold parseSizeAndData
  rw [parseUint32_encode small]
  dsimp only [bind, Except.bind]
  rw [length, if_neg (by rw [length_append]; omega)]
  split
  next zero =>
    rw [eq_nil_of_length_eq_zero zero]
    rfl
  · exact parseBytes_append rfl

/-- A parameter as it is when it is read: what the type of the tag does not select is
zero. -/
def reread (param : SetParam) : SetParam :=
  match param.tag.type with
  | .invalid | .unknown => ⟨param.tag, 0, ⟨0, 0⟩⟩
  | .enum | .enumRep | .uint | .uintRep => ⟨param.tag, param.integer.toUInt64, ⟨0, 0⟩⟩
  | .ulong | .ulongRep | .date => ⟨param.tag, param.longInteger, ⟨0, 0⟩⟩
  | .bool => ⟨param.tag, if param.boolean then 1 else 0, ⟨0, 0⟩⟩
  | .bignum | .bytes => ⟨param.tag, 0, param.blob⟩

/-- `deserialize` has a case for the type. -/
def TagType.known : TagType → Bool
  | .invalid | .unknown => false
  | _ => true

def ExactBelow (exceeds : Exceeds w) : Prop :=
  ∀ size span : BitVec w, size.toNat < 2 ^ (w - 1) → span.toNat < 2 ^ (w - 1) →
    exceeds size span = decide (span.toNat < size.toNat)

theorem signedExceeds_exact (positive : 0 < w) : ExactBelow (signedExceeds w) := by
  intro size span sizeSmall spanSmall
  have double : 2 ^ w = 2 * 2 ^ (w - 1) := by
    rw [← pow_succ']
    congr 1
    omega
  unfold signedExceeds
  rw [BitVec.slt_eq_decide, BitVec.toInt_eq_toNat_cond, BitVec.toInt_eq_toNat_cond,
    if_pos (by omega), if_pos (by omega)]
  exact decide_eq_decide.mpr Int.ofNat_lt

variable {exceeds : Exceeds w} {span : BitVec w}

theorem ExactBelow.passes (exact : ExactBelow exceeds) {size : BitVec w} (least : size.toNat ≤ span.toNat)
    (small : span.toNat < 2 ^ (w - 1)) : exceeds size span = false := by
  rw [exact size span (by omega) small]
  exact decide_eq_false (Nat.not_lt.mpr least)

/-- The blob passes the checks of `deserialize`. -/
structure Slice.Accepted (exceeds : Exceeds w) (span : BitVec w) (slice : Slice) : Prop where
  offset : slice.offset < 2 ^ 32
  length : slice.length < 2 ^ 32
  passed : ¬BlobRefused exceeds span (.ofNat slice.length) (.ofNat slice.offset)

def SetParam.Accepted (exceeds : Exceeds w) (span : BitVec w) (param : SetParam) : Prop :=
  param.tag.isBlob = true → param.blob.Accepted exceeds span

theorem Slice.sizes (wide : 32 ≤ w) (slice : Slice) (small : slice.offset + slice.length < 2 ^ 32) :
    (toSize w (.ofNat slice.offset)).toNat = slice.offset ∧ (toSize w (.ofNat slice.length)).toNat = slice.length ∧
      (toSize w (.ofNat slice.offset) + toSize w (.ofNat slice.length)).toNat = slice.offset + slice.length := by
  have most : (2 : Nat) ^ 32 ≤ 2 ^ w := Nat.pow_le_pow_right (by decide) wide
  have number {value : Nat} (less : value < 2 ^ 32) : (toSize w (.ofNat value)).toNat = value :=
    (toSize_toNat wide _).trans (toNat_ofNat_of_lt less)
  have offset := number (show slice.offset < 2 ^ 32 by omega)
  have length := number (show slice.length < 2 ^ 32 by omega)
  refine ⟨offset, length, ?_⟩
  rw [BitVec.toNat_add, offset, length]
  exact Nat.mod_eq_of_lt (by omega)

theorem SetParam.Inside.accepted (wide : 32 ≤ w) (exact : ExactBelow exceeds)
    (inside : param.Inside span.toNat) (small : span.toNat < 2 ^ 31) : param.Accepted exceeds span := by
  intro blob
  have bound := inside blob
  have half : (2 : Nat) ^ 31 ≤ 2 ^ (w - 1) := Nat.pow_le_pow_right (by decide) (by omega)
  obtain ⟨offset, length, sum⟩ := param.blob.sizes wide (by omega)
  refine ⟨by omega, by omega, ?_⟩
  rintro (wrap | first | second)
  · rw [BitVec.add_comm, BitVec.lt_def, sum, length] at wrap
    omega
  · exact Bool.false_ne_true ((exact.passes (by omega) (by omega)).symm.trans first)
  · exact Bool.false_ne_true ((exact.passes (by omega) (by omega)).symm.trans second)

theorem parseBlob_encode {slice : Slice} (accepted : slice.Accepted exceeds span) (rest : List UInt8) :
    parseBlob exceeds span (encode 4 slice.length ++ (encode 4 slice.offset ++ rest)) = .ok (slice, rest) := by
  have length : (UInt32.ofNat slice.length).toNat = slice.length := toNat_ofNat_of_lt accepted.length
  have offset : (UInt32.ofNat slice.offset).toNat = slice.offset := toNat_ofNat_of_lt accepted.offset
  unfold parseBlob
  rw [parseUint32_encode accepted.length]
  dsimp only [bind, Except.bind]
  rw [parseUint32_encode accepted.offset]
  dsimp only
  rw [if_neg accepted.passed, length, offset]
  rfl

theorem parseValue_encode (known : (Tag.type param.tag).known = true) (accepted : param.Accepted exceeds span)
    (rest : List UInt8) : parseValue exceeds span (encodeValue param ++ rest) (Tag.type param.tag) =
      .ok (((reread param).word, (reread param).blob), rest) := by
  unfold encodeValue reread
  cases kind : Tag.type param.tag with
  | invalid | unknown =>
    rw [kind] at known
    nomatch known
  | enum | enumRep | uint | uintRep =>
    dsimp only [parseValue]
    rw [parseUint32_toNat]
    rfl
  | ulong | ulongRep | date =>
    dsimp only [parseValue]
    rw [parseUint64_encode]
    rfl
  | bool =>
    cases param.boolean with
    | true | false => rfl
  | bignum | bytes =>
  dsimp only [parseValue]
  rw [append_assoc, parseBlob_encode (accepted (by simp [Tag.isBlob, kind]))]
  rfl

theorem reread_tag (param : SetParam) : (reread param).tag = param.tag := by
  unfold reread
  cases Tag.type param.tag with
  | _ => rfl

theorem parseParam_encode (known : (Tag.type param.tag).known = true) (accepted : param.Accepted exceeds span)
    (rest : List UInt8) : parseParam exceeds span (encodeParam param ++ rest) = .ok (reread param, rest) := by
  unfold parseParam encodeParam
  rw [append_assoc, parseUint32_toNat]
  dsimp only [bind, Except.bind]
  rw [parseValue_encode known accepted]
  have whole : (⟨param.tag, (reread param).word, (reread param).blob⟩ : SetParam) = reread param := by
    rw [← reread_tag param]
  exact congrArg (fun found => Except.ok (found, rest)) whole

theorem parseParam_unknown (unknown : (Tag.type param.tag).known = false) (rest : List UInt8) :
    parseParam exceeds span (encodeParam param ++ rest) = .error .malformedData := by
  unfold parseParam encodeParam
  rw [append_assoc, parseUint32_toNat]
  dsimp only [bind, Except.bind]
  cases kind : Tag.type param.tag with
  | invalid | unknown => rfl
  | _ =>
  rw [kind] at unknown
  cases unknown

def AllKnown (elems : List SetParam) : Prop :=
  ∀ param ∈ elems, (Tag.type param.tag).known = true

instance (elems : List SetParam) : Decidable (AllKnown elems) :=
  inferInstanceAs (Decidable (∀ param ∈ elems, _))

theorem parseElems_encode {elems : List SetParam} (accepted : ∀ param ∈ elems, SetParam.Accepted exceeds span param)
    (rest : List UInt8) :
    parseElems exceeds span elems.length ((elems.map encodeParam).flatten ++ rest) =
      if AllKnown elems then .ok (elems.map reread, rest) else .error .malformedData := by
  induction elems with
  | nil => rfl
  | cons param others ih =>
  obtain ⟨first, behind⟩ := forall_mem_cons.mp accepted
  have split : AllKnown (param :: others) ↔ (Tag.type param.tag).known = true ∧ AllKnown others := forall_mem_cons
  rw [map_cons, flatten_cons, append_assoc, length_cons, parseElems]
  cases known : (Tag.type param.tag).known with
  | false =>
    rw [parseParam_unknown known, if_neg (by rw [split, known]; exact fun both => nomatch both.1)]
    rfl
  | true =>
  rw [parseParam_encode known first]
  dsimp only [bind, Except.bind]
  rw [ih behind]
  simp only [split, known, true_and]
  by_cases all : AllKnown others
  · rw [if_pos all, if_pos all]
    rfl
  · rw [if_neg all, if_neg all]

theorem paramSerializedSize_ge (param : SetParam) : 4 ≤ paramSerializedSize param := by
  unfold paramSerializedSize
  cases Tag.type param.tag with
  | _ => decide

theorem length_le_serializedSize (elems : List SetParam) : elems.length * 4 ≤ serializedSizeOfElements elems := by
  induction elems with
  | nil => exact le_rfl
  | cons param rest ih =>
  have size : serializedSizeOfElements (param :: rest) =
      paramSerializedSize param + serializedSizeOfElements rest := rfl
  have first := paramSerializedSize_ge param
  rw [size, length_cons]
  omega

variable {limit : Limit w} {elems : List SetParam} {rest : List UInt8}

theorem Limit.not_wraps {size : BitVec w} {content : List UInt8} (least : content.length ≤ limit.address.toNat)
    (room : limit.address.toNat - content.length + size.toNat < 2 ^ w) : ¬limit.Wraps size content := by
  have length : (BitVec.ofNat w content.length).toNat = content.length :=
    (BitVec.toNat_ofNat _ _).trans (Nat.mod_eq_of_lt (lt_of_le_of_lt least limit.address.isLt))
  have start : (limit.address - BitVec.ofNat w content.length).toNat = limit.address.toNat - content.length := by
    rw [BitVec.toNat_sub_of_le (by rw [BitVec.le_def, length]; exact least), length]
  unfold Limit.Wraps
  rw [BitVec.lt_def, BitVec.toNat_add, start, Nat.mod_eq_of_lt room]
  omega

theorem parseElementsData_encode (exact : ExactBelow exceeds)
    (accepted : ∀ param ∈ elems, SetParam.Accepted exceeds span param) (sized : serializedSizeOfElements elems < 2 ^ 31)
    (bounded : serializedSizeOfElements elems + rest.length < 2 ^ (w - 1))
    (least : serializedSizeOfElements elems + rest.length ≤ limit.address.toNat)
    (room : limit.address.toNat + elems.length * paramSize w < 2 ^ w) :
    parseElementsData exceeds limit true span (encode 4 elems.length ++ (encode 4 (serializedSizeOfElements elems) ++
            ((elems.map encodeParam).flatten ++ rest))) =
      if AllKnown elems then .ok ((elems.length, elems.map reread), rest)
      else .error .malformedData := by
  have fewer := length_le_serializedSize elems
  have bytes := length_encodeElems elems
  have highest := limit.address.isLt
  have count : (toSize w (.ofNat elems.length)).toNat = elems.length :=
    (toSize_toNat limit.wide _).trans (toNat_ofNat_of_lt (by change _ < 2 ^ 32; omega))
  have size : (toSize w (.ofNat (serializedSizeOfElements elems))).toNat = serializedSizeOfElements elems :=
    (toSize_toNat limit.wide _).trans (toNat_ofNat_of_lt (by change _ < 2 ^ 32; omega))
  have ahead : ((elems.map encodeParam).flatten ++ rest).length = serializedSizeOfElements elems + rest.length := by
    rw [length_append, bytes]
  have span' : (BitVec.ofNat w ((elems.map encodeParam).flatten ++ rest).length).toNat =
      serializedSizeOfElements elems + rest.length := by
    rw [ahead, BitVec.toNat_ofNat]
    exact Nat.mod_eq_of_lt (by omega)
  have passes : exceeds (toSize w (.ofNat (serializedSizeOfElements elems)))
      (BitVec.ofNat w ((elems.map encodeParam).flatten ++ rest).length) = false :=
    exact.passes (by omega) (by omega)
  have four : (4 : BitVec w).toNat = 4 := ofNat_small limit.wide (by decide)
  have enough : ¬toSize w (.ofNat (serializedSizeOfElements elems)) < toSize w (.ofNat elems.length) * 4 := by
    rw [BitVec.lt_def, BitVec.toNat_mul, count, size, four, Nat.mod_eq_of_lt (by omega)]
    omega
  have paramIs : (BitVec.ofNat w (paramSize w)).toNat = paramSize w := by
    apply ofNat_small limit.wide
    unfold paramSize
    split <;> decide
  have array : (toSize w (.ofNat elems.length) * BitVec.ofNat w (paramSize w)).toNat = elems.length * paramSize w := by
    rw [BitVec.toNat_mul, count, paramIs]
    exact Nat.mod_eq_of_lt (by omega)
  have noWrap : ¬limit.Wraps (toSize w (.ofNat elems.length) * BitVec.ofNat w (paramSize w))
      ((elems.map encodeParam).flatten ++ rest) := Limit.not_wraps (by omega) (by omega)
  have window : limit.window (toSize w (.ofNat (serializedSizeOfElements elems)))
      ((elems.map encodeParam).flatten ++ rest) = (elems.map encodeParam).flatten := by
    unfold Limit.window
    rw [if_neg (Limit.not_wraps (by omega) (by omega)), size, append_assoc, ← bytes, take_left]
  have allocates : elemsAllocate w true elems.length = true := by
    unfold elemsAllocate
    rw [Bool.true_and]
    exact decide_eq_true (by omega)
  unfold parseElementsData
  rw [parseUint32_encode (by omega)]
  dsimp only [bind, Except.bind]
  rw [parseUint32_encode (by omega)]
  dsimp only
  rw [if_neg (by simp only [passes, enough, noWrap, Bool.false_eq_true, or_self, not_false_eq_true]),
    count, allocates, if_neg (by decide)]
  unfold parseWindow
  rw [window]
  have loop := parseElems_encode accepted []
  rw [append_nil] at loop
  rw [loop]
  by_cases all : AllKnown elems
  · rw [if_pos all, if_pos all]
    dsimp only [bind, Except.bind, pure, Except.pure]
    rw [length_nil, Nat.sub_zero, drop_left]
  · rw [if_neg all, if_neg all]
    rfl

theorem reread_blob (param : SetParam) : (if (reread param).tag.isBlob then (reread param).blob.length else 0) =
      if param.tag.isBlob then param.blob.length else 0 := by
  rw [reread_tag]
  unfold reread Tag.isBlob
  cases Tag.type param.tag with
  | _ => rfl

theorem blobTotal_reread (elems : List SetParam) : blobTotal (elems.map reread) = blobTotal elems := by
  unfold blobTotal
  rw [map_map]
  exact congrArg List.sum (map_congr_left fun param _ => reread_blob param)

variable {indirect : List UInt8}

theorem parseSet_encode (exact : ExactBelow exceeds)
    (accepted : ∀ param ∈ elems, SetParam.Accepted exceeds (.ofNat w indirect.length) param)
    (sized : serializedSize indirect elems < 2 ^ 31)
    (bounded : serializedSize indirect elems + rest.length < 2 ^ (w - 1))
    (least : serializedSize indirect elems + rest.length ≤ limit.address.toNat)
    (room : limit.address.toNat + elems.length * paramSize w < 2 ^ w) :
    parseSet exceeds limit ⟨true, true⟩ (encodeSet indirect elems ++ rest) =
      if AllKnown elems ∧ indirect.length = blobTotal elems % 2 ^ w then
        .ok ((indirect, elems.length, elems.map reread), rest)
      else .error .malformedData := by
  unfold serializedSize at sized bounded least
  unfold parseSet encodeSet
  simp only [append_assoc]
  rw [parseSizeAndData_encode (by omega)]
  dsimp only [bind, Except.bind]
  rw [parseElementsData_encode exact accepted (by omega) (by omega) (by omega) room]
  by_cases all : AllKnown elems
  · rw [if_pos all]
    dsimp only
    rw [blobTotal_reread]
    by_cases same : indirect.length = blobTotal elems % 2 ^ w
    · rw [if_neg (not_not.mpr same), if_pos ⟨all, same⟩]
      rfl
    · rw [if_pos same, if_neg (fun both => same both.2)]
  · rw [if_neg all, if_neg (fun both => all both.1)]

end Trusty.Keymaster
