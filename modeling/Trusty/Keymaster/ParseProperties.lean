import Trusty.Keymaster.AuthSet

/-!
# Reading from a list

What `Deserialize` does with the bytes that are ahead of a pointer, without the
addresses, and that it is the same.
-/

namespace Trusty.Keymaster

open List BitVec

variable {w : Nat}

theorem bind_ok {ε α β : Type} {program : Except ε α} {rest : α → Except ε β} {value : β}
    (ran : program >>= rest = .ok value) : ∃ first, program = .ok first ∧ rest first = .ok value := by
  cases program with
  | error stop => cases ran
  | ok first => exact ⟨first, rfl, ran⟩

theorem add_toNat_of_noWrap {pointer size : BitVec w} (noWrap : ¬pointer + size < pointer) :
    (pointer + size).toNat = pointer.toNat + size.toNat := by
  rw [lt_def, toNat_add] at noWrap
  rcases lt_or_ge (pointer.toNat + size.toNat) (2 ^ w) with small | large
  · exact Nat.mod_eq_of_lt small
  · rw [Nat.mod_eq_sub_mod large, Nat.mod_eq_of_lt (by omega)] at noWrap
    omega

theorem toSize_toNat (wide : 32 ≤ w) (value : UInt32) : (toSize w value).toNat = value.toNat := by
  have small : value.toNat < 2 ^ w := lt_of_lt_of_le value.toNat_lt (Nat.pow_le_pow_right (by decide) wide)
  exact toNat_ofNat value.toNat w |>.trans (Nat.mod_eq_of_lt small)

theorem ofNat_small (wide : 32 ≤ w) {value : Nat} (small : value < 2 ^ 32) : (BitVec.ofNat w value).toNat = value := by
  have fits : value < 2 ^ w := lt_of_lt_of_le small (Nat.pow_le_pow_right (by decide) wide)
  exact toNat_ofNat value w |>.trans (Nat.mod_eq_of_lt fits)

def Buffer.Within (buffer : Buffer w) (limit pointer : BitVec w) : Prop :=
  buffer.base.toNat ≤ pointer.toNat ∧ pointer.toNat ≤ limit.toNat ∧
    limit.toNat ≤ buffer.base.toNat + buffer.bytes.length

theorem Buffer.limit_toNat (buffer : Buffer w) : buffer.limit.toNat = buffer.base.toNat + buffer.bytes.length :=
  (toNat_ofNat _ _).trans (Nat.mod_eq_of_lt buffer.fits)

theorem Buffer.within_start (buffer : Buffer w) : buffer.Within buffer.limit buffer.base := by
  have same := buffer.limit_toNat
  exact ⟨le_rfl, by omega, by omega⟩

def SetParam.Inside (size : Nat) (param : SetParam) : Prop :=
  param.tag.isBlob = true → param.blob.offset + param.blob.length ≤ size

def SoundExceeds (exceeds : Exceeds w) : Prop :=
  ∀ size span : BitVec w, size.toNat < 2 ^ 33 → exceeds size span = false →
    size.toNat ≤ span.toNat

theorem slice_inside (wide : 32 ≤ w) {exceeds : Exceeds w} {span : BitVec w} (sound : SoundExceeds exceeds)
    {dataLength offset : UInt32} (passed : ¬BlobRefused exceeds span dataLength offset) : offset.toNat + dataLength.toNat ≤ span.toNat := by
  obtain ⟨noWrap, _, small⟩ := not_or.mp passed |>.imp_right not_or.mp
  -- The overflow check is what makes the sum of the two sizes the real one.
  have sum := add_toNat_of_noWrap noWrap
  rw [toSize_toNat wide, toSize_toNat wide] at sum
  rw [BitVec.add_comm] at small
  have first := dataLength.toNat_lt
  have second := offset.toNat_lt
  have bounded := sound _ span (by omega) (Bool.eq_false_iff.mpr small)
  omega

theorem signedExceeds_sound : SoundExceeds (signedExceeds 64) := by
  intro size span small passed
  have notLess : ¬span.slt size = true := Bool.eq_false_iff.mp passed
  rw [slt_iff_toInt_lt, toInt_eq_toNat_cond, toInt_eq_toNat_cond] at notLess
  have positive : 2 * size.toNat < 2 ^ 64 := by omega
  split at notLess
  all_goals omega

def parseBytes (size : Nat) (content : List UInt8) : Except Refusal (List UInt8 × List UInt8) :=
  if size ≤ content.length then .ok (content.take size, content.drop size)
  else .error .malformedData

def parseUint32 (content : List UInt8) : Except Refusal (UInt32 × List UInt8) := do
  let (bytes, rest) ← parseBytes 4 content
  return (.ofNat (LittleEndian.decode bytes), rest)

def parseUint64 (content : List UInt8) : Except Refusal (UInt64 × List UInt8) := do
  let (bytes, rest) ← parseBytes 8 content
  return (.ofNat (LittleEndian.decode bytes), rest)

def parseSizeAndData (allocated : Bool) (content : List UInt8) :
    Except Refusal (List UInt8 × List UInt8) := do
  let (length, rest) ← parseUint32 content
  if rest.length < length.toNat then .error .malformedData
  else if length.toNat = 0 then return ([], rest)
  else if !allocated then .error .malformedData
  else parseBytes length.toNat rest

def parseBlob (exceeds : Exceeds w) (span : BitVec w) (content : List UInt8) :
    Except Refusal (Slice × List UInt8) := do
  let (dataLength, second) ← parseUint32 content
  let (offset, rest) ← parseUint32 second
  if BlobRefused exceeds span dataLength offset then .error .malformedData
  else return (⟨offset.toNat, dataLength.toNat⟩, rest)

def parseBool : List UInt8 → Except Refusal (UInt64 × List UInt8)
  | [] => .error .malformedData
  | byte :: rest => .ok (if byte = 0 then 0 else 1, rest)

def parseValue (exceeds : Exceeds w) (span : BitVec w) (content : List UInt8) :
    TagType → Except Refusal ((UInt64 × Slice) × List UInt8)
  | .invalid | .unknown => .error .malformedData
  | .enum | .enumRep | .uint | .uintRep => do
      let (number, rest) ← parseUint32 content
      return ((number.toUInt64, ⟨0, 0⟩), rest)
  | .ulong | .ulongRep | .date => do
      let (number, rest) ← parseUint64 content
      return ((number, ⟨0, 0⟩), rest)
  | .bool => do
      let (flag, rest) ← parseBool content
      return ((flag, ⟨0, 0⟩), rest)
  | .bignum | .bytes => do
      let (slice, rest) ← parseBlob exceeds span content
      return ((0, slice), rest)

def parseParam (exceeds : Exceeds w) (span : BitVec w) (content : List UInt8) :
    Except Refusal (SetParam × List UInt8) := do
  let (tag, second) ← parseUint32 content
  let ((word, blob), rest) ← parseValue exceeds span second (Tag.type tag)
  return (⟨tag, word, blob⟩, rest)

def parseElems (exceeds : Exceeds w) (span : BitVec w) :
    Nat → List UInt8 → Except Refusal (List SetParam × List UInt8)
  | 0, content => .ok ([], content)
  | count + 1, content => do
      let (param, second) ← parseParam exceeds span content
      let (others, rest) ← parseElems exceeds span count second
      return (param :: others, rest)

/-- Where the input ends in memory, and what lies behind it. -/
structure Limit (w : Nat) where
  address : BitVec w
  behind : List UInt8
  word : w = 32 ∨ w = 64

theorem Limit.wide (limit : Limit w) : 32 ≤ w := by
  have word := limit.word
  omega

/-- So many bytes from where `content` begins go around the end of the address space. -/
def Limit.Wraps (limit : Limit w) (size : BitVec w) (content : List UInt8) : Prop :=
  limit.address - BitVec.ofNat w content.length + size < limit.address - BitVec.ofNat w content.length

instance (limit : Limit w) (size : BitVec w) (content : List UInt8) : Decidable (limit.Wraps size content) :=
  inferInstanceAs (Decidable (_ < _))

/-- The bytes up to `elements_end`, which can lie behind the end of the input. -/
def Limit.window (limit : Limit w) (size : BitVec w) (content : List UInt8) : List UInt8 :=
  if limit.Wraps size content then [] else (content ++ limit.behind).take size.toNat

/-- The elements are read from the announced number of bytes. What is behind them is read
next, as far as it belongs to the input. -/
def parseWindow (exceeds : Exceeds w) (limit : Limit w) (span : BitVec w) (count : Nat) (size : BitVec w)
    (content : List UInt8) : Except Refusal (List SetParam × List UInt8) := do
  let (elems, left) ← parseElems exceeds span count (limit.window size content)
  return (elems, content.drop ((limit.window size content).length - left.length))

def parseElementsData (exceeds : Exceeds w) (limit : Limit w) (allocated : Bool)
    (span : BitVec w) (content : List UInt8) :
    Except Refusal ((Nat × List SetParam) × List UInt8) := do
  let (elementsCount, second) ← parseUint32 content
  let (elementsSize, rest) ← parseUint32 second
  let count := toSize w elementsCount
  let size := toSize w elementsSize
  if exceeds size (BitVec.ofNat w rest.length) ∨ size < count * 4 ∨
      limit.Wraps (count * BitVec.ofNat w (paramSize w)) rest then .error .malformedData
  else if !elemsAllocate w allocated count.toNat then .error .allocationFailure
  else do
    let (elems, left) ← parseWindow exceeds limit span count.toNat size rest
    return ((count.toNat, elems), left)

def parseSet (exceeds : Exceeds w) (limit : Limit w) (allocations : Allocations)
    (content : List UInt8) : Except Refusal ((List UInt8 × Nat × List SetParam) × List UInt8) := do
  let (indirect, second) ← parseSizeAndData allocations.indirect content
  let ((count, elems), rest) ← parseElementsData exceeds limit allocations.elems
    (.ofNat w indirect.length) second
  if indirect.length ≠ blobTotal elems % 2 ^ w then .error .malformedData
  else return ((indirect, count, elems), rest)

def Buffer.Ahead (buffer : Buffer w) (limit pointer : BitVec w) (content : List UInt8) : Prop :=
  buffer.Within limit pointer ∧
    (buffer.bytes.drop (pointer.toNat - buffer.base.toNat)).take (limit.toNat - pointer.toNat) =
      content

variable {buffer : Buffer w} {limit pointer : BitVec w} {content : List UInt8}

section

variable (ahead : buffer.Ahead limit pointer content)
include ahead

theorem Buffer.Ahead.length : content.length = limit.toNat - pointer.toNat := by
  obtain ⟨⟨low, high, inside⟩, same⟩ := ahead
  rw [← same, length_take, length_drop]
  omega

theorem Buffer.Ahead.skip {next : BitVec w} (order : pointer.toNat ≤ next.toNat) (before : next.toNat ≤ limit.toNat) :
    buffer.Ahead limit next (content.drop (next.toNat - pointer.toNat)) := by
  obtain ⟨⟨low, high, inside⟩, same⟩ := ahead
  refine ⟨⟨by omega, before, inside⟩, ?_⟩
  rw [← same, drop_take, drop_drop]
  congr 1
  · omega
  · congr 1
    omega

theorem Buffer.Ahead.advance {size : BitVec w} (enough : size.toNat ≤ content.length) :
    (pointer + size).toNat = pointer.toNat + size.toNat ∧
      buffer.Ahead limit (pointer + size) (content.drop size.toNat) := by
  have length := ahead.length
  have order : pointer.toNat ≤ limit.toNat := ahead.1.2.1
  have high := limit.isLt
  have sum : (pointer + size).toNat = pointer.toNat + size.toNat := Nat.mod_eq_of_lt (by omega)
  refine ⟨sum, ?_⟩
  have further := @Buffer.Ahead.skip w buffer limit pointer content ahead (pointer + size) (by omega) (by omega)
  rwa [sum, Nat.add_sub_cancel_left] at further

theorem copyFromBuf_eq (size : BitVec w) : copyFromBuf buffer limit size pointer =
      if size.toNat ≤ content.length then .ok (content.take size.toNat, pointer + size)
      else .error (.refused .malformedData) := by
  have length := ahead.length
  split
  next enough =>
    obtain ⟨sum, _⟩ := ahead.advance enough
    obtain ⟨⟨low, high, inside⟩, same⟩ := ahead
    unfold copyFromBuf
    rw [if_neg (by rw [lt_def, sum]; omega), if_neg (by rw [lt_def, sum]; omega)]
    unfold Buffer.read
    split
    next zero =>
      rw [zero]
      rfl
    · rw [if_pos ⟨low, by omega⟩, ← same, take_take, min_eq_left (by omega)]
      rfl
  next short =>
  unfold copyFromBuf
  split
  · rfl
  next noWrap =>
  have sum := add_toNat_of_noWrap noWrap
  rw [if_pos (by rw [lt_def, sum]; omega)]

end

variable {α β γ δ : Type}

/-- Reading at a pointer ends as reading from the bytes that are ahead of it. A result
has a value and the pointer behind it. -/
def Follows (buffer : Buffer w) (limit : BitVec w) (parts : γ → α × BitVec w)
    (program : Except Stop γ) : Except Refusal (α × List UInt8) → Prop
  | .error error => program = .error (.refused error)
  | .ok (value, rest) =>
    ∃ result, program = .ok result ∧ (parts result).1 = value ∧
      buffer.Ahead limit (parts result).2 rest

variable {furtherRead : α × List UInt8 → Except Refusal (β × List UInt8)}
  {read : Except Refusal (α × List UInt8)} {furtherParts : δ → β × BitVec w}

theorem Follows.bind {parts : γ → α × BitVec w} {program : Except Stop γ} {further : γ → Except Stop δ}
    (first : Follows buffer limit parts program read) (then_ : ∀ result rest, read = .ok ((parts result).1, rest) →
      buffer.Ahead limit (parts result).2 rest →
      Follows buffer limit furtherParts (further result) (furtherRead ((parts result).1, rest))) :
    Follows buffer limit furtherParts (program >>= further) (read >>= furtherRead) := by
  cases read with
  | error error =>
    have stopped : program = .error (.refused error) := first
    rw [stopped]
    exact rfl
  | ok pair =>
  obtain ⟨value, rest⟩ := pair
  obtain ⟨result, ran, same, ahead⟩ := first
  subst same
  rw [ran]
  exact then_ result rest rfl ahead

theorem Follows.next {program : Except Stop (α × BitVec w)} {further : α × BitVec w → Except Stop δ}
    (first : Follows buffer limit id program read)
    (then_ : ∀ value pointer rest, read = .ok (value, rest) → buffer.Ahead limit pointer rest →
      Follows buffer limit furtherParts (further (value, pointer)) (furtherRead (value, rest))) :
    Follows buffer limit furtherParts (program >>= further) (read >>= furtherRead) :=
  first.bind fun result rest => then_ result.1 result.2 rest

theorem follows_ok {value : α} {next : BitVec w} {rest : List UInt8} (ahead : buffer.Ahead limit next rest) :
    Follows buffer limit id (.ok (value, next)) (.ok (value, rest)) :=
  ⟨(value, next), rfl, rfl, ahead⟩

theorem copyFromBuf_follows (ahead : buffer.Ahead limit pointer content) {size : BitVec w}
    {count : Nat} (same : size.toNat = count) :
    Follows buffer limit id (copyFromBuf buffer limit size pointer) (parseBytes count content) := by
  subst same
  rw [copyFromBuf_eq ahead, parseBytes]
  split
  next enough => exact follows_ok (ahead.advance enough).2
  · exact rfl

theorem copyUint32_follows (wide : 32 ≤ w) (ahead : buffer.Ahead limit pointer content) :
    Follows buffer limit id (copyUint32 buffer limit pointer) (parseUint32 content) := by
  apply (copyFromBuf_follows ahead (ofNat_small wide (by decide))).next
  intro bytes next rest _ further
  exact follows_ok further

theorem copyUint64_follows (wide : 32 ≤ w) (ahead : buffer.Ahead limit pointer content) :
    Follows buffer limit id (copyUint64 buffer limit pointer) (parseUint64 content) := by
  apply (copyFromBuf_follows ahead (ofNat_small wide (by decide))).next
  intro bytes next rest _ further
  exact follows_ok further

theorem size_refused_iff (ahead : buffer.Ahead limit pointer content) (size : BitVec w) :
    content.length < size.toNat ↔ pointer + size < pointer ∨ limit < pointer + size := by
  have length := ahead.length
  obtain ⟨⟨low, high, inside⟩, _⟩ := ahead
  simp only [lt_def, toNat_add]
  rcases lt_or_ge (pointer.toNat + size.toNat) (2 ^ w) with small | large
  · rw [Nat.mod_eq_of_lt small]
    omega
  · rw [Nat.mod_eq_sub_mod large, Nat.mod_eq_of_lt (by omega)]
    omega

variable {allocated : Bool}

theorem copySizeAndData_follows (wide : 32 ≤ w) (ahead : buffer.Ahead limit pointer content) :
    Follows buffer limit id (copySizeAndData buffer limit allocated pointer) (parseSizeAndData allocated content) := by
  apply (copyUint32_follows wide ahead).next
  intro length next rest _ further
  have same := toSize_toNat wide length
  have refused := size_refused_iff further (toSize w length)
  have zero : toSize w length = 0 ↔ length.toNat = 0 := by
    rw [← same, toNat_eq]
    rfl
  rw [same] at refused
  dsimp only
  rcases lt_or_ge rest.length length.toNat with short | enough
  · split
    · exact rfl
    next noWrap =>
    rw [if_pos ((refused.mp short).resolve_left noWrap)]
    exact rfl
  · have passed := mt refused.mpr (Nat.not_lt.mpr enough)
    rw [if_neg (Nat.not_lt.mpr enough), if_neg (fun wrap => passed (.inl wrap)),
      if_neg (fun short => passed (.inr short))]
    simp only [zero]
    split
    · exact follows_ok further
    · split
      · exact rfl
      · exact copyFromBuf_follows further same

variable {exceeds : Exceeds w} {span : BitVec w}

section

variable (wide : 32 ≤ w) (ahead : buffer.Ahead limit pointer content)
include wide ahead

theorem deserializeBlob_follows : Follows buffer limit id (deserializeBlob exceeds buffer limit span pointer)
      (parseBlob exceeds span content) := by
  apply (copyUint32_follows wide ahead).next
  intro dataLength second middle _ further
  apply (copyUint32_follows wide further).next
  intro offset next rest _ last
  dsimp only
  split
  · exact rfl
  · exact follows_ok last

theorem deserializeBool_follows :
    Follows buffer limit id (deserializeBool buffer limit pointer) (parseBool content) := by
  have one : (1 : BitVec w).toNat = 1 := ofNat_small wide (by decide)
  have length := ahead.length
  cases content with
  | nil =>
    have empty : limit.toNat - pointer.toNat = 0 := length.symm
    unfold deserializeBool
    rw [if_neg (by rw [lt_def]; omega)]
    exact rfl
  | cons byte rest =>
  have positive : rest.length + 1 = limit.toNat - pointer.toNat := length
  have behind := (@Buffer.Ahead.advance w buffer limit pointer _ ahead 1 (by rw [one]; exact Nat.le_add_left 1 _)).2
  rw [one] at behind
  obtain ⟨⟨low, high, inside⟩, same⟩ := ahead
  have front : (buffer.bytes.drop (pointer.toNat - buffer.base.toNat)).take 1 = [byte] := by
    have shorter := congrArg (List.take 1) same
    rw [take_take, min_eq_left (by omega)] at shorter
    exact shorter
  unfold deserializeBool
  rw [if_pos (by rw [lt_def]; omega)]
  unfold Buffer.read
  rw [if_neg (by decide), if_pos ⟨low, by omega⟩, front]
  exact follows_ok behind

theorem deserializeValue_follows (type : TagType) :
    Follows buffer limit id (deserializeValue exceeds buffer limit span pointer type)
      (parseValue exceeds span content type) := by
  cases type with
  | invalid | unknown => exact rfl
  | enum | enumRep | uint | uintRep =>
    apply (copyUint32_follows wide ahead).next
    intro number next rest _ further
    exact follows_ok further
  | ulong | ulongRep | date =>
    apply (copyUint64_follows wide ahead).next
    intro number next rest _ further
    exact follows_ok further
  | bool =>
    apply (deserializeBool_follows wide ahead).next
    intro flag next rest _ further
    exact follows_ok further
  | bignum | bytes =>
  apply (deserializeBlob_follows wide ahead).next
  intro slice next rest _ further
  exact follows_ok further

theorem deserializeParam_follows : Follows buffer limit id (deserializeParam exceeds buffer limit span pointer)
      (parseParam exceeds span content) := by
  apply (copyUint32_follows wide ahead).next
  intro tag second middle _ further
  apply (deserializeValue_follows wide further (Tag.type tag)).next
  intro value next rest _ last
  exact follows_ok last

end

theorem deserializeElems_follows (wide : 32 ≤ w) {count : Nat} (ahead : buffer.Ahead limit pointer content) :
    Follows buffer limit id (deserializeElems exceeds buffer limit span count pointer)
      (parseElems exceeds span count content) := by
  induction count generalizing pointer content with
  | zero => exact follows_ok ahead
  | succ count ih =>
  apply (deserializeParam_follows wide ahead).next
  intro param second middle _ further
  apply (ih further).next
  intro others next rest _ last
  exact follows_ok last

theorem Buffer.Ahead.upTo (ahead : buffer.Ahead limit pointer content) {size : BitVec w}
    (enough : size.toNat ≤ content.length) : buffer.Ahead (pointer + size) pointer (content.take size.toNat) := by
  have length := ahead.length
  obtain ⟨sum, within, _⟩ := ahead.advance enough
  obtain ⟨⟨low, high, inside⟩, same⟩ := ahead
  refine ⟨⟨low, by omega, le_trans within.2.1 inside⟩, ?_⟩
  rw [sum, ← same, take_take]
  congr 1
  omega

theorem Buffer.Ahead.pointer_eq (ahead : buffer.Ahead limit pointer content) :
    pointer = limit - BitVec.ofNat w content.length := by
  have length := ahead.length
  obtain ⟨⟨low, high, inside⟩, _⟩ := ahead
  apply eq_of_toNat_eq
  have small : (BitVec.ofNat w content.length).toNat = content.length :=
    (toNat_ofNat _ _).trans (Nat.mod_eq_of_lt (by omega))
  rw [toNat_sub_of_le (by rw [le_def, small]; omega), small]
  omega

end Trusty.Keymaster
