import Trusty.Keymaster.SpellingProperties

/-!
# Where `Deserialize` reads

The pointer code reads as from a list as long as it stays inside the input. In 32 bits
it does not always: the announced size of the elements can be negative as a `ptrdiff_t`.
-/

namespace Trusty.Keymaster

open List BitVec

open LittleEndian (encode decode length_encode drop_encode decode_take)

variable {w : Nat} {exceeds : Exceeds w} {span : BitVec w} {buffer : Buffer w} {count : Nat}

/-- The end of the buffer, with nothing behind it. -/
def Buffer.bound (buffer : Buffer w) (word : w = 32 ∨ w = 64) : Limit w := ⟨buffer.limit, [], word⟩

section

variable {word : w = 32 ∨ w = 64} {start size : BitVec w} {rest : List UInt8}
  (last : buffer.Ahead buffer.limit start rest)
include last

theorem wraps_iff : (buffer.bound word).Wraps size rest ↔ start + size < start := by
  rw [last.pointer_eq]
  exact Iff.rfl

theorem window_follows (enough : size.toNat ≤ rest.length) :
    Follows buffer buffer.limit id (deserializeElems exceeds buffer (start + size) span count start)
      (parseWindow exceeds (buffer.bound word) span count size rest) := by
  obtain ⟨sum, within, _⟩ := last.advance enough
  have window : (buffer.bound word).window size rest = rest.take size.toNat := by
    unfold Limit.window
    rw [if_neg (by rw [wraps_iff last, lt_def]; omega), take_append_of_le_length enough]
  have loop := @deserializeElems_follows w buffer _ _ _ exceeds span (by omega) count (last.upTo enough)
  unfold parseWindow
  rw [window]
  cases read : parseElems exceeds span count (rest.take size.toNat) with
  | error error =>
    rw [read] at loop
    exact loop
  | ok pair =>
  obtain ⟨elems, left⟩ := pair
  rw [read] at loop
  obtain ⟨⟨found, next⟩, ran, same, further⟩ := loop
  obtain ⟨_, pieces, split, _⟩ := parseElems_inv read
  refine ⟨(found, next), ran, same, ?_⟩
  have length : left.length = (start + size).toNat - next.toNat := further.length
  have before : next.toNat ≤ (start + size).toNat := further.1.2.1
  have high : (start + size).toNat ≤ buffer.limit.toNat := within.2.1
  have lengths := congrArg List.length split
  rw [length_append, length_take, min_eq_left enough] at lengths
  have behind := @Buffer.Ahead.skip w buffer buffer.limit start rest last next (by omega) (by omega)
  have skipped : (rest.take size.toNat).length - left.length = next.toNat - start.toNat := by
    rw [length_take, min_eq_left enough]
    omega
  rw [skipped]
  exact behind

theorem window_wraps (wraps : (buffer.bound word).Wraps size rest) :
    Follows buffer buffer.limit id (deserializeElems exceeds buffer (start + size) span count start)
      (parseWindow exceeds (buffer.bound word) span count size rest) := by
  have before := (wraps_iff last).mp wraps
  unfold parseWindow Limit.window
  rw [if_pos wraps]
  cases count with
  | zero => exact follows_ok last
  | succ count =>
  have refused : copyUint32 buffer (start + size) start = .error (.refused .malformedData) := by
    unfold copyUint32 copyFromBuf
    split
    · rfl
    next noWrap =>
    rw [if_pos (by rw [lt_def, add_toNat_of_noWrap noWrap]; rw [lt_def] at before; omega)]
    rfl
  unfold deserializeElems deserializeParam
  rw [refused]
  exact rfl

end

section

variable {α β γ δ : Type} {parts : γ → α × BitVec w} {read : Except Refusal (α × List UInt8)} {short : Prop}

/-- Reading at a pointer goes out of the buffer if `short` holds, and else ends as reading
from the bytes up to its end. -/
def Reads (buffer : Buffer w) (parts : γ → α × BitVec w) (short : Prop) (program : Except Stop γ)
    (read : Except Refusal (α × List UInt8)) : Prop :=
  (short → program = .error .outOfBounds) ∧ (¬short → Follows buffer buffer.limit parts program read)

theorem Reads.congr {program : Except Stop γ} {other : Prop} (first : Reads buffer parts short program read)
    (same : short ↔ other) : Reads buffer parts other program read :=
  ⟨fun cut => first.1 (same.mpr cut), fun whole => first.2 fun cut => whole (same.mp cut)⟩

variable {furtherRead : α × List UInt8 → Except Refusal (β × List UInt8)} {furtherParts : δ → β × BitVec w}

theorem Reads.bind {program : Except Stop γ} {further : γ → Except Stop δ}
    (first : Reads buffer parts short program read)
    (then_ : ∀ result rest, buffer.Ahead buffer.limit (parts result).2 rest →
      Follows buffer buffer.limit furtherParts (further result) (furtherRead ((parts result).1, rest))) :
    Reads buffer furtherParts short (program >>= further) (read >>= furtherRead) := by
  constructor
  · intro cut
    rw [first.1 cut]
    rfl
  · intro whole
    exact (first.2 whole).bind fun result rest _ => then_ result rest

variable {program : Except Stop (α × BitVec w)} {further : α × BitVec w → Except Stop δ}
  {later : α → List UInt8 → Prop} (then_ : ∀ value pointer rest, read = .ok (value, rest) →
    buffer.Ahead buffer.limit pointer rest →
    Reads buffer furtherParts (later value rest) (further (value, pointer)) (furtherRead (value, rest)))
include then_

theorem Follows.reads (first : Follows buffer buffer.limit id program read) :
    Reads buffer furtherParts (∃ value rest, read = .ok (value, rest) ∧ later value rest)
      (program >>= further) (read >>= furtherRead) := by
  constructor
  · rintro ⟨value, rest, found, cut⟩
    obtain ⟨⟨_, pointer⟩, ran, same, ahead⟩ := found ▸ first
    cases same
    rw [ran]
    exact (then_ _ pointer rest found ahead).1 cut
  · intro none
    apply first.next
    intro value pointer rest found ahead
    exact (then_ value pointer rest found ahead).2 fun cut => none ⟨value, rest, found, cut⟩

theorem Reads.next (first : Reads buffer id short program read) :
    Reads buffer furtherParts (short ∨ ∃ value rest, read = .ok (value, rest) ∧ later value rest)
      (program >>= further) (read >>= furtherRead) := by
  by_cases cut : short
  · refine ⟨fun _ => ?_, fun none => absurd (.inl cut) none⟩
    rw [first.1 cut]
    rfl
  · exact ((first.2 cut).reads then_).congr (or_iff_right cut).symm

end

/-- How many bytes `deserialize` reads behind a tag. -/
def TagType.valueSize : TagType → Nat
  | .invalid | .unknown => 0
  | .enum | .enumRep | .uint | .uintRep => 4
  | .ulong | .ulongRep | .date => 8
  | .bool => 1
  | .bignum | .bytes => 8

/-- The bytes end inside of the first element. -/
def CutOff (content : List UInt8) : Prop :=
  content.length < 4 ∨ ∃ tag rest, parseUint32 content = .ok (tag, rest) ∧ rest.length < (Tag.type tag).valueSize

/-- The bytes end inside of one of `count` elements, and those before it are accepted. -/
def Overruns (exceeds : Exceeds w) (span : BitVec w) : Nat → List UInt8 → Prop
  | 0, _ => False
  | count + 1, content =>
    CutOff content ∨ ∃ param rest, parseParam exceeds span content = .ok (param, rest) ∧
      Overruns exceeds span count rest

section Far

variable {limit pointer : BitVec w} {content : List UInt8} (wide : 32 ≤ w)
  (far : buffer.limit.toNat + 12 ≤ limit.toNat) (ahead : buffer.Ahead buffer.limit pointer content)
include far ahead

theorem copyFromBuf_reads {size : BitVec w} {number : Nat} (same : size.toNat = number) (some : 0 < number)
    (few : number ≤ 12) :
    Reads buffer id (content.length < number) (copyFromBuf buffer limit size pointer) (parseBytes number content) := by
  subst same
  have length := ahead.length
  have order : pointer.toNat ≤ buffer.limit.toNat := ahead.1.2.1
  have low : buffer.base.toNat ≤ pointer.toNat := ahead.1.1
  have stop := buffer.limit_toNat
  have top := limit.isLt
  have sum : (pointer + size).toNat = pointer.toNat + size.toNat := Nat.mod_eq_of_lt (by omega)
  have plain {bound : BitVec w} (fits : pointer.toNat + size.toNat ≤ bound.toNat) :
      copyFromBuf buffer bound size pointer = buffer.read pointer size.toNat >>= fun bytes =>
        .ok (bytes, pointer + size) := by
    unfold copyFromBuf
    rw [if_neg (by rw [lt_def, sum]; omega), if_neg (by rw [lt_def, sum]; omega)]
    rfl
  rw [plain (by omega)]
  constructor
  · intro cut
    unfold Buffer.read
    rw [if_neg (by omega), if_neg (by omega)]
    rfl
  · intro whole
    rw [← plain (show _ ≤ buffer.limit.toNat by omega)]
    exact copyFromBuf_follows ahead rfl

include wide

theorem copyUint32_reads :
    Reads buffer id (content.length < 4) (copyUint32 buffer limit pointer) (parseUint32 content) := by
  have four : (4 : BitVec w).toNat = 4 := ofNat_small wide (by decide)
  exact (copyFromBuf_reads far ahead four (by decide) (by decide)).bind fun _ _ => follows_ok

theorem copyUint64_reads :
    Reads buffer id (content.length < 8) (copyUint64 buffer limit pointer) (parseUint64 content) := by
  have eight : (8 : BitVec w).toNat = 8 := ofNat_small wide (by decide)
  exact (copyFromBuf_reads far ahead eight (by decide) (by decide)).bind fun _ _ => follows_ok

theorem deserializeBlob_reads : Reads buffer id (content.length < 8) (deserializeBlob exceeds buffer limit span pointer)
      (parseBlob exceeds span content) := by
  refine (Reads.next (fun dataLength second middle _ further =>
    (copyUint32_reads wide far further).bind fun ⟨offset, next⟩ rest last => ?_) (copyUint32_reads wide far ahead)).congr ?_
  · dsimp only [id]
    split
    · exact rfl
    · exact follows_ok last
  constructor
  · rintro (cut | ⟨value, rest, found, cut⟩)
    · omega
    · rw [parseUint32_inv found, length_append, length_encode]
      omega
  · intro cut
    by_cases enough : 4 ≤ content.length
    · refine .inr ⟨.ofNat (decode (content.take 4)), content.drop 4, ?_, ?_⟩
      · unfold parseUint32 parseBytes
        rw [if_pos enough]
        rfl
      · rw [length_drop]
        omega
    · exact .inl (by omega)

theorem deserializeBool_reads :
    Reads buffer id (content.length < 1) (deserializeBool buffer limit pointer) (parseBool content) := by
  have order : pointer.toNat ≤ buffer.limit.toNat := ahead.1.2.1
  have length := ahead.length
  have stop := buffer.limit_toNat
  have before : pointer < limit := by
    rw [lt_def]
    omega
  constructor
  · intro cut
    unfold deserializeBool Buffer.read
    rw [if_pos before, if_neg (by decide), if_neg (by omega)]
    rfl
  · intro whole
    have same : deserializeBool buffer limit pointer = deserializeBool buffer buffer.limit pointer := by
      unfold deserializeBool
      rw [if_pos before, if_pos (by rw [lt_def]; omega)]
    rw [same]
    exact deserializeBool_follows wide ahead

theorem deserializeValue_reads (type : TagType) :
    Reads buffer id (content.length < type.valueSize) (deserializeValue exceeds buffer limit span pointer type)
      (parseValue exceeds span content type) := by
  cases type with
  | invalid | unknown => exact ⟨fun cut => absurd cut (Nat.not_lt_zero _), fun _ => rfl⟩
  | enum | enumRep | uint | uintRep => exact (copyUint32_reads wide far ahead).bind fun _ _ => follows_ok
  | ulong | ulongRep | date => exact (copyUint64_reads wide far ahead).bind fun _ _ => follows_ok
  | bool => exact (deserializeBool_reads wide far ahead).bind fun _ _ => follows_ok
  | bignum | bytes => exact (deserializeBlob_reads wide far ahead).bind fun _ _ => follows_ok

theorem deserializeParam_reads : Reads buffer id (CutOff content) (deserializeParam exceeds buffer limit span pointer)
      (parseParam exceeds span content) :=
  Reads.next (fun tag _ _ _ further =>
    (deserializeValue_reads wide far further (Tag.type tag)).bind fun _ _ => follows_ok) (copyUint32_reads wide far ahead)

omit ahead in
theorem deserializeElems_reads (ahead : buffer.Ahead buffer.limit pointer content) :
    Reads buffer id (Overruns exceeds span count content) (deserializeElems exceeds buffer limit span count pointer)
      (parseElems exceeds span count content) := by
  induction count generalizing pointer content with
  | zero => exact ⟨False.elim, fun _ => follows_ok ahead⟩
  | succ count ih =>
  exact Reads.next (fun _ _ _ _ further => (ih further).bind fun _ _ => follows_ok)
    (deserializeParam_reads wide far ahead)

end Far

variable {limit : Limit w} {allocations : Allocations} {content : List UInt8}

def elementsParts (result : Nat × List SetParam × BitVec w) : (Nat × List SetParam) × BitVec w :=
  ((result.1, result.2.1), result.2.2)

def Parsed.parts (parsed : Parsed w) : (List UInt8 × Nat × List SetParam) × BitVec w :=
  ((parsed.indirect, parsed.elementsCount, parsed.elems), parsed.pointer)

/-- More bytes are announced for the elements than there are, without going around the end
of the address space, and they end inside of an element. -/
def Overrun (limit : Limit w) (allocations : Allocations) (content : List UInt8) : Prop :=
  ∃ indirect middle, parseSizeAndData allocations.indirect content = .ok (indirect, middle) ∧
    ∃ count second, parseUint32 middle = .ok (count, second) ∧
    ∃ size rest, parseUint32 second = .ok (size, rest) ∧
    ¬(signedExceeds w (toSize w size) (.ofNat w rest.length) ∨ toSize w size < toSize w count * 4 ∨
      limit.Wraps (toSize w count * .ofNat w (paramSize w)) rest) ∧
    elemsAllocate w allocations.elems (toSize w count).toNat = true ∧
    rest.length < size.toNat ∧ ¬limit.Wraps (toSize w size) rest ∧
    Overruns (signedExceeds w) (.ofNat w indirect.length) (toSize w count).toNat rest

theorem parseWindow_all {size : BitVec w} (nothing : limit.behind = []) (noWrap : ¬limit.Wraps size content)
    (least : content.length ≤ size.toNat) :
    parseWindow exceeds limit span count size content = parseElems exceeds span count content := by
  unfold parseWindow Limit.window
  rw [if_neg noWrap, nothing, append_nil, take_of_length_le least]
  cases read : parseElems exceeds span count content with
  | error error => rfl
  | ok pair =>
  obtain ⟨elems, left⟩ := pair
  obtain ⟨_, pieces, split, _⟩ := parseElems_inv read
  have behind : content.drop (content.length - left.length) = left := by
    rw [split, length_append, Nat.add_sub_cancel, drop_left]
  exact congrArg (fun rest => Except.ok (elems, rest)) behind

/-- A size that passes the check and is not inside the input is far outside. -/
theorem far_of_passed (word : w = 32 ∨ w = 64) {size : UInt32} {length : Nat}
    (short : w = 64 ∨ length + 12 ≤ 2 ^ 31) (bounded : length < 2 ^ w)
    (passed : signedExceeds w (toSize w size) (.ofNat w length) = false) (more : length < size.toNat) :
    length + 12 ≤ size.toNat := by
  have sizeIs := toSize_toNat (show 32 ≤ w by omega) size
  have small : size.toNat < 2 ^ 32 := size.toNat_lt
  have lengthIs : (BitVec.ofNat w length).toNat = length := (toNat_ofNat _ _).trans (Nat.mod_eq_of_lt bounded)
  rcases short with rfl | short
  · have least := signedExceeds_sound _ _ (by omega) passed
    omega
  by_contra near
  have exact := signedExceeds_exact (show 0 < w by omega) (toSize w size) (.ofNat w length)
    (by rcases word with rfl | rfl <;> omega) (by rcases word with rfl | rfl <;> omega)
  rw [passed, sizeIs, lengthIs] at exact
  exact of_decide_eq_false exact.symm more

theorem window_reads (word : w = 32 ∨ w = 64) {start : BitVec w} {size : UInt32} {rest : List UInt8}
    (last : buffer.Ahead buffer.limit start rest) (short : w = 64 ∨ rest.length + 12 ≤ 2 ^ 31)
    (passed : signedExceeds w (toSize w size) (.ofNat w rest.length) = false) :
    Reads buffer id (rest.length < size.toNat ∧ ¬(buffer.bound word).Wraps (toSize w size) rest ∧
        Overruns (signedExceeds w) span count rest)
      (deserializeElems (signedExceeds w) buffer (start + toSize w size) span count start)
      (parseWindow (signedExceeds w) (buffer.bound word) span count (toSize w size) rest) := by
  have wide : 32 ≤ w := by omega
  have sizeIs := toSize_toNat wide size
  by_cases enough : size.toNat ≤ rest.length
  · exact ⟨fun cut => by omega, fun _ => window_follows last (by omega)⟩
  by_cases wraps : (buffer.bound word).Wraps (toSize w size) rest
  · exact ⟨fun cut => absurd wraps cut.2.1, fun _ => window_wraps last wraps⟩
  have length := last.length
  have order : start.toNat ≤ buffer.limit.toNat := last.1.2.1
  have top := buffer.limit.isLt
  have far := far_of_passed word short (by omega) passed (by omega)
  have sum := add_toNat_of_noWrap fun before => wraps ((wraps_iff last).mpr before)
  rw [parseWindow_all rfl wraps (by omega)]
  exact (deserializeElems_reads wide (by omega) last).congr ⟨fun cut => ⟨by omega, wraps, cut⟩, fun cut => cut.2.2⟩

/-- `Deserialize` leaves the buffer exactly if the input is overrun, and else reads as
from a list. -/
theorem deserialize_reads (word : w = 32 ∨ w = 64) {pointer : BitVec w}
    (ahead : buffer.Ahead buffer.limit pointer content) (short : w = 64 ∨ content.length + 12 ≤ 2 ^ 31)
    (allocations : Allocations) :
    Reads buffer Parsed.parts (Overrun (buffer.bound word) allocations content)
      (deserialize buffer buffer.limit allocations pointer)
      (parseSet (signedExceeds w) (buffer.bound word) allocations content) := by
  have wide : 32 ≤ w := by omega
  refine Follows.reads (fun indirect second middle data further => ?_) (copySizeAndData_follows wide ahead)
  refine @Reads.bind w buffer _ _ _ _ elementsParts _ _ _ _ _ _ (Follows.reads (fun number third after numberRead further =>
    Follows.reads (fun size start rest sizeRead last => ?_) (copyUint32_follows wide further))
    (copyUint32_follows wide further)) ?_
  · have lengths := congrArg List.length (parseSizeAndData_inv data).1
    rw [parseUint32_inv numberRead, parseUint32_inv sizeRead] at lengths
    simp only [length_append, length_encode] at lengths
    have back : buffer.limit - start = BitVec.ofNat w rest.length := by
      rw [last.pointer_eq]
      exact sub_sub_cancel _ _
    simp only [back, ← @wraps_iff w buffer word _ _ _ last]
    split
    next refused => exact ⟨fun cut => absurd refused cut.1, fun _ => rfl⟩
    next passed =>
    split
    next never => exact ⟨fun cut => by simp [cut.2.1] at never, fun _ => rfl⟩
    next possible =>
    have allocates : elemsAllocate w allocations.elems (toSize w number).toNat = true := by simpa using possible
    have loop := @window_reads w (.ofNat w indirect.length) buffer (toSize w number).toNat word _ size _ last
      (by omega) (Bool.eq_false_iff.mpr fun larger => passed (.inl larger))
    refine Reads.congr (loop.bind ?_) ⟨fun cut => ⟨passed, allocates, cut⟩, fun cut => cut.2.2⟩
    exact fun ⟨elems, next⟩ left behind => ⟨_, rfl, rfl, behind⟩
  · intro ⟨count, elems, next⟩ rest last
    dsimp only [elementsParts] at last ⊢
    split
    · exact rfl
    · exact ⟨_, rfl, rfl, last⟩

theorem deserializeElems_length {limit pointer : BitVec w} {result : List SetParam × BitVec w}
    (ran : deserializeElems exceeds buffer limit span count pointer = .ok result) : result.1.length = count := by
  induction count generalizing pointer result with
  | zero =>
    cases ran
    rfl
  | succ count ih =>
  obtain ⟨first, _, ran⟩ := bind_ok ran
  obtain ⟨rest, others, ran⟩ := bind_ok ran
  cases ran
  exact congrArg (· + 1) (ih others)

theorem deserializeWith_count {limit pointer : BitVec w} {parsed : Parsed w}
    (ran : deserializeWith exceeds buffer limit allocations pointer = .ok parsed) :
    parsed.elems.length = parsed.elementsCount ∧ parsed.elementsCount * paramSize w < 2 ^ w := by
  obtain ⟨⟨indirect, second⟩, _, rest⟩ := bind_ok ran
  obtain ⟨⟨count, elems, behind⟩, elements, last⟩ := bind_ok rest
  have same : parsed.elementsCount = count ∧ parsed.elems = elems := by
    dsimp only at last
    split at last
    · cases last
    · cases last
      exact ⟨rfl, rfl⟩
  rw [same.1, same.2]
  obtain ⟨⟨elementsCount, third⟩, _, elements⟩ := bind_ok elements
  obtain ⟨⟨elementsSize, start⟩, _, elements⟩ := bind_ok elements
  dsimp only at elements
  split at elements
  · cases elements
  split at elements
  · cases elements
  next possible =>
  obtain ⟨⟨read, last⟩, loop, elements⟩ := bind_ok elements
  cases elements
  have allocate : elemsAllocate w allocations.elems (toSize w elementsCount).toNat = true := by
    simpa using possible
  exact ⟨deserializeElems_length loop, of_decide_eq_true (Bool.and_eq_true_iff.mp allocate).2⟩

/-- What is to hold of the result: as many elements as announced, and every blob
inside of the indirect data. -/
def Parsed.Sound (parsed : Parsed w) : Prop :=
  parsed.elems.length = parsed.elementsCount ∧
    ∀ param ∈ parsed.elems, SetParam.Inside parsed.indirect.length param

/-- Nothing outside the buffer is read, and what is found is sound. -/
def Confines : Except Stop (Parsed w) → Prop
  | .ok parsed => parsed.Sound
  | .error .outOfBounds => False
  | .error (.refused _) => True

/-- A call of `Deserialize` on a buffer stays inside it, finds blobs inside the
indirect data, and leaves an empty set with an error if it fails. -/
def Confined (outcome : Except Stop (Parsed w)) : Prop :=
  Confines outcome ∧
    ∀ returned, AuthSet.deserialized outcome = some returned → returned.done = false →
      returned.set.elems = [] ∧ returned.set.indirectSize = 0 ∧ returned.set.error ≠ .ok

/-- The bytes are those of a set with a blob outside of the indirect data. -/
def Strays (limit : Limit w) (allocations : Allocations) (content : List UInt8) : Prop :=
  ∃ indirect count elems rest,
    parseSet (signedExceeds w) limit allocations content = .ok ((indirect, count, elems), rest) ∧
    ∃ param ∈ elems, ¬SetParam.Inside indirect.length param

theorem Buffer.ahead (buffer : Buffer w) : buffer.Ahead buffer.limit buffer.base buffer.bytes := by
  refine ⟨buffer.within_start, ?_⟩
  rw [buffer.limit_toNat, Nat.sub_self, Nat.add_sub_cancel_left, drop_zero, take_length]

theorem refused_empty {outcome : Except Stop (Parsed w)} {returned : AuthSet.Returned}
    (left : AuthSet.deserialized outcome = some returned) (failed : returned.done = false) :
    returned.set.elems = [] ∧ returned.set.indirectSize = 0 ∧ returned.set.error ≠ .ok := by
  cases outcome with
  | ok parsed =>
    cases left
    cases failed
  | error stop =>
  cases stop with
  | outOfBounds => cases left
  | refused error =>
  cases left
  cases error with
  | allocationFailure | malformedData => exact ⟨rfl, rfl, nofun⟩

theorem confined_iff (word : w = 32 ∨ w = 64) (short : w = 64 ∨ buffer.bytes.length + 12 ≤ 2 ^ 31) :
    Confined (deserialize buffer buffer.limit allocations buffer.base) ↔
      ¬Overrun (buffer.bound word) allocations buffer.bytes ∧ ¬Strays (buffer.bound word) allocations buffer.bytes := by
  obtain ⟨outside, inside⟩ := deserialize_reads word buffer.ahead short allocations
  constructor
  · intro ⟨confines, _⟩
    have whole : ¬Overrun (buffer.bound word) allocations buffer.bytes := by
      intro overrun
      rw [outside overrun] at confines
      exact confines
    refine ⟨whole, ?_⟩
    rintro ⟨indirect, count, elems, rest, read, param, member, stray⟩
    obtain ⟨parsed, ran, same, _⟩ := read ▸ inside whole
    cases same
    rw [ran] at confines
    exact stray (confines.2 param member)
  · intro ⟨whole, proper⟩
    refine ⟨?_, fun _ => refused_empty⟩
    have follows := inside whole
    cases read : parseSet (signedExceeds w) (buffer.bound word) allocations buffer.bytes with
    | error error =>
      rw [read] at follows
      rw [show _ = _ from follows]
      exact True.intro
    | ok found =>
    obtain ⟨⟨indirect, count, elems⟩, rest⟩ := found
    obtain ⟨parsed, ran, same, _⟩ := read ▸ follows
    cases same
    rw [ran]
    refine ⟨(deserializeWith_count ran).1, fun param member => ?_⟩
    by_contra stray
    exact proper ⟨_, _, _, rest, read, param, member, stray⟩

theorem parseSet_inside (limit : Limit 64) {indirect rest : List UInt8} {number : Nat} {elems : List SetParam}
    (read : parseSet (signedExceeds 64) limit allocations content = .ok ((indirect, number, elems), rest)) :
    ∀ param ∈ elems, SetParam.Inside indirect.length param := by
  obtain ⟨_, _, _, _, _, spelled⟩ := parseSet_inv read
  intro param member blob
  obtain ⟨offset, length, passed⟩ := Spelled.forall spelled.each (fun _ _ piece => piece.accepted) param member blob
  have inside := slice_inside (by decide) signedExceeds_sound passed
  have most : (BitVec.ofNat 64 indirect.length).toNat ≤ indirect.length := Nat.mod_le _ _
  have offsetIs : (UInt32.ofNat param.blob.offset).toNat = param.blob.offset := UInt32.toNat_ofNat_of_lt offset
  have lengthIs : (UInt32.ofNat param.blob.length).toNat = param.blob.length := UInt32.toNat_ofNat_of_lt length
  omega

/-- In 64 bits the sizes are never negative. -/
theorem harmless_wide (limit : Limit 64) (short : content.length < 2 ^ 64) :
    ¬Overrun limit allocations content ∧ ¬Strays limit allocations content := by
  constructor
  · rintro ⟨indirect, middle, data, number, second, numberRead, size, rest, sizeRead, passed, _, more, _⟩
    have lengths := congrArg List.length (parseSizeAndData_inv data).1
    rw [parseUint32_inv numberRead, parseUint32_inv sizeRead] at lengths
    simp only [length_append, length_encode] at lengths
    have sizeIs := toSize_toNat limit.wide size
    have small : size.toNat < 2 ^ 32 := size.toNat_lt
    have least := signedExceeds_sound _ _ (by omega) (Bool.eq_false_iff.mpr fun larger => passed (.inl larger))
    rw [sizeIs, toNat_ofNat, Nat.mod_eq_of_lt (by omega)] at least
    omega
  · rintro ⟨indirect, number, elems, rest, read, param, member, stray⟩
    exact stray (parseSet_inside limit read param member)

/-- Every blob among the elements ends below `2^31`, by the bytes. -/
def blobsModerate : Nat → List UInt8 → Bool
  | 0, _ => true
  | count + 1, content =>
    let tag : Tag := .ofNat (decode (content.take 4))
    (!tag.isBlob || decide (decode ((content.drop 4).take 4) + decode ((content.drop 8).take 4) < 2 ^ 31)) &&
      blobsModerate count (content.drop (4 + (Tag.type tag).valueSize))

/-- The input is shorter than `2^31` bytes, as is what it announces for its elements, and its
blobs end below. -/
def moderate (content : List UInt8) : Bool :=
  let elements := content.drop (4 + decode (content.take 4))
  decide (content.length + 12 ≤ 2 ^ 31) && decide (decode ((elements.drop 4).take 4) < 2 ^ 31) &&
    blobsModerate (decode (elements.take 4)) (elements.drop 8)

theorem moderate_spelled {indirect bytes : List UInt8} {number size : Nat} (small : indirect.length < 2 ^ 32)
    (few : number < 2 ^ 32) (bounded : size < 2 ^ 32) (tame : moderate (encode 4 indirect.length ++ (indirect ++
      (encode 4 number ++ (encode 4 size ++ bytes)))) = true) :
    indirect.length < 2 ^ 31 ∧ size < 2 ^ 31 ∧ bytes.length < 2 ^ 31 ∧ blobsModerate number bytes = true := by
  unfold moderate at tame
  dsimp only at tame
  rw [decode_take small, ← drop_drop, drop_encode, drop_left, drop_encode, decode_take bounded, decode_take few,
    show 8 = 4 + 4 from rfl, ← drop_drop, drop_encode, drop_encode, Bool.and_eq_true_iff, Bool.and_eq_true_iff,
    decide_eq_true_iff, decide_eq_true_iff] at tame
  simp only [length_append, length_encode] at tame
  exact ⟨by omega, tame.1.2, by omega, tame.2⟩

theorem paramSerializedSize_eq (param : SetParam) : paramSerializedSize param = 4 + (Tag.type param.tag).valueSize := by
  unfold paramSerializedSize TagType.valueSize
  cases Tag.type param.tag with
  | _ => rfl

theorem blobsModerate_spelled {elems : List SetParam} {pieces : List (List UInt8)} {more : List UInt8}
    (each : Forall₂ (Spelled exceeds span) elems pieces)
    (tame : blobsModerate elems.length (pieces.flatten ++ more) = true) :
    ∀ param ∈ elems, param.tag.isBlob = true → param.blob.offset + param.blob.length < 2 ^ 31 := by
  induction each with
  | nil => exact nofun
  | @cons param piece others pieces spelled _ ih =>
  obtain ⟨value, whole⟩ : ∃ value, piece = encode 4 param.tag.toNat ++ value := by
    rcases spelled.exact with same | ⟨_, byte, _, same⟩
    · exact ⟨_, same⟩
    · exact ⟨_, same⟩
  have tagIs : UInt32.ofNat (decode ((piece ++ (pieces.flatten ++ more)).take 4)) = param.tag := by
    rw [whole, List.append_assoc, decode_take param.tag.toNat_lt, UInt32.ofNat_toNat]
  rw [flatten_cons, List.append_assoc, length_cons, blobsModerate, tagIs, ← paramSerializedSize_eq, ← spelled.length,
    drop_left, Bool.and_eq_true_iff] at tame
  refine forall_mem_cons.mpr ⟨fun blob => ?_, ih tame.2⟩
  obtain ⟨offset, length, _⟩ := spelled.accepted blob
  have bytes : piece = encode 4 param.tag.toNat ++ (encode 4 param.blob.length ++ encode 4 param.blob.offset) := by
    rcases spelled.exact with same | ⟨kind, _⟩
    · rw [same, encodeParam, encodeValue]
      cases kind : Tag.type param.tag with
      | bignum | bytes => rfl
      | _ => simp [Tag.isBlob, kind] at blob
    · simp [Tag.isBlob, kind] at blob
  have first := tame.1
  rw [blob, bytes, List.append_assoc, List.append_assoc, show 8 = 4 + 4 from rfl, ← drop_drop,
    drop_encode, decode_take length, drop_encode, decode_take offset] at first
  have bound : param.blob.length + param.blob.offset < 2 ^ 31 := by simpa using first
  omega

theorem SetSpelled.split {indirect bytes : List UInt8} {elems : List SetParam} {size : Nat}
    {pieces : List (List UInt8)} (spelled : SetSpelled exceeds limit indirect elems size pieces bytes)
    (within : limit.behind = [] ∨ size ≤ bytes.length) : ∃ more, bytes = pieces.flatten ++ more := by
  have most : (BitVec.ofNat w size).toNat ≤ size := Nat.mod_le _ _
  obtain ⟨left, window⟩ := spelled.window
  unfold Limit.window at window
  split at window
  · rw [(append_eq_nil_iff.mp window.symm).1]
    exact ⟨bytes, rfl⟩
  · have taken : (bytes ++ limit.behind).take (BitVec.ofNat w size).toNat =
        bytes.take (BitVec.ofNat w size).toNat := by
      rcases within with nothing | enough
      · rw [nothing, append_nil]
      · rw [take_append_of_le_length (by omega)]
    refine ⟨left ++ bytes.drop (BitVec.ofNat w size).toNat, ?_⟩
    rw [← List.append_assoc, ← window, taken, take_append_drop]

theorem moderate_harmless (nothing : limit.behind = []) (tame : moderate content = true) :
    ¬Overrun limit allocations content ∧ ¬Strays limit allocations content := by
  have wide := limit.wide
  have half : (2 : Nat) ^ 31 ≤ 2 ^ (w - 1) := Nat.pow_le_pow_right (by decide) (by omega)
  constructor
  · rintro ⟨indirect, middle, data, number, second, count, size, rest, announced, passed, _, more, _⟩
    obtain ⟨start, small⟩ := parseSizeAndData_inv data
    rw [start, parseUint32_inv count, parseUint32_inv announced] at tame
    obtain ⟨_, sizeSmall, short, _⟩ := moderate_spelled small number.toNat_lt size.toNat_lt tame
    have sizeIs := toSize_toNat wide size
    have lengthIs : (BitVec.ofNat w rest.length).toNat = rest.length := ofNat_small wide (by omega)
    refine passed (.inl ?_)
    rw [signedExceeds_exact (by omega) _ _ (by omega) (by omega), sizeIs, lengthIs]
    exact decide_eq_true more
  · rintro ⟨indirect, number, elems, rest, read, param, member, stray⟩
    obtain ⟨size, pieces, bytes, whole, _, spelled⟩ := parseSet_inv read
    obtain ⟨more, split⟩ := spelled.split (.inl nothing)
    rw [whole, spellSet] at tame
    obtain ⟨short, _, _, blobs⟩ := moderate_spelled spelled.indirectSmall spelled.countSmall spelled.sizeSmall tame
    rw [split] at blobs
    refine stray fun blob => ?_
    have bound := blobsModerate_spelled spelled.each blobs param member blob
    have passed := (Spelled.forall spelled.each (fun _ _ piece => piece.accepted) param member blob).passed
    obtain ⟨_, _, sum⟩ := param.blob.sizes wide (by omega)
    have spanIs : (BitVec.ofNat w indirect.length).toNat = indirect.length := ofNat_small wide spelled.indirectSmall
    by_contra outside
    refine passed (.inr (.inr ?_))
    rw [signedExceeds_exact (by omega) _ _ (by omega) (by omega), sum, spanIs]
    exact decide_eq_true (Nat.not_le.mp outside)

/-- The sizes are harmless: in 64 bits always, in 32 bits if they are below `2^31`. -/
def Tame (w : Nat) (content : List UInt8) : Prop := w = 64 ∨ moderate content = true

theorem Tame.confined (word : w = 32 ∨ w = 64) (tame : Tame w buffer.bytes) :
    Confined (deserialize buffer buffer.limit allocations buffer.base) := by
  rcases tame with rfl | tame
  · exact (confined_iff word (.inl rfl)).mpr (harmless_wide _ (lt_of_le_of_lt (Nat.le_add_left _ _) buffer.fits))
  · refine (confined_iff word (.inr ?_)).mpr (moderate_harmless rfl tame)
    unfold moderate at tame
    simp only [Bool.and_eq_true, decide_eq_true_eq] at tame
    exact tame.1.1

/-- One element is announced, in `0x80000000` bytes, and nothing follows. -/
def hugeElementsBytes : List UInt8 :=
  encode 4 0 ++ encode 4 1 ++ encode 4 0x80000000

def hugeElements : Buffer 32 := ⟨0x1000, hugeElementsBytes, by decide⟩

def hugeElements64 : Buffer 64 := ⟨0x1000, hugeElementsBytes, by decide⟩

/-- A size that is negative as a `ptrdiff_t` lets the parser read on behind the
buffer. -/
theorem huge_elements_read_outside : deserialize hugeElements hugeElements.limit ⟨true, true⟩ hugeElements.base =
      .error .outOfBounds := by decide +kernel

/-- In 64 bits every input is confined. In 32 bits those are that are not overrun and have no
blob outside of the indirect data, such as all whose sizes are below `2^31`. -/
theorem deserialize_confined (allocations : Allocations) :
    (∀ buffer : Buffer 64, Confined (deserialize buffer buffer.limit allocations buffer.base)) ∧
    (∀ buffer : Buffer 32, buffer.bytes.length + 12 ≤ 2 ^ 31 →
      (Confined (deserialize buffer buffer.limit allocations buffer.base) ↔
        ¬Overrun (buffer.bound (.inl rfl)) allocations buffer.bytes ∧
        ¬Strays (buffer.bound (.inl rfl)) allocations buffer.bytes)) ∧
    ∀ buffer : Buffer 32, moderate buffer.bytes = true →
      Confined (deserialize buffer buffer.limit allocations buffer.base) :=
  ⟨fun _ => Tame.confined (.inr rfl) (.inl rfl), fun _ short => confined_iff (.inl rfl) (.inr short),
    fun _ tame => Tame.confined (.inl rfl) (.inr tame)⟩

/-- In 64 bits the same bytes are refused. -/
theorem huge_elements_confined : deserialize hugeElements64 hugeElements64.limit ⟨true, true⟩ hugeElements64.base =
        .error (.refused .malformedData) ∧
      Confined (deserialize hugeElements64 hugeElements64.limit ⟨true, true⟩ hugeElements64.base) :=
  ⟨by decide +kernel, (deserialize_confined ⟨true, true⟩).1 hugeElements64⟩

end Trusty.Keymaster
