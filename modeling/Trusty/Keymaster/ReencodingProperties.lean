import Trusty.Keymaster.KeyBlobProperties
import Trusty.Keymaster.UseLimitProperties

/-!
The byte strings that are read as one key blob. `CreateKeyId` hashes the bytes, while
the encryption covers what was read from them.
-/

namespace Trusty.Keymaster

open List SetData

open LittleEndian (encode decode length_encode)

variable {w : Nat}

def booleansExact : List SetParam → List UInt8 → Bool
  | [], _ => true
  | param :: others, content =>
    (decide (Tag.type param.tag ≠ .bool) || content[4]?.all (decide <| · ≤ 1)) &&
      booleansExact others (content.drop (paramSerializedSize param))

/-- The set is spelled as `Serialize` does it: the size announced for the elements is the one
that they have, and they lie in the input. -/
def SetData.exact (set : SetData) (content : List UInt8) : Bool :=
  let elements := content.drop (4 + set.indirect.length + 4)
  decide (decode (elements.take 4) = serializedSizeOfElements set.elems) &&
    decide (serializedSizeOfElements set.elems ≤ (elements.drop 4).length) && booleansExact set.elems (elements.drop 4)

def BlobParts.front (parts : BlobParts) : Nat :=
  13 + parts.nonce.length + parts.encrypted.length + parts.tag.length

/-- The blob has the current format, both sets are exact and nothing is left behind them. -/
def strict (limit : Limit w) (memory : BlobMemory) (blob : List UInt8) : Bool :=
  match deserializeVersioned limit memory blob with
  | .error _ => false
  | .ok (parts, rest) =>
    let content := blob.drop parts.front
    rest.isEmpty && parts.hw.exact content &&
      parts.sw.exact (content.drop parts.hw.bytes.length)

theorem booleansExact_encode (elems : List SetParam) (rest : List UInt8) :
    booleansExact elems ((elems.map encodeParam).flatten ++ rest) = true := by
  induction elems with
  | nil => rfl
  | cons param others ih =>
  rw [map_cons, flatten_cons, append_assoc, booleansExact, ← length_encodeParam, drop_left, ih, Bool.and_true]
  cases kind : Tag.type param.tag with
  | bool =>
    have value : encodeValue param = [if param.boolean then 1 else 0] := by
      unfold encodeValue
      rw [kind]
    have byte : (encodeParam param ++ ((others.map encodeParam).flatten ++ rest))[4]? =
        some (if param.boolean then 1 else 0) := by
      unfold encodeParam
      rw [value, append_assoc, getElem?_append_right (by simp), length_encode]
      rfl
    rw [byte]
    cases param.boolean with
    | true | false => rfl
  | _ => rfl

variable {rest : List UInt8}

theorem booleansExact_spelled {exceeds : Exceeds w} {span : BitVec w} {elems : List SetParam}
    {pieces : List (List UInt8)} (each : Forall₂ (Spelled exceeds span) elems pieces) (exact : booleansExact elems (pieces.flatten ++ rest) = true) :
    pieces = elems.map encodeParam := by
  induction each with
  | nil => rfl
  | @cons param piece others pieces spelled _ ih =>
  rw [flatten_cons, append_assoc, booleansExact, ← spelled.length, drop_left] at exact
  obtain ⟨first, behind⟩ := Bool.and_eq_true_iff.mp exact
  rw [map_cons, ← ih behind]
  rcases spelled.exact with same | ⟨kind, byte, large, same⟩
  · rw [same]
  have found : (piece ++ (pieces.flatten ++ rest))[4]? = some byte := by
    rw [same, append_assoc, getElem?_append_right (by simp), length_encode]
    rfl
  rw [found, kind] at first
  have small : byte ≤ 1 := by simpa using first
  exact absurd large (UInt8.not_lt.mpr small)

theorem SetData.exact_spellSet (set : SetData) {size : Nat} (small : size < 2 ^ 32) (bytes : List UInt8) :
    set.exact (spellSet set.indirect set.elems size bytes) = true ↔ (size = serializedSizeOfElements set.elems ∧
      serializedSizeOfElements set.elems ≤ bytes.length) ∧ booleansExact set.elems bytes = true := by
  have length := length_encode 4 size
  have sizeIs : decode (encode 4 size) = size := LittleEndian.decode_encode small
  unfold SetData.exact
  dsimp only
  rw [drop_spellSet, take_left' length, drop_left' length, sizeIs, Bool.and_eq_true_iff, Bool.and_eq_true_iff,
    decide_eq_true_iff, decide_eq_true_iff]

variable {limit : Limit w} {set : SetData}

theorem SetData.exact_iff {allocations : Allocations} {content : List UInt8}
    (read : parseSetData limit allocations content = .ok (set, rest)) :
    set.exact content = true ↔ content = set.bytes ++ rest := by
  obtain ⟨⟨⟨indirect, count, elems⟩, behind⟩, parsed, same⟩ := bind_ok read
  cases same
  obtain ⟨size, pieces, bytes, whole, left, spelled⟩ := parseSet_inv parsed
  constructor
  · intro exact
    rw [whole] at exact ⊢
    obtain ⟨⟨sizes, within⟩, booleans⟩ := (exact_spellSet ⟨indirect, elems⟩ spelled.sizeSmall bytes).mp exact
    obtain ⟨more, split⟩ := spelled.split (.inr (sizes ▸ within))
    rw [split] at booleans
    have flatten := Spelled.length_flatten spelled.each
    rw [split, drop_left' flatten] at left
    unfold SetData.bytes encodeSet spellSet
    simp only [append_assoc]
    rw [left, sizes, split, booleansExact_spelled spelled.each booleans]
  · intro written
    have exact := (exact_spellSet ⟨indirect, elems⟩ (lt_of_le_of_lt spelled.enough spelled.sizeSmall)
      ((elems.map encodeParam).flatten ++ rest)).mpr ⟨⟨rfl, ?_⟩, booleansExact_encode elems rest⟩
    · rw [written]
      simpa only [SetData.bytes, encodeSet, spellSet, append_assoc] using exact
    · rw [length_append, length_encodeElems]
      exact Nat.le_add_right _ _

theorem BlobParts.drop_with (parts : BlobParts) (sets : List UInt8) : (parts.with sets).drop parts.front = sets := by
  have split : parts.with sets = parts.with [] ++ sets := by
    unfold BlobParts.with
    simp only [cons_append, append_assoc, append_nil]
  have length : (parts.with []).length = parts.front := by
    unfold BlobParts.with BlobParts.front
    simp only [length_cons, length_append, length_encode, length_nil]
    omega
  rw [split, drop_left' length]

theorem strict_iff {memory : BlobMemory} {blob : List UInt8} {parts : BlobParts}
    (read : deserializeVersioned limit memory blob = .ok (parts, rest)) :
    strict limit memory blob = true ↔ blob = parts.bytes := by
  obtain ⟨_, _, content, ⟨_, _, behind, hwRead, swRead⟩, whole⟩ := deserializeVersioned_ok read
  obtain ⟨_, _, hwLeft⟩ := parseSetData_canon hwRead
  obtain ⟨_, _, swLeft⟩ := parseSetData_canon swRead
  have front : blob.drop parts.front = content := by
    rw [whole]
    exact parts.drop_with content
  unfold strict
  rw [read]
  dsimp only
  rw [front, ← hwLeft, Bool.and_eq_true_iff, Bool.and_eq_true_iff, List.isEmpty_iff, exact_iff hwRead, exact_iff swRead]
  constructor
  · intro ⟨⟨nothing, hwBytes⟩, swBytes⟩
    rw [whole, hwBytes, swBytes, nothing, append_nil]
    rfl
  intro written
  have sets : content = parts.hw.bytes ++ parts.sw.bytes := by
    rw [← front, written]
    exact parts.drop_with _
  rw [sets, drop_left] at hwLeft
  rw [hwLeft, drop_length] at swLeft
  rw [sets, hwLeft, swLeft, append_nil]
  exact ⟨⟨rfl, rfl⟩, rfl⟩

def ofShown : Tag × AuthSet.Value → SetParam
  | (tag, .nothing) => ⟨tag, 0, ⟨0, 0⟩⟩
  | (tag, .number value) => ⟨tag, value.toUInt64, ⟨0, 0⟩⟩
  | (tag, .long value) => ⟨tag, value, ⟨0, 0⟩⟩
  | (tag, .flag value) => ⟨tag, if value then 1 else 0, ⟨0, 0⟩⟩
  | (tag, .blob _) => ⟨tag, 0, ⟨0, 0⟩⟩

theorem ofShown_value (data : Slice → List UInt8) {param : SetParam} (plain : param.tag.isBlob = false) :
    ofShown (param.tag, AuthSet.value data param) = reread param := by
  unfold AuthSet.value reread
  cases kind : Tag.type param.tag with
  | bignum | bytes => simp [Tag.isBlob, kind] at plain
  | _ => rfl

theorem SetData.elems_ofShown (same : set.reread = set) (plain : ∀ param ∈ set.elems, param.tag.isBlob = false) :
    set.view.map ofShown = set.elems := by
  unfold SetData.view
  rw [map_map]
  calc
    _ = set.elems.map Keymaster.reread := map_congr_left fun param member => ofShown_value _ (plain param member)
    _ = set.elems := congrArg SetData.elems same

theorem SetData.eq_of_view {other : SetData} (canon : set.Canon w) (canon' : other.Canon w) (same : set.reread = set)
    (same' : other.reread = other) (view : set.view = other.view) (plain : ∀ entry ∈ set.view, entry.1.isBlob = false) :
    set = other := by
  have plainElems (found : SetData) (shown : found.view = set.view) :
      ∀ param ∈ found.elems, param.tag.isBlob = false := by
    intro param member
    apply plain (param.tag, _)
    rw [← shown]
    exact mem_map_of_mem member
  have nothing (found : SetData) (canon : found.Canon w) (shown : found.view = set.view) : found.indirect = [] := by
    have total : blobTotal found.elems = 0 := by
      apply List.sum_eq_zero_iff_forall_eq_nat.mpr
      intro length member
      obtain ⟨param, from_, is⟩ := List.mem_map.mp member
      rw [← is, plainElems found shown param from_]
      rfl
    have length := canon.total
    rw [total, Nat.zero_mod] at length
    exact eq_nil_of_length_eq_zero length
  have elems : set.elems = other.elems := by
    rw [← elems_ofShown same (plainElems set rfl), ← elems_ofShown same' (plainElems other view.symm), view]
  cases set
  cases other
  rw [SetData.mk.injEq]
  exact ⟨(nothing _ canon rfl).trans (nothing _ canon' view.symm).symm, elems⟩

structure SameResult (parts other : BlobParts) : Prop where
  nonce : parts.nonce = other.nonce
  encrypted : parts.encrypted = other.encrypted
  tag : parts.tag = other.tag
  hw : parts.hw.view = other.hw.view
  sw : parts.sw.view = other.sw.view

section

variable {Key : Type} [DecidableEq Key] {cipher : WrapCipher Key} {history : List CreateCall}
  {steps steps' : ParseSteps w} {blob blob' : List UInt8} {params params' : AuthList}
  {material material' : List UInt8} {parts parts' : BlobParts}

theorem SameResult.eq (collisionFree : Function.Injective cipher.derive)
    (first : parseKeyBlob cipher history steps blob params = .ok (material, parts))
    (second : parseKeyBlob cipher history steps' blob' params' = .ok (material', parts'))
    (small : (derivationData (.ofParams (buildHiddenAuthorizations params)) parts.hw parts.sw).length < 2 ^ 31)
    (same : SameResult parts parts') : parts = parts' := by
  obtain ⟨call, _, hw, sw, made, _, _, hwView, swView, _⟩ := parseKeyBlob_bound collisionFree first small
  obtain ⟨hwPlain, swPlain⟩ := @setAuthorizations_all _ _ _ _ made (!Tag.isBlob ·) (by decide +kernel)
  have plain {list : AuthList} (each : ∀ entry ∈ list, (!Tag.isBlob entry.tag) = true) :
      ∀ entry ∈ List.map AuthSet.viewParam list, entry.1.isBlob = false := by
    intro shown member
    obtain ⟨entry, from_, rfl⟩ := mem_map.mp member
    exact Bool.eq_false_of_not_eq_true' (each entry from_)
  obtain ⟨_, _, sets⟩ := deserializeAuthEncryptedBlob_ok (parseKeyBlob_ok first).1
  obtain ⟨_, _, sets'⟩ := deserializeAuthEncryptedBlob_ok (parseKeyBlob_ok second).1
  obtain ⟨⟨hwCanon, hwSame⟩, swCanon, swSame⟩ := sets.canon
  obtain ⟨⟨hwCanon', hwSame'⟩, swCanon', swSame'⟩ := sets'.canon
  have hws := eq_of_view hwCanon hwCanon' hwSame hwSame' same.hw (by rw [hwView]; exact plain hwPlain)
  have sws := eq_of_view swCanon swCanon' swSame swSame' same.sw (by rw [swView]; exact plain swPlain)
  obtain ⟨nonce, encrypted, tag, _, _⟩ := same
  cases parts
  cases parts'
  rw [BlobParts.mk.injEq]
  exact ⟨nonce, encrypted, tag, hws, sws⟩

theorem bytes_of_strict (read : deserializeAuthEncryptedBlob steps blob = .ok parts)
    (exact : strict steps.limit steps.versioned blob = true) : blob = parts.bytes := by
  cases versioned : deserializeVersioned steps.limit steps.versioned blob with
  | error remains =>
    unfold strict at exact
    rw [versioned] at exact
    nomatch exact
  | ok found =>
  obtain ⟨foundParts, rest⟩ := found
  unfold deserializeAuthEncryptedBlob at read
  rw [versioned] at read
  split at read
  next => nomatch read
  next =>
    cases read
    exact (strict_iff versioned).mp exact

theorem strict_bytes (nonce : parts.nonce.length = nonceLength)
    (tag : parts.tag.length = tagLength) (hw : parts.hw.Canon w) (sw : parts.sw.Canon w)
    (fits : Fits limit parts.bytes.length) : strict limit .full parts.bytes = true := by
  have read := @deserializeVersioned_bytes parts w limit [] nonce tag hw sw fits
  rw [append_nil] at read
  rw [strict_iff read]
  unfold BlobParts.bytes BlobParts.with
  rw [bytes_reread, bytes_reread]

omit [DecidableEq Key] in
theorem strict_created {call : CreateCall} {prepared : Prepared}
    (ready : call.prepare = .ok prepared) (encrypts : call.steps.encrypts = true)
    (fits : Fits limit (call.parts cipher prepared).bytes.length) :
    strict limit .full (call.parts cipher prepared).bytes = true := by
  obtain ⟨nonce, tag, hw, sw⟩ := CreateCall.parts_wellFormed ready encrypts fits
  exact strict_bytes nonce tag hw sw fits

theorem reencoded_iff (collisionFree : Function.Injective cipher.derive)
    (first : parseKeyBlob cipher history steps blob params = .ok (material, parts))
    (second : parseKeyBlob cipher history steps' blob' params' = .ok (material', parts'))
    (small : (derivationData (.ofParams (buildHiddenAuthorizations params)) parts.hw parts.sw).length < 2 ^ 31)
    (same : SameResult parts parts') (memory : steps'.versioned = .full) (fits : Fits steps'.limit blob'.length)
    (exact : strict steps.limit steps.versioned blob = true) :
    blob = blob' ↔ strict steps'.limit steps'.versioned blob' = true := by
  have parts_eq := same.eq collisionFree first second small
  obtain ⟨read, nonce, tag, _⟩ := parseKeyBlob_ok first
  obtain ⟨_, _, sets⟩ := deserializeAuthEncryptedBlob_ok read
  have written := bytes_of_strict read exact
  constructor
  · intro blobs
    rw [← blobs, written] at fits
    rw [← blobs, written, memory]
    exact strict_bytes nonce tag sets.canon.1.1 sets.canon.2.1 fits
  · intro exact'
    rw [written, parts_eq, bytes_of_strict (parseKeyBlob_ok second).1 exact']

/-- The blob of a call is strict. A blob that gives the same result as a strict one is that one,
and has its key id, if and only if it is strict, too. -/
theorem usable_blobs (cipher : WrapCipher Key) (collisionFree : Function.Injective cipher.derive)
    (history : List CreateCall) :
    (∀ call ∈ history, ∀ blob hw sw, createKeyBlob cipher call = .ok (blob, hw, sw) →
      call.steps.encrypts = true → ∀ limit : Limit w, Fits limit blob.length → strict limit .full blob = true) ∧
    (∀ (steps steps' : ParseSteps w) (blob blob' : List UInt8) (params params' : AuthList)
      (material material' : List UInt8) (parts parts' : BlobParts) (createKeyId : List UInt8 → UInt64),
      parseKeyBlob cipher history steps blob params = .ok (material, parts) →
      parseKeyBlob cipher history steps' blob' params' = .ok (material', parts') →
      SameResult parts parts' →
      (derivationData (.ofParams (buildHiddenAuthorizations params)) parts.hw parts.sw).length < 2 ^ 31 →
      steps'.versioned = .full → Fits steps'.limit blob'.length →
      (createKeyId blob = createKeyId blob' → blob = blob') →
      strict steps.limit steps.versioned blob = true →
      (blob = blob' ↔ strict steps'.limit steps'.versioned blob' = true) ∧ (createKeyId blob = createKeyId blob' ↔
          strict steps'.limit steps'.versioned blob' = true)) := by
  constructor
  · intro call _ blob hw sw created encrypts limit fits
    obtain ⟨prepared, ready, blobIs, _, _⟩ := createKeyBlob_ok created
    subst blobIs
    exact strict_created ready encrypts fits
  intro steps steps' blob blob' params params' material material' parts parts' createKeyId first
    second same small memory fits distinct exact
  have blobs := reencoded_iff collisionFree first second small same memory fits exact
  exact ⟨blobs, ⟨fun ids => blobs.mp (distinct ids), fun exact' => congrArg createKeyId (blobs.mpr exact')⟩⟩

end

def limitedCall : CreateCall := { oneByteCall true with description := limitedKey 1 }

def limitedBlob : List UInt8 :=
  (limitedCall.parts openCipher ⟨.ofParams (buildHiddenAuthorizations (limitedKey 1)),
    .ofParams (limitedKey 1 ++ [.number Tag.origin 0]), .ofParams [],
    replicate nonceLength 1⟩).bytes

def signWith (keyid : UInt64) : BeginCall where
  policy := quietPolicy 0
  purpose := .sign
  keyid := keyid
  authSet := limitedKey 1 ++ [.number Tag.origin 0]
  operationParams := []

/-- With a byte behind it the blob is the same key, and under its other key id the key is used
a second time. -/
theorem limited_key_reused : (∃ hw sw, createKeyBlob openCipher limitedCall = .ok (limitedBlob, hw, sw)) ∧ (∃ parts,
        parseKeyBlob openCipher [limitedCall] workingSteps limitedBlob [] = .ok ([7], parts) ∧
        parseKeyBlob openCipher [limitedCall] workingSteps (limitedBlob ++ [0]) [] = .ok ([7], parts)) ∧
      ((Enforcement.create 32 32 true true).answers [signWith 1, signWith 1]).map (·.2) = [.ok, .keyMaxOpsExceeded] ∧
      ((Enforcement.create 32 32 true true).answers [signWith 1, signWith 2]).map (·.2) = [.ok, .ok] :=
  ⟨⟨_, _, rfl⟩, ⟨_, rfl, rfl⟩, by decide, by decide⟩

/-- The blob of the call passes the check, and the one with a byte behind it is told from it. -/
theorem limited_blob_strict : strict workingSteps.limit .full limitedBlob = true ∧ (limitedBlob = limitedBlob ++ [0] ↔
        strict workingSteps.limit .full (limitedBlob ++ [0]) = true) := by
  obtain ⟨created, accepted⟩ := usable_blobs openCipher (fun _ _ same => same) [limitedCall]
  have exact := created limitedCall mem_cons_self limitedBlob _ _ rfl rfl workingSteps.limit
    ⟨by decide, by decide, by decide⟩
  have told := accepted workingSteps workingSteps limitedBlob (limitedBlob ++ [0]) [] [] [7] [7]
    _ _ (fun bytes => .ofNat bytes.length) rfl rfl ⟨rfl, rfl, rfl, rfl, rfl⟩ (by decide) rfl
    ⟨by decide, by decide, by decide⟩ (fun same => absurd same (by decide)) exact
  exact ⟨exact, told.1⟩

/-- The format before versions, in which nonce and tag have no length. -/
def BlobParts.unversioned (parts : BlobParts) : List UInt8 :=
  parts.nonce ++ (encode 4 parts.encrypted.length ++ (parts.encrypted ++ (parts.tag ++
    (parts.hw.bytes ++ parts.sw.bytes))))

structure BlobParts.RoundTrips (limit : Limit w) (parts : BlobParts) : Prop where
  nonce : parts.nonce.length = nonceLength
  encrypted : parts.encrypted.length < 2 ^ 32
  tag : parts.tag.length = tagLength
  hw : parseSetData limit ⟨true, true⟩ (parts.hw.bytes ++ parts.sw.bytes) =
    .ok (parts.hw, parts.sw.bytes)
  sw : parseSetData limit ⟨true, true⟩ parts.sw.bytes = .ok (parts.sw, [])

theorem BlobParts.RoundTrips.versioned {parts : BlobParts} {limit : Limit w} (trips : parts.RoundTrips limit) :
    deserializeVersioned limit .full parts.bytes = .ok (parts, []) := by
  obtain ⟨nonce, encrypted, tag, hw, sw⟩ := trips
  unfold BlobParts.bytes BlobParts.with deserializeVersioned
  dsimp only [BlobMemory.full]
  rw [if_neg (not_not_intro rfl), parseSizeAndData_encode (by rw [nonce]; decide)]
  dsimp only
  rw [if_neg (not_not_intro nonce), parseSizeAndData_encode encrypted]
  dsimp only
  rw [parseSizeAndData_encode (by rw [tag]; decide)]
  dsimp only
  rw [if_neg (not_not_intro tag), hw]
  dsimp only
  rw [sw]

/-- What the first attempt has left in the buffers is in front of nonce and tag. -/
theorem BlobParts.RoundTrips.unversioned {parts : BlobParts} {limit : Limit w}
    (trips : parts.RoundTrips limit) (remains : Remains) :
    deserializeUnversioned limit .full true remains parts.unversioned =
      .ok { parts with nonce := remains.nonce ++ parts.nonce, tag := remains.tag ++ parts.tag } := by
  obtain ⟨nonce, encrypted, tag, hw, sw⟩ := trips
  unfold BlobParts.unversioned deserializeUnversioned
  simp [BlobMemory.full, parseBytes_append nonce, parseSizeAndData_encode encrypted,
    parseBytes_append tag, hw, sw, bind, Except.bind, pure, Except.pure]

/-- The unversioned blob begins like the version, a length and as many bytes, of which there are some. -/
def BlobParts.Misleading (parts : BlobParts) : Prop :=
  ∃ data rest, data ≠ [] ∧ data.length < 2 ^ 32 ∧ parts.unversioned = 0 :: (encode 4 data.length ++ (data ++ rest))

theorem remains_empty_iff {version : UInt8} {content : List UInt8} {remains : Remains}
    (failed : deserializeVersioned limit .full (version :: content) = .error remains) :
    remains = ⟨[], []⟩ ↔
      ¬(version = 0 ∧ ∃ data rest, data ≠ [] ∧ parseSizeAndData true content = .ok (data, rest)) := by
  unfold deserializeVersioned at failed
  dsimp only [BlobMemory.full] at failed
  split at failed
  next other =>
    cases failed
    exact iff_of_true rfl fun both => other both.1
  next zero =>
  cases read : parseSizeAndData true content with
  | error error =>
    rw [read] at failed
    cases failed
    exact iff_of_true rfl fun ⟨_, _, _, _, again⟩ => nomatch again
  | ok found =>
  obtain ⟨data, rest⟩ := found
  rw [read] at failed
  have kept : remains.nonce = data := by
    dsimp only at failed
    repeat' split at failed
    all_goals cases failed
    all_goals rfl
  by_cases empty : data = []
  · subst empty
    cases failed
    exact iff_of_true rfl fun ⟨_, _, _, any, again⟩ => any (by cases again; rfl)
  · exact iff_of_false (fun same => empty (kept.symm.trans (congrArg Remains.nonce same)))
      (not_not_intro ⟨not_not.mp zero, data, rest, empty, rfl⟩)

theorem old_blobs_readable_iff {parts : BlobParts} {steps : ParseSteps w} (trips : parts.RoundTrips steps.limit)
    (first : steps.versioned = .full) (second : steps.unversioned = .full) (reserved : steps.reserved = true) :
    (∃ blob, serializeAuthEncryptedBlob parts true = .ok blob ∧ deserializeAuthEncryptedBlob steps blob = .ok parts) ∧
    ∀ remains, deserializeVersioned steps.limit .full parts.unversioned = .error remains →
      (deserializeAuthEncryptedBlob steps parts.unversioned = .ok parts ↔ ¬parts.Misleading) := by
  refine ⟨⟨parts.bytes, ?_, ?_⟩, fun remains failed => ?_⟩
  · unfold serializeAuthEncryptedBlob
    rw [parts.write_eq, if_neg (not_not_intro rfl)]
    rfl
  · unfold deserializeAuthEncryptedBlob
    rw [if_neg (fun empty => nomatch empty), first, trips.versioned]
  have unversioned := trips.unversioned remains
  unfold deserializeAuthEncryptedBlob BlobParts.Misleading
  rw [first, second, reserved, failed]
  cases blobIs : parts.unversioned with
  | nil =>
    have none := congrArg length (append_eq_nil_iff.mp blobIs).1
    rw [trips.nonce] at none
    nomatch none
  | cons version content =>
  rw [blobIs] at failed unversioned
  rw [if_neg (fun empty => nomatch empty)]
  dsimp only
  rw [unversioned]
  have shape : (remains = ⟨[], []⟩) ↔
      (.ok { parts with nonce := remains.nonce ++ parts.nonce, tag := remains.tag ++ parts.tag } :
        Except KeymasterError BlobParts) = .ok parts := by
    constructor
    · rintro rfl
      rfl
    · intro same
      obtain ⟨nonce, tag⟩ := remains
      have same := Except.ok.inj same
      obtain rfl := append_left_eq_self.mp (congrArg BlobParts.nonce same)
      obtain rfl := append_left_eq_self.mp (congrArg BlobParts.tag same)
      rfl
  rw [← shape, remains_empty_iff failed, not_iff_not]
  constructor
  · rintro ⟨rfl, data, rest, some, read⟩
    obtain ⟨whole, small⟩ := parseSizeAndData_inv read
    exact ⟨data, rest, some, small, congrArg (0 :: ·) whole⟩
  · rintro ⟨data, rest, some, small, same⟩
    obtain ⟨rfl, rfl⟩ := cons.inj same
    exact ⟨rfl, data, rest, some, parseSizeAndData_encode small rest⟩

def oldParts (start : UInt8) : BlobParts :=
  ⟨[start, 1, 0, 0, 0, 1, 1, 1, 1, 1, 1, 1], [7], .replicate tagLength 0, ⟨[], []⟩, ⟨[], []⟩⟩

theorem old_blob_read : deserializeAuthEncryptedBlob workingSteps (oldParts 1).unversioned = .ok (oldParts 1) :=
  ((old_blobs_readable_iff ⟨rfl, by decide, rfl, rfl, rfl⟩ rfl rfl rfl).2 _ rfl).mpr fun ⟨_, _, _, _, same⟩ => absurd (cons.inj same).1 (by decide)

/-- A nonce that begins like a version and the length one gets its sixth byte in front. -/
theorem old_blob_misread : (oldParts 0).RoundTrips workingSteps.limit ∧
    (∃ remains, deserializeVersioned workingSteps.limit .full (oldParts 0).unversioned = .error remains) ∧
    deserializeAuthEncryptedBlob workingSteps (oldParts 0).unversioned =
      .ok { oldParts 0 with nonce := 1 :: (oldParts 0).nonce } :=
  ⟨⟨rfl, by decide, rfl, rfl, rfl⟩, ⟨_, rfl⟩, rfl⟩

end Trusty.Keymaster
