import Trusty.Keymaster.SetDataProperties

/-!
What a key blob is bound to.
-/

namespace Trusty.Keymaster

open List Option

open SetData (bytes_reread ofParams_built ofParams_canon view_reread)

variable {Key : Type}

def BlobParts.with (parts : BlobParts) (sets : List UInt8) : List UInt8 :=
  0 :: (LittleEndian.encode 4 parts.nonce.length ++ (parts.nonce ++
    (LittleEndian.encode 4 parts.encrypted.length ++ (parts.encrypted ++
      (LittleEndian.encode 4 parts.tag.length ++ (parts.tag ++ sets))))))

/-- What `SerializeAuthEncryptedBlob` writes. -/
def BlobParts.bytes (parts : BlobParts) : List UInt8 := parts.with (parts.hw.bytes ++ parts.sw.bytes)

theorem Written.appendSizeAndData_fits {room : Nat} {written : Written} {data : List UInt8}
    (fits : written.position + (4 + data.length) ≤ room) :
    written.appendSizeAndData room data = ⟨written.position + (4 + data.length),
        written.bytes ++ (LittleEndian.encode 4 data.length ++ data)⟩ := by
  unfold Written.appendSizeAndData
  rw [Written.appendUint32_fits (by omega), Written.append_fits (by dsimp only; omega)]
  simp only [append_assoc, add_assoc]

theorem BlobParts.write_eq (parts : BlobParts) : parts.write = ⟨parts.size, parts.bytes⟩ := by
  unfold BlobParts.write BlobParts.bytes BlobParts.with
  dsimp only
  have size : parts.size = 1 + (4 + parts.nonce.length) + (4 + parts.encrypted.length) +
      (4 + parts.tag.length) + serializedSize parts.hw.indirect parts.hw.elems +
      serializedSize parts.sw.indirect parts.sw.elems := rfl
  rw [@Written.appendSizeAndData_fits _ ⟨1, [0]⟩ _ (by dsimp only; omega),
    @Written.appendSizeAndData_fits _ ⟨1 + (4 + parts.nonce.length), _⟩ _ (by dsimp only; omega),
    Written.appendSizeAndData_fits (by dsimp only; omega),
    @serialize_fits _ ⟨_, _⟩ parts.hw.indirect parts.hw.elems (by dsimp only; omega),
    serialize_fits (by dsimp only; omega)]
  simp only [append_assoc, cons_append, nil_append, SetData.bytes, size]

variable {parts : BlobParts} {blob : List UInt8}

theorem serializeAuthEncryptedBlob_ok {allocated : Bool}
    (written : serializeAuthEncryptedBlob parts allocated = .ok blob) : blob = parts.bytes := by
  unfold serializeAuthEncryptedBlob at written
  rw [parts.write_eq, if_neg (not_not_intro rfl)] at written
  split at written
  next => nomatch written
  next => exact (Except.ok.inj written).symm

section

variable {description hw sw : AuthList} {origin : UInt32}
  (made : setAuthorizations description origin = some (hw, sw))
include made

theorem setAuthorizations_tags : (∀ entry ∈ hw, entry.tag ∈ Tag.origin :: Tag.userAuthType :: hardwareTags) ∧
      ∀ entry ∈ sw, entry.tag ∈ Tag.userAuthType :: softwareTags := by
  unfold setAuthorizations at made
  split at made
  next => nomatch made
  next =>
  cases made
  constructor
  · intro entry member
    rcases mem_append.mp member with member | member
    · apply mem_cons_of_mem
      rcases Bool.or_eq_true_iff.mp (mem_filter.mp member).2 with listed | password
      · exact mem_cons_of_mem _ (contains_iff_mem.mp listed)
      · rw [eq_of_beq (Bool.and_eq_true_iff.mp password).1]
        exact mem_cons_self
    · rw [mem_singleton.mp member]
      exact mem_cons_self
  · intro entry member
    rcases Bool.or_eq_true_iff.mp (mem_filter.mp member).2 with listed | other
    · exact mem_cons_of_mem _ (contains_iff_mem.mp listed)
    · rw [eq_of_beq (Bool.and_eq_true_iff.mp other).1]
      exact mem_cons_self

theorem setAuthorizations_all {check : Tag → Bool}
    (listed : (Tag.origin :: Tag.userAuthType :: hardwareTags ++ softwareTags).all check = true) :
    (∀ entry ∈ hw, check entry.tag = true) ∧ ∀ entry ∈ sw, check entry.tag = true := by
  obtain ⟨hwTags, swTags⟩ := setAuthorizations_tags made
  refine ⟨fun entry member => all_eq_true.mp listed _ ?_, fun entry member => all_eq_true.mp listed _ ?_⟩
  · exact mem_append_left softwareTags (hwTags entry member)
  · rcases mem_cons.mp (swTags entry member) with auth | soft
    · rw [auth]
      exact mem_cons_of_mem _ mem_cons_self
    · exact mem_append_right (Tag.origin :: Tag.userAuthType :: hardwareTags) soft

end

theorem hidden_known (params : AuthList) :
    ∀ param ∈ buildHiddenAuthorizations params, (Tag.type param.tag).known = true := by
  intro param member
  rcases mem_append.mp member with member | member
  · rcases mem_append.mp member with member | member
    · obtain ⟨blob, _, same⟩ := map_eq_some_iff.mp (mem_toList.mp member)
      rw [← same]
      change (Tag.type Tag.applicationId).known = true
      decide
    · obtain ⟨blob, _, same⟩ := map_eq_some_iff.mp (mem_toList.mp member)
      rw [← same]
      change (Tag.type Tag.applicationData).known = true
      decide
  · rw [mem_singleton.mp member]
    decide

structure Prepared.From (call : CreateCall) (prepared : Prepared) (hw sw : AuthList) : Prop where
  authorizations : setAuthorizations call.description call.origin = some (hw, sw)
  hiddenIs : prepared.hidden = .ofParams (buildHiddenAuthorizations call.description)
  hwIs : prepared.hw = .ofParams hw
  swIs : prepared.sw = .ofParams sw
  nonceIs : prepared.nonce.length = nonceLength

variable {call : CreateCall} {prepared : Prepared}

theorem Prepared.From.canon {w : Nat} (wide : 32 ≤ w) {hw sw : AuthList} (from_ : prepared.From call hw sw)
    (small : prepared.hw.bytes.length + prepared.sw.bytes.length < 2 ^ 31) :
    prepared.hw.Canon w ∧ prepared.sw.Canon w := by
  obtain ⟨hwKnown, swKnown⟩ := @setAuthorizations_all _ _ _ _ from_.authorizations (fun tag => (Tag.type tag).known)
    (by decide +kernel)
  rw [from_.hwIs, from_.swIs] at small ⊢
  exact ⟨ofParams_canon hwKnown wide (by omega), ofParams_canon swKnown wide (by omega)⟩

theorem CreateCall.prepare_ok (made : call.prepare = .ok prepared) : ∃ hw sw, prepared.From call hw sw := by
  unfold CreateCall.prepare at made
  split at made
  next => nomatch made
  next hw sw authorizations =>
  obtain ⟨_, _, made⟩ := bind_ok made
  obtain ⟨_, _, made⟩ := bind_ok made
  obtain ⟨_, _, made⟩ := bind_ok made
  split at made
  next => nomatch made
  next =>
  split at made
  next => nomatch made
  next =>
  split at made
  next => nomatch made
  next nonce random =>
  cases made
  exact ⟨_, _, authorizations, rfl, rfl, rfl, call.steps.randomLength nonce random⟩

def BlobMemory.full : BlobMemory := ⟨true, true, true, ⟨true, true⟩, ⟨true, true⟩⟩

variable {w : Nat} {limit : Limit w}

theorem Fits.mono {length less : Nat} (fits : Fits limit length) (le : less ≤ length) : Fits limit less where
  small := lt_of_le_of_lt le fits.small
  below := le_trans le fits.below
  above := by
    have above := fits.above
    omega

theorem BlobParts.length_bytes (parts : BlobParts) :
    parts.bytes.length = 13 + parts.nonce.length + parts.encrypted.length + parts.tag.length +
      parts.hw.bytes.length + parts.sw.bytes.length := by
  unfold BlobParts.bytes BlobParts.with
  simp only [length_cons, length_append, LittleEndian.length_encode]
  omega

theorem deserializeVersioned_bytes {rest : List UInt8} (nonce : parts.nonce.length = nonceLength)
    (tag : parts.tag.length = tagLength) (hw : parts.hw.Canon w) (sw : parts.sw.Canon w)
    (fits : Fits limit (parts.bytes.length + rest.length)) :
    deserializeVersioned limit .full (parts.bytes ++ rest) =
      .ok ({ parts with hw := parts.hw.reread, sw := parts.sw.reread }, rest) := by
  have length := parts.length_bytes
  have small := fits.small
  unfold BlobParts.bytes BlobParts.with
  simp only [cons_append, append_assoc]
  unfold deserializeVersioned
  dsimp only [BlobMemory.full]
  rw [if_neg (not_not_intro rfl), parseSizeAndData_encode (by omega)]
  dsimp only
  rw [if_neg (not_not_intro nonce), parseSizeAndData_encode (by omega)]
  dsimp only
  rw [parseSizeAndData_encode (by omega)]
  dsimp only
  rw [if_neg (not_not_intro tag), hw.parse (fits.mono (by rw [length_append]; omega))]
  dsimp only
  rw [sw.parse (fits.mono (by omega))]

theorem deserializeVersioned_untagged (nonce : parts.nonce.length = nonceLength)
    (tag : parts.tag = []) (small : parts.bytes.length < 2 ^ 31) :
    deserializeVersioned limit .full parts.bytes = .error ⟨parts.nonce, []⟩ := by
  have length := parts.length_bytes
  unfold BlobParts.bytes BlobParts.with
  unfold deserializeVersioned
  dsimp only [BlobMemory.full]
  rw [if_neg (not_not_intro rfl), parseSizeAndData_encode (by omega)]
  dsimp only
  rw [if_neg (not_not_intro nonce), parseSizeAndData_encode (by omega)]
  dsimp only
  rw [parseSizeAndData_encode (by omega)]
  dsimp only
  rw [tag, if_pos (by decide)]

def SetsRead (limit : Limit w) (parts : BlobParts) (content rest : List UInt8) : Prop :=
  ∃ first second behind, parseSetData limit first content = .ok (parts.hw, behind) ∧
    parseSetData limit second behind = .ok (parts.sw, rest)

theorem deserializeUnversioned_ok {memory : BlobMemory} {reserved : Bool} {remains : Remains} {content : List UInt8}
    (read : deserializeUnversioned limit memory reserved remains content = .ok parts) :
    parts.nonce.length = remains.nonce.length + nonceLength ∧ ∃ behind rest, SetsRead limit parts behind rest := by
  unfold deserializeUnversioned at read
  split at read
  next => nomatch read
  next =>
  dsimp only at read
  split at read
  next => nomatch read
  next found all =>
  cases read
  obtain ⟨⟨nonce, second⟩, first, all⟩ := bind_ok all
  obtain ⟨⟨encrypted, third⟩, _, all⟩ := bind_ok all
  obtain ⟨⟨tag, fourth⟩, _, all⟩ := bind_ok all
  obtain ⟨⟨hw, fifth⟩, hwRead, all⟩ := bind_ok all
  obtain ⟨⟨sw, rest⟩, swRead, all⟩ := bind_ok all
  cases all
  refine ⟨?_, fourth, rest, memory.hw, memory.sw, fifth, hwRead, swRead⟩
  rw [length_append, (parseBytes_inv first).2]

theorem deserializeVersioned_ok {memory : BlobMemory} {blob rest : List UInt8}
    (read : deserializeVersioned limit memory blob = .ok (parts, rest)) :
    parts.nonce.length = nonceLength ∧ parts.tag.length = tagLength ∧
      ∃ content, SetsRead limit parts content rest ∧ blob = parts.with content := by
  unfold deserializeVersioned at read
  split at read
  next => nomatch read
  next version content =>
  split at read
  next => nomatch read
  next zero =>
  split at read
  next => nomatch read
  next nonce second first =>
  split at read
  next => nomatch read
  next nonceIs =>
  split at read
  next => nomatch read
  next encrypted third middle =>
  split at read
  next => nomatch read
  next tag fourth last =>
  split at read
  next => nomatch read
  next tagIs =>
  split at read
  next => nomatch read
  next hw fifth hwRead =>
  split at read
  next => nomatch read
  next sw behind swRead =>
  cases read
  refine ⟨not_not.mp nonceIs, not_not.mp tagIs, fourth, ⟨memory.hw, memory.sw, fifth, hwRead, swRead⟩, ?_⟩
  rw [not_not.mp zero, (parseSizeAndData_inv first).1, (parseSizeAndData_inv middle).1, (parseSizeAndData_inv last).1]
  rfl

variable {steps : ParseSteps w}

theorem deserializeAuthEncryptedBlob_ok (read : deserializeAuthEncryptedBlob steps blob = .ok parts) :
    ∃ content rest, SetsRead steps.limit parts content rest := by
  unfold deserializeAuthEncryptedBlob at read
  split at read
  next => nomatch read
  next =>
  split at read
  next found rest versioned =>
    cases read
    obtain ⟨_, _, content, sets, _⟩ := deserializeVersioned_ok versioned
    exact ⟨content, rest, sets⟩
  next => exact (deserializeUnversioned_ok read).2

theorem SetsRead.canon {content rest : List UInt8} (sets : SetsRead limit parts content rest) :
    (parts.hw.Canon w ∧ parts.hw.reread = parts.hw) ∧ parts.sw.Canon w ∧ parts.sw.reread = parts.sw := by
  obtain ⟨_, _, _, hwRead, swRead⟩ := sets
  obtain ⟨hw, hwSame, _⟩ := parseSetData_canon hwRead
  obtain ⟨sw, swSame, _⟩ := parseSetData_canon swRead
  exact ⟨⟨hw, hwSame⟩, sw, swSame⟩

section

variable [DecidableEq Key] {cipher : WrapCipher Key}

theorem WrapCipher.decrypt_some {sealings : List (Sealing Key)} {key : Key} {nonce encrypted tag plain : List UInt8}
    (opened : cipher.decrypt sealings key nonce encrypted tag = some plain) : ⟨key, nonce, plain⟩ ∈ sealings := by
  obtain ⟨found, first, same⟩ := map_eq_some_iff.mp opened
  have fitting := find?_some first
  obtain ⟨keys, nonces, _⟩ := of_decide_eq_true fitting
  have member := mem_of_find?_eq_some first
  cases found
  cases keys
  cases nonces
  cases same
  exact member

theorem WrapCipher.decrypt_encrypt {sealings : List (Sealing Key)} {key : Key}
    {nonce plain : List UInt8} (member : ⟨key, nonce, plain⟩ ∈ sealings) :
    cipher.decrypt sealings key nonce (cipher.encrypt key nonce plain).1
      (cipher.encrypt key nonce plain).2 = some plain := by
  unfold WrapCipher.decrypt
  cases first : sealings.find? fun sealing =>
      decide (sealing.key = key ∧ sealing.nonce = nonce ∧ cipher.encrypt key nonce sealing.plain =
        ((cipher.encrypt key nonce plain).1, (cipher.encrypt key nonce plain).2)) with
  | none =>
    have never := find?_eq_none.mp first _ member
    exact absurd (decide_eq_true ⟨rfl, rfl, rfl⟩) never
  | some found =>
  have fitting := find?_some first
  obtain ⟨_, _, same⟩ := of_decide_eq_true fitting
  exact congrArg some (cipher.distinct key nonce same)

omit [DecidableEq Key] in
theorem CreateCall.sealing_some {sealing : Sealing Key} (made : call.sealing cipher = some sealing) :
    ∃ prepared, call.prepare = .ok prepared ∧ call.steps.encrypts = true ∧
      sealing = ⟨prepared.key cipher, prepared.nonce, call.material⟩ := by
  unfold CreateCall.sealing at made
  split at made
  next => nomatch made
  next prepared ready =>
  split at made
  next encrypts => exact ⟨prepared, ready, encrypts, (Option.some.inj made).symm⟩
  next => nomatch made

variable {history : List CreateCall} {params : AuthList}

theorem parseKeyBlob_ok {material : List UInt8}
    (parsed : parseKeyBlob cipher history steps blob params = .ok (material, parts)) :
    deserializeAuthEncryptedBlob steps blob = .ok parts ∧ parts.nonce.length = nonceLength ∧
      parts.tag.length = tagLength ∧ cipher.decrypt (history.filterMap (·.sealing cipher))
        (cipher.derive (derivationData (.ofParams (buildHiddenAuthorizations params)) parts.hw
          parts.sw)) parts.nonce parts.encrypted parts.tag = some material := by
  obtain ⟨found, read, parsed⟩ := bind_ok parsed
  split at parsed
  next => nomatch parsed
  next lengths =>
  split at parsed
  next => nomatch parsed
  next =>
  obtain ⟨_, _, parsed⟩ := bind_ok parsed
  obtain ⟨key, opened, parsed⟩ := bind_ok parsed
  cases parsed
  refine ⟨read, not_not.mp (not_or.mp lengths).1, not_not.mp (not_or.mp lengths).2, ?_⟩
  unfold ocbDecryptKey at opened
  split at opened
  next => nomatch opened
  next =>
  split at opened
  next => nomatch opened
  next =>
  split at opened
  next => nomatch opened
  next plain some =>
  cases opened
  exact some

/-- The same application identifier and data, as far as `GetTagValue` finds them. -/
structure SameApplication (params description : AuthList) : Prop where
  id : params.blobOf Tag.applicationId = description.blobOf Tag.applicationId
  data : params.blobOf Tag.applicationData = description.blobOf Tag.applicationData

theorem SameApplication.hidden {params description : AuthList} (same : SameApplication params description) :
    buildHiddenAuthorizations params = buildHiddenAuthorizations description := by
  unfold buildHiddenAuthorizations
  rw [same.id, same.data]

theorem viewParam_bytes {tag : Tag} (kind : Tag.type tag = .bytes) (blob : List UInt8) :
    AuthSet.viewParam (KeyParam.bytes tag blob) = (tag, .blob blob) := by
  simp only [AuthSet.viewParam, AuthSet.value, KeyParam.bytes, kind, id]

theorem lookup_hidden (params : AuthList) :
    (List.map AuthSet.viewParam (buildHiddenAuthorizations params)).lookup Tag.applicationId =
        (params.blobOf Tag.applicationId).map AuthSet.Value.blob ∧
      (List.map AuthSet.viewParam (buildHiddenAuthorizations params)).lookup Tag.applicationData =
        (params.blobOf Tag.applicationData).map AuthSet.Value.blob := by
  have id := @viewParam_bytes Tag.applicationId (by decide)
  have data := @viewParam_bytes Tag.applicationData (by decide)
  unfold buildHiddenAuthorizations
  cases params.blobOf Tag.applicationId with
  | none =>
    cases params.blobOf Tag.applicationData with
    | none => exact ⟨rfl, rfl⟩
    | some blob =>
    change List.lookup _ (AuthSet.viewParam (.bytes Tag.applicationData blob) :: _) = _ ∧
      List.lookup _ (AuthSet.viewParam (.bytes Tag.applicationData blob) :: _) = _
    rw [data]
    exact ⟨rfl, rfl⟩
  | some name =>
  cases params.blobOf Tag.applicationData with
  | none =>
    change List.lookup _ (AuthSet.viewParam (.bytes Tag.applicationId name) :: _) = _ ∧
      List.lookup _ (AuthSet.viewParam (.bytes Tag.applicationId name) :: _) = _
    rw [id]
    exact ⟨rfl, rfl⟩
  | some blob =>
  change List.lookup _ (AuthSet.viewParam (.bytes Tag.applicationId name) ::
      AuthSet.viewParam (.bytes Tag.applicationData blob) :: _) = _ ∧
    List.lookup _ (AuthSet.viewParam (.bytes Tag.applicationId name) ::
      AuthSet.viewParam (.bytes Tag.applicationData blob) :: _) = _
  rw [id, data]
  exact ⟨rfl, rfl⟩

theorem sameApplication_of_view {params description : AuthList}
    (same : (SetData.ofParams (buildHiddenAuthorizations params)).view =
      (SetData.ofParams (buildHiddenAuthorizations description)).view) : SameApplication params description := by
  rw [(ofParams_built _).2, (ofParams_built _).2] at same
  have blobs : Function.Injective AuthSet.Value.blob := fun _ _ => AuthSet.Value.blob.inj
  obtain ⟨id, data⟩ := lookup_hidden params
  rw [same] at id data
  obtain ⟨id', data'⟩ := lookup_hidden description
  exact ⟨map_injective blobs (id.symm.trans id'), map_injective blobs (data.symm.trans data')⟩

/-- Nothing fails in a call of `ParseKeyBlob`, up to the decryption. -/
structure ParseSteps.Succeed (steps : ParseSteps w) : Prop where
  memory : steps.versioned = .full
  masterKey : steps.masterKey = true
  hiddenValid : steps.hiddenValid = .ok
  context : steps.context = true
  material : steps.material = true

theorem parseKeyBlob_of_read (succeed : steps.Succeed) {material : List UInt8}
    (read : deserializeAuthEncryptedBlob steps blob = .ok parts) (nonce : parts.nonce.length = nonceLength)
    (tag : parts.tag.length = tagLength) (opened : cipher.decrypt (history.filterMap (·.sealing cipher))
      (cipher.derive (derivationData (.ofParams (buildHiddenAuthorizations params)) parts.hw
        parts.sw)) parts.nonce parts.encrypted parts.tag = some material) :
    parseKeyBlob cipher history steps blob params = .ok (material, parts) := by
  obtain ⟨_, masterKey, hiddenValid, context, allocated⟩ := succeed
  unfold parseKeyBlob
  rw [read]
  dsimp only [bind, Except.bind]
  rw [if_neg (not_or.mpr ⟨not_not_intro nonce, not_not_intro tag⟩), masterKey, hiddenValid]
  unfold ocbDecryptKey
  rw [context, allocated, opened]
  rfl

omit [DecidableEq Key] in
theorem CreateCall.parts_encrypted (cipher : WrapCipher Key)
    (encrypts : call.steps.encrypts = true) (prepared : Prepared) :
    call.parts cipher prepared = ⟨prepared.nonce, (cipher.encrypt (prepared.key cipher) prepared.nonce call.material).1,
        (cipher.encrypt (prepared.key cipher) prepared.nonce call.material).2, prepared.hw,
        prepared.sw⟩ :=
  if_pos encrypts

omit [DecidableEq Key] in
theorem CreateCall.parts_wellFormed (ready : call.prepare = .ok prepared) (encrypts : call.steps.encrypts = true)
    (fits : Fits limit (call.parts cipher prepared).bytes.length) :
    (call.parts cipher prepared).nonce.length = nonceLength ∧ (call.parts cipher prepared).tag.length = tagLength ∧
      (call.parts cipher prepared).hw.Canon w ∧ (call.parts cipher prepared).sw.Canon w := by
  obtain ⟨hw, sw, from_⟩ := CreateCall.prepare_ok ready
  have length := (call.parts cipher prepared).length_bytes
  have small := fits.small
  rw [CreateCall.parts_encrypted cipher encrypts] at length small ⊢
  dsimp only at length
  exact ⟨from_.nonceIs, cipher.tagIs .., from_.canon limit.wide (by omega)⟩

theorem parseKeyBlob_created (member : call ∈ history) (ready : call.prepare = .ok prepared)
    (encrypts : call.steps.encrypts = true) (succeed : steps.Succeed)
    (fits : Fits steps.limit (call.parts cipher prepared).bytes.length)
    (same : SameApplication params call.description) :
    parseKeyBlob cipher history steps (call.parts cipher prepared).bytes params =
      .ok (call.material, { call.parts cipher prepared with
        hw := prepared.hw.reread, sw := prepared.sw.reread }) := by
  obtain ⟨hw, sw, from_⟩ := CreateCall.prepare_ok ready
  obtain ⟨nonce, tag, hwCanon, swCanon⟩ := CreateCall.parts_wellFormed ready encrypts fits
  have versioned := @deserializeVersioned_bytes (call.parts cipher prepared) w steps.limit [] nonce
    tag hwCanon swCanon fits
  rw [append_nil] at versioned
  rw [CreateCall.parts_encrypted cipher encrypts] at versioned nonce tag ⊢
  apply parseKeyBlob_of_read succeed
  · unfold deserializeAuthEncryptedBlob
    rw [if_neg (fun empty => nomatch empty), succeed.memory, versioned]
  · exact nonce
  · exact tag
  have sealed : call.sealing cipher = some ⟨prepared.key cipher, prepared.nonce, call.material⟩ := by
    unfold CreateCall.sealing
    rw [ready]
    exact if_pos encrypts
  have derived : derivationData (.ofParams (buildHiddenAuthorizations params)) prepared.hw.reread
      prepared.sw.reread = derivationData prepared.hidden prepared.hw prepared.sw := by
    unfold derivationData
    rw [bytes_reread, bytes_reread, same.hidden, from_.hiddenIs]
  rw [derived]
  exact WrapCipher.decrypt_encrypt (mem_filterMap.mpr ⟨call, member, sealed⟩)

theorem parseKeyBlob_untagged (ready : call.prepare = .ok prepared) (fails : call.steps.encrypts = false)
    (succeed : steps.Succeed) (small : (call.parts cipher prepared).bytes.length < 2 ^ 31) (params : AuthList)
    {result : List UInt8 × BlobParts} :
    parseKeyBlob cipher history steps (call.parts cipher prepared).bytes params ≠ .ok result := by
  intro parsed
  obtain ⟨hw, sw, from_⟩ := CreateCall.prepare_ok ready
  have shape : call.parts cipher prepared = ⟨prepared.nonce, call.steps.leftover, [], prepared.hw, prepared.sw⟩ := by
    unfold CreateCall.parts
    rw [fails]
    rfl
  rw [shape] at small parsed
  have versioned := @deserializeVersioned_untagged
    ⟨prepared.nonce, call.steps.leftover, [], prepared.hw, prepared.sw⟩ w steps.limit from_.nonceIs rfl small
  obtain ⟨read, nonce, _⟩ := parseKeyBlob_ok parsed
  unfold deserializeAuthEncryptedBlob at read
  rw [if_neg (fun empty => nomatch empty), succeed.memory, versioned] at read
  obtain ⟨longer, _⟩ := deserializeUnversioned_ok read
  have length := from_.nonceIs
  rw [nonce, length] at longer
  nomatch longer

theorem parseKeyBlob_bound (collisionFree : Function.Injective cipher.derive) {material : List UInt8}
    (parsed : parseKeyBlob cipher history steps blob params = .ok (material, parts))
    (small : (derivationData (.ofParams (buildHiddenAuthorizations params)) parts.hw parts.sw).length < 2 ^ 31) :
    ∃ call ∈ history, ∃ hw sw, setAuthorizations call.description call.origin = some (hw, sw) ∧
      call.steps.encrypts = true ∧ material = call.material ∧
      parts.hw.view = List.map AuthSet.viewParam hw ∧
      parts.sw.view = List.map AuthSet.viewParam sw ∧ SameApplication params call.description := by
  obtain ⟨read, _, _, opened⟩ := parseKeyBlob_ok parsed
  obtain ⟨call, member, made⟩ := mem_filterMap.mp (WrapCipher.decrypt_some opened)
  obtain ⟨prepared, ready, encrypts, same⟩ := CreateCall.sealing_some made
  obtain ⟨hw, sw, from_⟩ := CreateCall.prepare_ok ready
  obtain ⟨_, _, sets⟩ := deserializeAuthEncryptedBlob_ok read
  obtain ⟨⟨hwCanon, hwSame⟩, swCanon, swSame⟩ := sets.canon
  obtain ⟨keys, _, plains⟩ := Sealing.mk.inj same
  have derived := collisionFree keys
  have small' : (derivationData prepared.hidden prepared.hw prepared.sw).length < 2 ^ 31 := by
    rw [← derived]
    exact small
  unfold derivationData at derived small small'
  rw [length_append, length_append] at small small'
  have wide := steps.limit.wide
  have hiddenCanon := ofParams_canon (hidden_known params) wide (by omega)
  have hiddenCanon' : prepared.hidden.Canon w := by
    rw [from_.hiddenIs]
    exact ofParams_canon (hidden_known _) wide (by rw [← from_.hiddenIs]; omega)
  obtain ⟨hwCanon', swCanon'⟩ := from_.canon wide (by omega)
  obtain ⟨hiddens, derived⟩ := hiddenCanon.bytes_inj hiddenCanon' (by rw [length_append]; omega) derived
  obtain ⟨hws, derived⟩ := hwCanon.bytes_inj hwCanon' (by omega) derived
  have sws := (@SetData.Canon.bytes_inj _ _ _ swCanon swCanon' [] [] (by
    rw [length_nil]
    omega) (by rw [append_nil, append_nil, derived])).1
  refine ⟨call, member, hw, sw, from_.authorizations, encrypts, plains, ?_, ?_, ?_⟩
  · rw [← hwSame, hws, view_reread, from_.hwIs, (ofParams_built _).2]
  · rw [← swSame, sws, view_reread, from_.swIs, (ofParams_built _).2]
  · apply sameApplication_of_view
    rw [← from_.hiddenIs, ← view_reread, hiddens, view_reread]

omit [DecidableEq Key] in
theorem createKeyBlob_ok {hw sw : SetData} (created : createKeyBlob cipher call = .ok (blob, hw, sw)) :
    ∃ prepared, call.prepare = .ok prepared ∧ blob = (call.parts cipher prepared).bytes ∧
      hw = prepared.hw ∧ sw = prepared.sw := by
  obtain ⟨prepared, ready, created⟩ := bind_ok created
  obtain ⟨written, wrote, created⟩ := bind_ok created
  cases created
  exact ⟨prepared, ready, serializeAuthEncryptedBlob_ok wrote, rfl, rfl⟩

/-- A blob is read again, with the key and the lists of its call, if and only if the key was
encrypted; and whatever is read belongs to one call. -/
theorem keyBlobs_bound (cipher : WrapCipher Key) (collisionFree : Function.Injective cipher.derive)
    (history : List CreateCall) :
    (∀ call ∈ history, ∀ blob hw sw, createKeyBlob cipher call = .ok (blob, hw, sw) →
      ∀ (steps : ParseSteps w) (params : AuthList), steps.Succeed → Fits steps.limit blob.length →
        SameApplication params call.description →
        ((∃ parts, parseKeyBlob cipher history steps blob params = .ok (call.material, parts) ∧
          parts.hw.view = hw.view ∧ parts.sw.view = sw.view) ↔ call.steps.encrypts = true)) ∧
    (∀ (steps : ParseSteps w) (blob : List UInt8) (params : AuthList) (material : List UInt8)
      (parts : BlobParts), parseKeyBlob cipher history steps blob params = .ok (material, parts) →
      (derivationData (.ofParams (buildHiddenAuthorizations params)) parts.hw parts.sw).length < 2 ^ 31 →
      ∃ call ∈ history, ∃ hw sw, setAuthorizations call.description call.origin = some (hw, sw) ∧
        call.steps.encrypts = true ∧ material = call.material ∧
        parts.hw.view = List.map AuthSet.viewParam hw ∧
        parts.sw.view = List.map AuthSet.viewParam sw ∧
        SameApplication params call.description) := by
  constructor
  · intro call member blob hw sw created steps params succeed fits same
    obtain ⟨prepared, ready, blobIs, hwIs, swIs⟩ := createKeyBlob_ok created
    subst blobIs hwIs swIs
    constructor
    · intro ⟨parts, parsed, _⟩
      cases encrypts : call.steps.encrypts with
      | true => rfl
      | false => exact absurd parsed (parseKeyBlob_untagged ready encrypts succeed fits.small params)
    · intro encrypts
      exact ⟨_, parseKeyBlob_created member ready encrypts succeed fits same, view_reread _, view_reread _⟩
  · intro steps blob params material parts parsed small
    exact parseKeyBlob_bound collisionFree parsed small

end

def openCipher : WrapCipher (List UInt8) where
  derive := id
  encrypt _ _ plain := (plain, replicate tagLength 0)
  distinct _ _ _ _ same := (Prod.mk.inj same).1
  tagIs _ _ _ := rfl

def oneByteCall (encrypts : Bool) : CreateCall where
  description := []
  origin := 0
  material := [7]
  steps :=
    { swValid := .ok, hwValid := .ok, hiddenValid := .ok, masterKey := true, buffers := true
      random := some (replicate nonceLength 1)
      randomLength := fun _ same => (congrArg length (Option.some.inj same)).symm
      encrypts := encrypts, leftover := [0], blob := true }

def workingSteps : ParseSteps 32 :=
  ⟨⟨0x10000, [], .inl rfl⟩, .full, .full, true, true, .ok, true, true⟩

theorem workingSteps_succeed : workingSteps.Succeed := ⟨rfl, rfl, rfl, rfl, rfl⟩

def oneByteBlob (key : UInt8) (tag : List UInt8) : List UInt8 :=
  [0, 12, 0, 0, 0, 1, 1, 1, 1, 1, 1, 1, 1, 1, 1, 1, 1, 1, 0, 0, 0, key,
    .ofNat tag.length, 0, 0, 0] ++ tag ++
    [0, 0, 0, 0, 1, 0, 0, 0, 8, 0, 0, 0, 190, 2, 0, 16, 0, 0, 0, 0, 0, 0, 0, 0, 0, 0, 0, 0,
      0, 0, 0, 0]

/-- When `OcbEncryptKey` fails, `CreateKeyBlob` still returns a blob, which is refused. -/
theorem unsealed_blob_refused :
    (∃ hw sw, createKeyBlob openCipher (oneByteCall false) = .ok (oneByteBlob 0 [], hw, sw)) ∧
      parseKeyBlob openCipher [oneByteCall false] workingSteps (oneByteBlob 0 []) [] = .error .invalidKeyBlob :=
  ⟨⟨_, _, rfl⟩, rfl⟩

/-- A key of one byte is read again. -/
theorem one_byte_read_again : ∃ parts, parseKeyBlob openCipher [oneByteCall true] workingSteps
      (oneByteBlob 7 (replicate tagLength 0)) [] = .ok ([7], parts) := by
  obtain ⟨parts, parsed, _⟩ :=
    (((keyBlobs_bound openCipher (fun _ _ same => same) [oneByteCall true]).1 (oneByteCall true)
      mem_cons_self _ _ _ rfl workingSteps [] workingSteps_succeed
      ⟨by decide, by decide, by decide⟩ ⟨rfl, rfl⟩).mpr rfl)
  exact ⟨parts, parsed⟩

end Trusty.Keymaster
