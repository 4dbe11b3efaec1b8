import Trusty.Keymaster.Enforcement
import Trusty.Keymaster.EncodeProperties

/-!
# Key blobs

`CreateKeyBlob` and `ParseKeyBlob` of `trusty_keymaster_context.cpp`, with
`ocb_utils.cpp` and `auth_encrypted_key_blob.cpp`. Blobs are read from bytes that end at
`limit`. The ideal cipher and what can fail are parameters.
-/

namespace Trusty.Keymaster

structure SetData where
  indirect : List UInt8
  elems : List SetParam
  deriving DecidableEq, Repr

/-- What `Serialize` writes. -/
def SetData.bytes (set : SetData) : List UInt8 := encodeSet set.indirect set.elems

def SetData.view (set : SetData) : List (Tag × AuthSet.Value) :=
  set.elems.map fun param =>
    (param.tag, AuthSet.value (fun slice => (set.indirect.drop slice.offset).take slice.length) param)

/-- `push_back`, when it succeeds. -/
def SetData.place (set : SetData) (param : KeyParam) : SetData :=
  if param.tag.isBlob then
    ⟨set.indirect ++ param.blob,
      set.elems ++ [⟨param.tag, param.word, ⟨set.indirect.length, param.blob.length⟩⟩]⟩
  else ⟨set.indirect, set.elems ++ [⟨param.tag, param.word, ⟨0, 0⟩⟩]⟩

def SetData.ofParams (params : AuthList) : SetData := List.foldl SetData.place ⟨[], []⟩ params

/-- `TranslateAuthorizationSetError`. -/
def translateError : SetError → Except KeymasterError Unit
  | .ok => .ok ()
  | .allocationFailure => .error .memoryAllocationFailed
  | .malformedData => .error .unknownError

def refusedTags : List Tag :=
  [Tag.invalid, Tag.bootloaderOnly, Tag.nonce, Tag.authToken, Tag.macLength, Tag.associatedData,
    Tag.uniqueId]

def hardwareTags : List Tag :=
  [Tag.purpose, Tag.algorithm, Tag.keySize, Tag.rsaPublicExponent, Tag.blobUsageRequirements,
    Tag.digest, Tag.padding, Tag.blockMode, Tag.minSecondsBetweenOps, Tag.maxUsesPerBoot,
    Tag.userSecureId, Tag.noAuthRequired, Tag.authTimeout, Tag.callerNonce, Tag.minMacLength,
    Tag.kdf, Tag.ecCurve, Tag.eciesSingleHashMode]

def softwareTags : List Tag :=
  [Tag.activeDatetime, Tag.originationExpireDatetime, Tag.usageExpireDatetime, Tag.userId,
    Tag.allUsers, Tag.creationDatetime, Tag.includeUniqueId, Tag.exportable, Tag.osVersion,
    Tag.osPatchlevel]

def isHardware (entry : KeyParam) : Bool :=
  hardwareTags.contains entry.tag ||
    (entry.tag == Tag.userAuthType && entry.integer == hwAuthPassword)

def isSoftware (entry : KeyParam) : Bool :=
  softwareTags.contains entry.tag ||
    (entry.tag == Tag.userAuthType && entry.integer != hwAuthPassword)

/-- `SetAuthorizations`, up to the check of the sets. Tags that the `switch` does not name
are ignored. -/
def setAuthorizations (description : AuthList) (origin : UInt32) : Option (AuthList × AuthList) :=
  if List.any description fun entry => refusedTags.contains entry.tag then none
  else
    some (List.filter isHardware description ++ [.number Tag.origin origin.toUInt64],
      List.filter isSoftware description)

def unbound : List UInt8 := [0x55, 0x6e, 0x62, 0x6f, 0x75, 0x6e, 0x64]

/-- The first blob with a tag, as `GetTagValue` finds it. -/
def AuthList.blobOf (params : AuthList) (tag : Tag) : Option (List UInt8) :=
  (params.find tag).map (·.blob)

def buildHiddenAuthorizations (params : AuthList) : AuthList :=
  ((params.blobOf Tag.applicationId).map (KeyParam.bytes Tag.applicationId)).toList ++
    ((params.blobOf Tag.applicationData).map (KeyParam.bytes Tag.applicationData)).toList ++
    [KeyParam.bytes Tag.rootOfTrust unbound]

def nonceLength : Nat := 12

def tagLength : Nat := 16

/-- OCB, and the key that is derived from the hash of data with the master key. -/
structure WrapCipher (Key : Type) where
  derive : List UInt8 → Key
  encrypt : Key → List UInt8 → List UInt8 → List UInt8 × List UInt8
  distinct : ∀ key nonce, Function.Injective (encrypt key nonce)
  tagIs : ∀ key nonce plain, (encrypt key nonce plain).2.length = tagLength

structure Sealing (Key : Type) where
  key : Key
  nonce : List UInt8
  plain : List UInt8

def WrapCipher.decrypt {Key : Type} [DecidableEq Key] (cipher : WrapCipher Key)
    (sealings : List (Sealing Key)) (key : Key) (nonce encrypted tag : List UInt8) :
    Option (List UInt8) :=
  let found := sealings.find? fun sealing =>
    decide (sealing.key = key ∧ sealing.nonce = nonce ∧
      cipher.encrypt key nonce sealing.plain = (encrypted, tag))
  found.map (·.plain)

def derivationData (hidden hw sw : SetData) : List UInt8 := hidden.bytes ++ (hw.bytes ++ sw.bytes)

structure BlobParts where
  nonce : List UInt8
  encrypted : List UInt8
  tag : List UInt8
  hw : SetData
  sw : SetData
  deriving DecidableEq, Repr

def Written.appendSizeAndData (room : Nat) (data : List UInt8) (written : Written) : Written :=
  (written.appendUint32 room data.length).append room data

def BlobParts.size (parts : BlobParts) : Nat :=
  1 + (4 + parts.nonce.length) + (4 + parts.encrypted.length) + (4 + parts.tag.length) +
    serializedSize parts.hw.indirect parts.hw.elems +
    serializedSize parts.sw.indirect parts.sw.elems

/-- What is written behind the byte of `CURRENT_BLOB_VERSION`. -/
def BlobParts.write (parts : BlobParts) : Written :=
  let head := ((Written.mk 1 [0]).appendSizeAndData parts.size parts.nonce).appendSizeAndData
    parts.size parts.encrypted
  serialize parts.size parts.sw.indirect parts.sw.elems
    (serialize parts.size parts.hw.indirect parts.hw.elems
      (head.appendSizeAndData parts.size parts.tag))

def serializeAuthEncryptedBlob (parts : BlobParts) (allocated : Bool) :
    Except KeymasterError (List UInt8) :=
  if !allocated then .error .memoryAllocationFailed
  else if parts.write.position ≠ parts.size then .error .unknownError
  else .ok parts.write.bytes

/-- How the steps of `CreateKeyBlob` that can fail turn out. `leftover` is what is in
`encrypted_key` when `OcbEncryptKey` fails. -/
structure CreateSteps where
  swValid : SetError
  hwValid : SetError
  hiddenValid : SetError
  masterKey : Bool
  buffers : Bool
  random : Option (List UInt8)
  randomLength : ∀ nonce, random = some nonce → nonce.length = nonceLength
  encrypts : Bool
  leftover : List UInt8
  blob : Bool

structure CreateCall where
  description : AuthList
  origin : UInt32
  material : List UInt8
  steps : CreateSteps

/-- What `OcbEncryptKey` is called with. -/
structure Prepared where
  hidden : SetData
  hw : SetData
  sw : SetData
  nonce : List UInt8
  deriving DecidableEq, Repr

/-- `CreateKeyBlob` up to the call of `OcbEncryptKey`. -/
def CreateCall.prepare (call : CreateCall) : Except KeymasterError Prepared :=
  match setAuthorizations call.description call.origin with
  | none => .error .invalidKeyBlob
  | some (hw, sw) => do
      translateError call.steps.swValid
      translateError call.steps.hwValid
      translateError call.steps.hiddenValid
      if !call.steps.masterKey then .error .unknownError
      else if !call.steps.buffers then .error .memoryAllocationFailed
      else
        match call.steps.random with
        | none => .error .unknownError
        | some nonce =>
          .ok ⟨.ofParams (buildHiddenAuthorizations call.description), .ofParams hw, .ofParams sw,
            nonce⟩

variable {Key : Type} {w : Nat}

def Prepared.key (cipher : WrapCipher Key) (prepared : Prepared) : Key :=
  cipher.derive (derivationData prepared.hidden prepared.hw prepared.sw)

/-- The parts that are serialized. The result of `OcbEncryptKey` is not looked at: when it
has failed, the tag is empty. -/
def CreateCall.parts (cipher : WrapCipher Key) (call : CreateCall) (prepared : Prepared) :
    BlobParts :=
  let sealed := cipher.encrypt (prepared.key cipher) prepared.nonce call.material
  if call.steps.encrypts then ⟨prepared.nonce, sealed.1, sealed.2, prepared.hw, prepared.sw⟩
  else ⟨prepared.nonce, call.steps.leftover, [], prepared.hw, prepared.sw⟩

/-- `CreateKeyBlob`: the blob and the two sets. -/
def createKeyBlob (cipher : WrapCipher Key) (call : CreateCall) :
    Except KeymasterError (List UInt8 × SetData × SetData) := do
  let prepared ← call.prepare
  let blob ← serializeAuthEncryptedBlob (call.parts cipher prepared) call.steps.blob
  return (blob, prepared.hw, prepared.sw)

/-- What `OcbEncryptKey` has encrypted in a call. -/
def CreateCall.sealing (cipher : WrapCipher Key) (call : CreateCall) : Option (Sealing Key) :=
  match call.prepare with
  | .error _ => none
  | .ok prepared =>
    if call.steps.encrypts then some ⟨prepared.key cipher, prepared.nonce, call.material⟩
    else none

structure BlobMemory where
  nonce : Bool
  encrypted : Bool
  tag : Bool
  hw : Allocations
  sw : Allocations

/-- `AuthorizationSet::Deserialize`. -/
def parseSetData (limit : Limit w) (allocations : Allocations) (content : List UInt8) :
    Except Refusal (SetData × List UInt8) := do
  let ((indirect, _, elems), rest) ← parseSet (signedExceeds w) limit allocations content
  return (⟨indirect, elems⟩, rest)

structure Remains where
  nonce : List UInt8
  tag : List UInt8

/-- The condition of `DeserializeAuthEncryptedBlob`. -/
def deserializeVersioned (limit : Limit w) (memory : BlobMemory) :
    List UInt8 → Except Remains (BlobParts × List UInt8)
  | [] => .error ⟨[], []⟩
  | version :: content =>
    if version ≠ 0 then .error ⟨[], []⟩
    else
      match parseSizeAndData memory.nonce content with
      | .error _ => .error ⟨[], []⟩
      | .ok (nonce, content) =>
        if nonce.length ≠ nonceLength then .error ⟨nonce, []⟩
        else
          match parseSizeAndData memory.encrypted content with
          | .error _ => .error ⟨nonce, []⟩
          | .ok (encrypted, content) =>
            match parseSizeAndData memory.tag content with
            | .error _ => .error ⟨nonce, []⟩
            | .ok (tag, content) =>
              if tag.length ≠ tagLength then .error ⟨nonce, tag⟩
              else
                match parseSetData limit memory.hw content with
                | .error _ => .error ⟨nonce, tag⟩
                | .ok (hw, content) =>
                  match parseSetData limit memory.sw content with
                  | .error _ => .error ⟨nonce, tag⟩
                  | .ok (sw, rest) => .ok (⟨nonce, encrypted, tag, hw, sw⟩, rest)

/-- `DeserializeUnversionedBlob`. What is in the buffers stays in front. -/
def deserializeUnversioned (limit : Limit w) (memory : BlobMemory) (reserved : Bool)
    (remains : Remains) (content : List UInt8) : Except KeymasterError BlobParts :=
  if !reserved then .error .memoryAllocationFailed
  else
    let parts : Except Refusal BlobParts := do
      let (nonce, content) ← parseBytes nonceLength content
      let (encrypted, content) ← parseSizeAndData memory.encrypted content
      let (tag, content) ← parseBytes tagLength content
      let (hw, content) ← parseSetData limit memory.hw content
      let (sw, _) ← parseSetData limit memory.sw content
      return ⟨remains.nonce ++ nonce, encrypted, remains.tag ++ tag, hw, sw⟩
    match parts with
    | .error _ => .error .invalidKeyBlob
    | .ok parts => .ok parts

/-- How the steps of `ParseKeyBlob` that can fail turn out, and where the blob ends in
memory. -/
structure ParseSteps (w : Nat) where
  limit : Limit w
  versioned : BlobMemory
  unversioned : BlobMemory
  reserved : Bool
  masterKey : Bool
  hiddenValid : SetError
  context : Bool
  material : Bool

def deserializeAuthEncryptedBlob (steps : ParseSteps w) (blob : List UInt8) :
    Except KeymasterError BlobParts :=
  if blob = [] then .error .invalidKeyBlob
  else
    match deserializeVersioned steps.limit steps.versioned blob with
    | .ok (parts, _) => .ok parts
    | .error remains =>
      deserializeUnversioned steps.limit steps.unversioned steps.reserved remains blob

def ocbDecryptKey [DecidableEq Key] (cipher : WrapCipher Key) (sealings : List (Sealing Key))
    (steps : ParseSteps w) (hidden : SetData) (parts : BlobParts) : Except KeymasterError (List UInt8) :=
  if !steps.context then .error .memoryAllocationFailed
  else if !steps.material then .error .memoryAllocationFailed
  else
    match cipher.decrypt sealings (cipher.derive (derivationData hidden parts.hw parts.sw))
        parts.nonce parts.encrypted parts.tag with
    | none => .error .invalidKeyBlob
    | some material => .ok material

/-- `ParseKeyBlob` after the calls of a history: the key material, and what it was read from. -/
def parseKeyBlob [DecidableEq Key] (cipher : WrapCipher Key) (history : List CreateCall)
    (steps : ParseSteps w) (blob : List UInt8) (params : AuthList) :
    Except KeymasterError (List UInt8 × BlobParts) := do
  let parts ← deserializeAuthEncryptedBlob steps blob
  if parts.nonce.length ≠ nonceLength ∨ parts.tag.length ≠ tagLength then .error .invalidKeyBlob
  else if !steps.masterKey then .error .unknownError
  else do
    translateError steps.hiddenValid
    let material ← ocbDecryptKey cipher (history.filterMap (·.sealing cipher)) steps
      (.ofParams (buildHiddenAuthorizations params)) parts
    return (material, parts)

end Trusty.Keymaster
