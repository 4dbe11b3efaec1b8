import Trusty.Keymaster.Param

/-!
# Enforcement of authorizations

`keymaster_enforcement.cpp`: the tables of access times and counts, and the
checks before an operation begins or goes on.
-/

namespace Trusty.Keymaster

open LittleEndian (encode decode)

/-- `hw_auth_token_t`, with its numbers as they stand in memory. -/
structure AuthToken where
  version : UInt8
  challenge : UInt64
  userId : UInt64
  authenticatorId : UInt64
  authenticatorType : UInt32
  timestamp : UInt64
  hmac : List UInt8
  deriving DecidableEq, Repr

def hwAuthTokenVersion : UInt8 := 0

def hwAuthPassword : UInt32 := 1

def AuthToken.size : Nat := 69

def AuthToken.ofBytes (bytes : List UInt8) : AuthToken where
  version := bytes.headD 0
  challenge := .ofNat (decode ((bytes.drop 1).take 8))
  userId := .ofNat (decode ((bytes.drop 9).take 8))
  authenticatorId := .ofNat (decode ((bytes.drop 17).take 8))
  authenticatorType := .ofNat (decode ((bytes.drop 25).take 4))
  timestamp := .ofNat (decode ((bytes.drop 29).take 8))
  hmac := (bytes.drop 37).take 32

/-- `ntoh` on four bytes, and `hton` and `htonl`: the bytes in the other order. -/
def swap32 (value : UInt32) : UInt32 :=
  .ofNat (decode (encode 4 value.toNat).reverse)

/-- `ntoh` on eight bytes, and `htobe64`. -/
def swap64 (value : UInt64) : UInt64 :=
  .ofNat (decode (encode 8 value.toNat).reverse)

structure AccessTime where
  keyid : UInt64
  accessTime : UInt32
  timeout : UInt32
  deriving DecidableEq, Repr

structure AccessCount where
  keyid : UInt64
  accessCount : UInt64
  deriving DecidableEq, Repr

def lastKeyAccessTime (list : List AccessTime) (keyid : UInt64) : Option UInt32 :=
  (list.find? (·.keyid == keyid)).map (·.accessTime)

/-- The loop of `UpdateKeyAccessTime`: the list it leaves, and whether it found
the key. Entries behind the one of the key are not looked at. -/
def updateEntry (keyid : UInt64) (currentTime : UInt32) :
    List AccessTime → List AccessTime × Bool
  | [] => ([], false)
  | entry :: rest =>
    if entry.keyid = keyid then
      ({ entry with accessTime := currentTime } :: rest, true)
    else
      let (left, found) := updateEntry keyid currentTime rest
      if entry.timeout ≤ currentTime - entry.accessTime then (left, found)
      else (entry :: left, found)

def updateKeyAccessTime (maxSize : UInt32) (list : List AccessTime) (keyid : UInt64)
    (currentTime timeout : UInt32) : List AccessTime × Bool :=
  let (left, found) := updateEntry keyid currentTime list
  if found then (left, true)
  else if maxSize.toNat ≤ left.length then (left, false)
  else (⟨keyid, currentTime, timeout⟩ :: left, true)

/-- `AccessCountMap::KeyAccessCount`, which cuts the count off to 32 bits. -/
def keyAccessCount (list : List AccessCount) (keyid : UInt64) : Option UInt32 :=
  (list.find? (·.keyid == keyid)).map (·.accessCount.toUInt32)

/-- The loop of `IncrementKeyAccessCount`. -/
def incrementEntry (keyid : UInt64) : List AccessCount → Option (List AccessCount)
  | [] => none
  | entry :: rest =>
    if entry.keyid = keyid then
      if entry.accessCount < UInt64.ofNat (2 ^ 64 - 1) then
        some ({ entry with accessCount := entry.accessCount + 1 } :: rest)
      else
        some (entry :: rest)
    else
      (incrementEntry keyid rest).map (entry :: ·)

def incrementKeyAccessCount (maxSize : UInt32) (list : List AccessCount) (keyid : UInt64) :
    List AccessCount × Bool :=
  match incrementEntry keyid list with
  | some incremented => (incremented, true)
  | none =>
    if maxSize.toNat ≤ list.length then (list, false)
    else (⟨keyid, 1⟩ :: list, true)

/-- `KeymasterEnforcement`. A table is missing if its allocation failed. -/
structure Enforcement where
  maxAccessTimes : UInt32
  maxAccessCounts : UInt32
  accessTimeMap : Option (List AccessTime)
  accessCountMap : Option (List AccessCount)
  deriving DecidableEq, Repr

/-- What the virtual functions of `KeymasterEnforcement` answer during a call. -/
structure Policy where
  activationDateValid : UInt64 → Bool
  expirationDatePassed : UInt64 → Bool
  authTokenTimedOut : AuthToken → UInt32 → Bool
  validateTokenSignature : AuthToken → Bool
  currentTime : UInt32

/-- `MinTimeBetweenOpsPassed`. The difference is one of `int64_t`. -/
def Enforcement.minTimeBetweenOpsPassed (tables : Enforcement) (policy : Policy)
    (minTimeBetween : UInt32) (keyid : UInt64) : Bool :=
  match tables.accessTimeMap with
  | none => false
  | some list =>
    match lastKeyAccessTime list keyid with
    | none => true
    | some last => decide ((minTimeBetween.toNat : Int) ≤ policy.currentTime.toNat - last.toNat)

def Enforcement.maxUsesPerBootNotExceeded (tables : Enforcement) (keyid : UInt64)
    (maxUses : UInt32) : Bool :=
  match tables.accessCountMap with
  | none => false
  | some list =>
    match keyAccessCount list keyid with
    | none => true
    | some count => decide (count < maxUses)

def isPublicKeyAlgorithm (authSet : AuthList) : Bool :=
  match authSet.find Tag.algorithm with
  | none => false
  | some entry => entry.integer == algorithmRsa || entry.integer == algorithmEc

def authorizedPurpose (purpose : Purpose) (authSet : AuthList) : KeymasterError :=
  if purpose = .verify ∨ purpose = .encrypt ∨ purpose = .sign ∨ purpose = .decrypt then
    if authSet.containsEnumValue Tag.purpose purpose then .ok else .incompatiblePurpose
  else
    .unsupportedPurpose

def isOriginationPurpose (purpose : Purpose) : Bool :=
  purpose == Purpose.encrypt || purpose == Purpose.sign

def isUsagePurpose (purpose : Purpose) : Bool :=
  purpose == Purpose.decrypt || purpose == Purpose.verify

def AuthList.lastIndex (tag : Tag) : AuthList → Option Nat
  | [] => none
  | entry :: rest =>
    match AuthList.lastIndex tag rest with
    | some index => some (index + 1)
    | none => if entry.tag = tag then some 0 else none

/-- `AuthTokenMatches`, for the token of the request. -/
def tokenMatches (policy : Policy) (authSet : AuthList) (token : AuthToken)
    (userSecureId : UInt64) (authTypeIndex authTimeoutIndex : Option Nat) (opHandle : UInt64)
    (isBeginOperation : Bool) : Bool :=
  if token.version ≠ hwAuthTokenVersion then false
  else if !policy.validateTokenSignature token then false
  else if authTimeoutIndex = none ∧ opHandle ≠ 0 ∧ opHandle ≠ token.challenge then false
  else if userSecureId ≠ token.userId ∧ userSecureId ≠ token.authenticatorId then false
  else
    match authTypeIndex with
    | none => false
    | some typeIndex =>
      if (authSet.at typeIndex).tag ≠ Tag.userAuthType then false
      else if (authSet.at typeIndex).integer &&& swap32 token.authenticatorType = 0 then false
      else
        match authTimeoutIndex, isBeginOperation with
        | some timeoutIndex, true =>
          if (authSet.at timeoutIndex).tag ≠ Tag.authTimeout then false
          else !policy.authTokenTimedOut token (authSet.at timeoutIndex).integer
        | _, _ => true

def authTokenMatches (policy : Policy) (authSet operationParams : AuthList)
    (userSecureId : UInt64) (authTypeIndex authTimeoutIndex : Option Nat) (opHandle : UInt64)
    (isBeginOperation : Bool) : Bool :=
  match operationParams.find Tag.authToken with
  | none => false
  | some entry =>
    if entry.blob.length ≠ AuthToken.size then false
    else
      tokenMatches policy authSet (.ofBytes entry.blob) userSecureId authTypeIndex
        authTimeoutIndex opHandle isBeginOperation

/-- The first loop of `AuthorizeUpdateOrFinish` ends it at one of these. -/
def noFurtherAuth (authSet : AuthList) : Bool :=
  List.any authSet fun entry => entry.tag == Tag.noAuthRequired || entry.tag == Tag.authTimeout

def authorizeUpdateOrFinish (policy : Policy) (authSet operationParams : AuthList)
    (opHandle : UInt64) : KeymasterError :=
  if noFurtherAuth authSet then .ok
  else
    let authTypeIndex := AuthList.lastIndex Tag.userAuthType authSet
    let secureIds := List.filter (·.tag == Tag.userSecureId) authSet
    if secureIds.any fun entry =>
        authTokenMatches policy authSet operationParams entry.longInteger authTypeIndex none
          opHandle false then .ok
    else if authTypeIndex.isSome || !secureIds.isEmpty then .keyUserNotAuthenticated
    else .ok

/-- The local variables of the loop of `AuthorizeBegin`. -/
structure Scan where
  minOpsTimeout : UInt32
  updateAccessCount : Bool
  callerNonceAuthorizedByKey : Bool
  authenticationRequired : Bool
  authTokenMatched : Bool
  deriving DecidableEq, Repr

/-- `UINT32_MAX`, which stands for no limit. -/
def noTimeout : UInt32 := 0xFFFFFFFF

def Scan.start : Scan := ⟨noTimeout, false, false, false, false⟩

/-- What a call of `AuthorizeBegin` is about. -/
structure BeginCall where
  policy : Policy
  purpose : Purpose
  keyid : UInt64
  authSet : AuthList
  operationParams : AuthList

/-- The token of a request that begins an operation is checked against the last
`KM_TAG_AUTH_TIMEOUT`. -/
def BeginCall.tokenMatches (call : BeginCall) (userSecureId : UInt64) : Bool :=
  authTokenMatches call.policy call.authSet call.operationParams userSecureId
    (AuthList.lastIndex Tag.userAuthType call.authSet)
    (AuthList.lastIndex Tag.authTimeout call.authSet) 0 true

/-- One round of the loop of `AuthorizeBegin`. Tags without a case have nothing
to check. -/
def checkParam (tables : Enforcement) (call : BeginCall) (scan : Scan) (param : KeyParam) :
    Except KeymasterError Scan :=
  if param.tag = Tag.activeDatetime then
    if call.policy.activationDateValid param.longInteger then .ok scan
    else .error .keyNotYetValid
  else if param.tag = Tag.originationExpireDatetime then
    if isOriginationPurpose call.purpose && call.policy.expirationDatePassed param.longInteger then
      .error .keyExpired
    else .ok scan
  else if param.tag = Tag.usageExpireDatetime then
    if isUsagePurpose call.purpose && call.policy.expirationDatePassed param.longInteger then
      .error .keyExpired
    else .ok scan
  else if param.tag = Tag.minSecondsBetweenOps then
    if tables.minTimeBetweenOpsPassed call.policy param.integer call.keyid then
      .ok { scan with minOpsTimeout := param.integer }
    else .error .keyRateLimitExceeded
  else if param.tag = Tag.maxUsesPerBoot then
    if tables.maxUsesPerBootNotExceeded call.keyid param.integer then
      .ok { scan with updateAccessCount := true }
    else .error .keyMaxOpsExceeded
  else if param.tag = Tag.userSecureId then
    if (AuthList.lastIndex Tag.noAuthRequired call.authSet).isSome then .error .invalidKeyBlob
    else if (AuthList.lastIndex Tag.authTimeout call.authSet).isSome then
      .ok { scan with
        authenticationRequired := true
        authTokenMatched := scan.authTokenMatched || call.tokenMatches param.longInteger }
    else .ok scan
  else if param.tag = Tag.callerNonce then
    .ok { scan with callerNonceAuthorizedByKey := true }
  else if param.tag = Tag.invalid ∨ param.tag = Tag.authToken ∨ param.tag = Tag.rootOfTrust ∨
      param.tag = Tag.applicationData ∨ param.tag = Tag.bootloaderOnly then
    .error .invalidKeyBlob
  else .ok scan

/-- The loop of `AuthorizeBegin`. -/
def checkParams (tables : Enforcement) (call : BeginCall) :
    AuthList → Scan → Except KeymasterError Scan
  | [], scan => .ok scan
  | param :: rest, scan =>
    match checkParam tables call scan param with
    | .error error => .error error
    | .ok next => checkParams tables call rest next

/-- The update of the access time at the end of `AuthorizeBegin`. -/
def Enforcement.recordTime (tables : Enforcement) (call : BeginCall) (scan : Scan) :
    KeymasterError × Enforcement :=
  if scan.minOpsTimeout = noTimeout then (.ok, tables)
  else
    match tables.accessTimeMap with
    | none => (.memoryAllocationFailed, tables)
    | some list =>
      let (left, updated) := updateKeyAccessTime tables.maxAccessTimes list call.keyid
        call.policy.currentTime scan.minOpsTimeout
      (if updated then .ok else .tooManyOperations, { tables with accessTimeMap := some left })

def Enforcement.recordUse (tables : Enforcement) (call : BeginCall) (scan : Scan) :
    KeymasterError × Enforcement :=
  if !scan.updateAccessCount then (.ok, tables)
  else
    match tables.accessCountMap with
    | none => (.memoryAllocationFailed, tables)
    | some list =>
      let (left, updated) := incrementKeyAccessCount tables.maxAccessCounts list call.keyid
      (if updated then .ok else .tooManyOperations, { tables with accessCountMap := some left })

/-- `AuthorizeBegin` up to the point where it changes a table. -/
def Enforcement.check (tables : Enforcement) (call : BeginCall) : Except KeymasterError Scan :=
  match authorizedPurpose call.purpose call.authSet with
  | .ok =>
    match checkParams tables call call.authSet .start with
    | .error error => .error error
    | .ok scan =>
      if scan.authenticationRequired && !scan.authTokenMatched then
        .error .keyUserNotAuthenticated
      else if !scan.callerNonceAuthorizedByKey && isOriginationPurpose call.purpose &&
          (call.operationParams.find Tag.nonce).isSome then
        .error .callerNonceProhibited
      else .ok scan
  | error => .error error

def Enforcement.authorizeBegin (tables : Enforcement) (call : BeginCall) :
    KeymasterError × Enforcement :=
  match tables.check call with
  | .error error => (error, tables)
  | .ok scan =>
    match tables.recordTime call scan with
    | (.ok, timed) => timed.recordUse call scan
    | refused => refused

/-- The first part of `AuthorizeOperation`: a public-key operation needs no
authorization. -/
def exemptPurpose (purpose : Purpose) (authSet : AuthList) : Bool :=
  isPublicKeyAlgorithm authSet && (purpose == Purpose.encrypt || purpose == Purpose.verify)

/-- `AuthorizeOperation` for a request that begins an operation. -/
def Enforcement.authorizeOperationBegin (tables : Enforcement) (call : BeginCall) :
    KeymasterError × Enforcement :=
  if exemptPurpose call.purpose call.authSet then (.ok, tables) else tables.authorizeBegin call

/-- `AuthorizeOperation` for a request that goes on with an operation. -/
def authorizeOperation (policy : Policy) (purpose : Purpose) (authSet operationParams : AuthList)
    (opHandle : UInt64) : KeymasterError :=
  if exemptPurpose purpose authSet then .ok
  else authorizeUpdateOrFinish policy authSet operationParams opHandle

/-- `KeymasterEnforcement::KeymasterEnforcement`, where either allocation can
fail. -/
def Enforcement.create (maxAccessTimes maxAccessCounts : UInt32) (times counts : Bool) :
    Enforcement where
  maxAccessTimes := maxAccessTimes
  maxAccessCounts := maxAccessCounts
  accessTimeMap := if times then some [] else none
  accessCountMap := if counts then some [] else none

def Enforcement.answers (tables : Enforcement) : List BeginCall → List (BeginCall × KeymasterError)
  | [] => []
  | call :: rest =>
    (call, (tables.authorizeBegin call).1) :: (tables.authorizeBegin call).2.answers rest

end Trusty.Keymaster
