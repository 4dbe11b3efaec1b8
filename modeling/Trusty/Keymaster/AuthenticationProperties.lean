import Trusty.Keymaster.EnforcementProperties
import Trusty.Keymaster.Operation

/-!
Authorization over a whole operation: what an update or finish that is answered with
`KM_ERROR_OK` says about tokens, and what its key allowed when it began.
-/

namespace Trusty.Keymaster

open List

/-- A request carries a token that is signed, is for one of the secure ids of the
key, and is of a type that every `KM_TAG_USER_AUTH_TYPE` of the key allows. -/
def CarriesToken (policy : Policy) (key params : AuthList) (also : AuthToken → Prop) : Prop :=
  ∃ entry, params.find Tag.authToken = some entry ∧ entry.blob.length = AuthToken.size ∧
    (AuthToken.ofBytes entry.blob).version = hwAuthTokenVersion ∧
    policy.validateTokenSignature (.ofBytes entry.blob) = true ∧
    (∃ param ∈ key, param.tag = Tag.userSecureId ∧
      (param.longInteger = (AuthToken.ofBytes entry.blob).userId ∨
        param.longInteger = (AuthToken.ofBytes entry.blob).authenticatorId)) ∧
    (∃ param ∈ key, param.tag = Tag.userAuthType) ∧
    (∀ param ∈ key, param.tag = Tag.userAuthType →
      param.integer &&& swap32 (AuthToken.ofBytes entry.blob).authenticatorType ≠ 0) ∧
    also (.ofBytes entry.blob)

/-- The user is authenticated for a request that goes on with an operation. -/
def Authenticated (begin : BeginRequest) (key : AuthList) (request : GoOnRequest) : Prop :=
  ((∃ param ∈ key, param.tag = Tag.authTimeout) ∧
    CarriesToken begin.policy key begin.additionalParams fun token =>
      ∀ timeout ∈ key, timeout.tag = Tag.authTimeout →
        begin.policy.authTokenTimedOut token timeout.integer = false) ∨
  ((∀ param ∈ key, param.tag ≠ Tag.authTimeout) ∧
    CarriesToken request.policy key request.additionalParams fun token =>
      token.challenge = request.opHandle)

/-- No two entries of a key give different timeouts or different types of tokens.
`AuthTokenMatches` looks at the last entry only. -/
def Settled (key : AuthList) : Prop :=
  ∀ one ∈ key, ∀ other ∈ key, one.tag = other.tag →
    one.tag = Tag.authTimeout ∨ one.tag = Tag.userAuthType → one.integer = other.integer

theorem AuthList.lastIndex_none {tag : Tag} {set : AuthList} :
    AuthList.lastIndex tag set = none ↔ ∀ param ∈ set, param.tag ≠ tag := by
  induction set with
  | nil => simp [lastIndex]
  | cons param rest ih =>
  rw [lastIndex, forall_mem_cons, ← ih]
  cases AuthList.lastIndex tag rest with
  | some index => simp
  | none =>
  by_cases same : param.tag = tag
  · simp [same]
  · simp [same]

theorem AuthList.lastIndex_some {tag : Tag} {set : AuthList} {index : Nat}
    (found : AuthList.lastIndex tag set = some index) :
    AuthList.at set index ∈ set ∧ (AuthList.at set index).tag = tag := by
  induction set generalizing index with
  | nil => cases found
  | cons param rest ih =>
  rw [lastIndex] at found
  cases later : AuthList.lastIndex tag rest with
  | some behind =>
    rw [later] at found
    cases found
    obtain ⟨member, same⟩ := ih later
    have shifted : AuthList.at (param :: rest) (behind + 1) = AuthList.at rest behind := by
      simp only [AuthList.at, getElem?_cons_succ]
    exact ⟨mem_cons_of_mem _ member, same⟩
  | none =>
  rw [later] at found
  dsimp only at found
  split at found
  next same =>
    cases found
    exact ⟨mem_cons_self, same⟩
  · cases found

structure TokenChecked (policy : Policy) (authSet : AuthList) (token : AuthToken)
    (userSecureId : UInt64) (authTypeIndex authTimeoutIndex : Option Nat) (opHandle : UInt64)
    (isBeginOperation : Bool) : Prop where
  version : token.version = hwAuthTokenVersion
  signed : policy.validateTokenSignature token = true
  challenge : authTimeoutIndex = none → opHandle ≠ 0 → opHandle = token.challenge
  user : userSecureId = token.userId ∨ userSecureId = token.authenticatorId
  type : ∃ index, authTypeIndex = some index ∧ (authSet.at index).tag = Tag.userAuthType ∧
    (authSet.at index).integer &&& swap32 token.authenticatorType ≠ 0
  timeout : ∀ index, authTimeoutIndex = some index → isBeginOperation = true →
    (authSet.at index).tag = Tag.authTimeout ∧
      policy.authTokenTimedOut token (authSet.at index).integer = false

variable {policy : Policy} {authTimeoutIndex authTypeIndex : Option Nat} {opHandle userSecureId : UInt64}
  {isBeginOperation : Bool}

theorem tokenMatches_checked {authSet : AuthList} {token : AuthToken}
    (found : tokenMatches policy authSet token userSecureId authTypeIndex authTimeoutIndex opHandle
      isBeginOperation = true) :
    TokenChecked policy authSet token userSecureId authTypeIndex authTimeoutIndex opHandle
      isBeginOperation := by
  unfold tokenMatches at found
  split at found
  · cases found
  next version =>
    split at found
    · cases found
    next signed =>
      split at found
      · cases found
      next challenge =>
        split at found
        · cases found
        next user =>
          split at found
          · cases found
          next index =>
            split at found
            · cases found
            next typeTag =>
              split at found
              · cases found
              next type =>
                constructor
                · exact not_not.mp version
                · simpa using signed
                · intro none nonzero
                  by_contra other
                  exact challenge ⟨none, nonzero, other⟩
                · by_contra neither
                  exact user (not_or.mp neither)
                · exact ⟨index, rfl, not_not.mp typeTag, type⟩
                intro timeoutIndex present begins
                subst present begins
                dsimp only at found
                split at found
                · cases found
                next tag => exact ⟨not_not.mp tag, by simpa using found⟩

variable {params : AuthList}

theorem authTokenMatches_checked {authSet : AuthList}
    (found : authTokenMatches policy authSet params userSecureId authTypeIndex authTimeoutIndex
      opHandle isBeginOperation = true) :
    ∃ entry, params.find Tag.authToken = some entry ∧ entry.blob.length = AuthToken.size ∧
      TokenChecked policy authSet (.ofBytes entry.blob) userSecureId authTypeIndex
        authTimeoutIndex opHandle isBeginOperation := by
  unfold authTokenMatches at found
  split at found
  · cases found
  next entry present =>
    split at found
    · cases found
    next length => exact ⟨entry, present, not_not.mp length, tokenMatches_checked found⟩

theorem carriesToken_of_matches {key : AuthList} {param : KeyParam}
    {also : AuthToken → Prop} (settled : Settled key) (member : param ∈ key) (secure : param.tag = Tag.userSecureId)
    (found : authTokenMatches policy key params param.longInteger
      (AuthList.lastIndex Tag.userAuthType key) authTimeoutIndex opHandle isBeginOperation = true)
    (rest : ∀ token, TokenChecked policy key token param.longInteger
      (AuthList.lastIndex Tag.userAuthType key) authTimeoutIndex opHandle isBeginOperation →
        also token) :
    CarriesToken policy key params also := by
  obtain ⟨entry, present, length, checked⟩ := authTokenMatches_checked found
  obtain ⟨index, last, _, intersects⟩ := checked.type
  obtain ⟨inside, tag⟩ := AuthList.lastIndex_some last
  refine ⟨entry, present, length, checked.version, checked.signed,
    ⟨param, member, secure, checked.user⟩, ⟨_, inside, tag⟩, ?_, rest _ checked⟩
  intro other listed same
  rwa [settled other listed _ inside (same.trans tag.symm) (.inr same)]

variable {secure : KeyParam}

theorem begin_authenticated {tables : Enforcement} {call : BeginCall} (ok : (tables.authorizeBegin call).1 = .ok)
    (settled : Settled call.authSet) (member : secure ∈ call.authSet) (tag : secure.tag = Tag.userSecureId) :
    (∀ param ∈ call.authSet, param.tag ≠ Tag.noAuthRequired) ∧ ((∃ param ∈ call.authSet, param.tag = Tag.authTimeout) →
        CarriesToken call.policy call.authSet call.operationParams fun token =>
          ∀ timeout ∈ call.authSet, timeout.tag = Tag.authTimeout →
            call.policy.authTokenTimedOut token timeout.integer = false) := by
  have ended := authorizeBegin_end tables call
  generalize tables.authorizeBegin call = result at ok ended
  have checked : ∃ scan, tables.check call = .ok scan := by
    cases ended with
    | refused _ wrong => contradiction
    | untimed _ refused => contradiction
    | recorded checked _ => exact ⟨_, checked⟩
  obtain ⟨scan, passed⟩ := checked
  have known := check_ok passed
  refine ⟨AuthList.lastIndex_none.mp (known.params.authNeeded secure member tag), ?_⟩
  rintro ⟨limit, listed, timed⟩
  cases last : AuthList.lastIndex Tag.authTimeout call.authSet with
  | none => exact absurd timed (AuthList.lastIndex_none.mp last limit listed)
  | some index =>
  have required : scan.authenticationRequired = true := by
    rw [known.params.authenticationRequired, last, Bool.or_eq_true, Bool.and_eq_true, any_eq_true]
    exact .inr ⟨⟨secure, member, decide_eq_true tag⟩, rfl⟩
  rcases known.params.authTokenMatched (known.authenticated required) with start | found
  · cases start
  obtain ⟨param, inside, ofUser, accepted⟩ := found
  obtain ⟨position, same⟩ := AuthList.lastIndex_some last
  refine carriesToken_of_matches settled inside ofUser accepted ?_
  intro token token_checked timeout within also
  rw [settled timeout within _ position (also.trans same.symm) (.inl also)]
  exact (token_checked.timeout index last rfl).2

/-- What a check of a request that goes on means for a key with a secure id and
without `KM_TAG_NO_AUTH_REQUIRED`. -/
theorem goOn_authenticated {key : AuthList} (ok : authorizeUpdateOrFinish policy key params opHandle = .ok)
    (settled : Settled key) (nonzero : opHandle ≠ 0) (member : secure ∈ key) (tag : secure.tag = Tag.userSecureId)
    (needed : ∀ param ∈ key, param.tag ≠ Tag.noAuthRequired) :
    (∃ param ∈ key, param.tag = Tag.authTimeout) ∨ ((∀ param ∈ key, param.tag ≠ Tag.authTimeout) ∧
        CarriesToken policy key params fun token => token.challenge = opHandle) := by
  unfold authorizeUpdateOrFinish at ok
  split at ok
  next further =>
    left
    obtain ⟨param, inside, which⟩ := any_eq_true.mp further
    rw [Bool.or_eq_true, beq_iff_eq, beq_iff_eq] at which
    exact ⟨param, inside, which.resolve_left (needed param inside)⟩
  next further =>
  have noTimeout : ∀ param ∈ key, param.tag ≠ Tag.authTimeout := by
    intro param inside timed
    apply further
    exact any_eq_true.mpr ⟨param, inside, by simp [timed]⟩
  right
  refine ⟨noTimeout, ?_⟩
  dsimp only at ok
  split at ok
  next found =>
    obtain ⟨param, listed, accepted⟩ := any_eq_true.mp found
    obtain ⟨inside, ofUser⟩ := mem_filter.mp listed
    refine carriesToken_of_matches settled inside (beq_iff_eq.mp ofUser) accepted ?_
    intro token token_checked
    exact (token_checked.challenge rfl nonzero).symm
  · split at ok
    · cases ok
    next unneeded =>
    have listed : secure ∈ List.filter (·.tag == Tag.userSecureId) key := mem_filter.mpr ⟨member, beq_iff_eq.mpr tag⟩
    have nonempty : (List.filter (·.tag == Tag.userSecureId) key).isEmpty = false := by
      cases ids : List.filter (·.tag == Tag.userSecureId) key with
      | nil =>
        rw [ids] at listed
        cases listed
      | cons first others => rfl
    exact absurd (by rw [nonempty]; simp) unneeded

structure Begun (operation : Operation) : Prop where
  purpose : operation.purpose = operation.request.purpose
  authorizations : operation.request.copied = true → operation.authorizations = operation.key
  authorized : exemptPurpose operation.purpose operation.key = false →
    ∃ tables : Enforcement,
      (tables.authorizeBegin (operation.request.call operation.keyId operation.key)).1 = .ok

/-- Every operation in the table was begun by a request that `also` holds for. -/
def Device.AllBegun (also : BeginRequest → Prop) (device : Device) : Prop :=
  ∀ entries, device.table = some entries → ∀ entry ∈ entries, ∀ operation,
    entry.operation = some operation → Begun operation ∧ also operation.request

variable {also : BeginRequest → Prop} {device : Device}

theorem Device.AllBegun.delete (begun : device.AllBegun also) (handle : UInt64) :
    (device.delete handle).AllBegun also := by
  intro entries table
  obtain ⟨before, present, rfl⟩ := Option.map_eq_some_iff.mp table
  have known := begun before present
  clear table present
  induction before with
  | nil => exact fun entry member => (nomatch member)
  | cons head rest ih =>
  obtain ⟨first, others⟩ := forall_mem_cons.mp known
  rw [deleteEntry]
  split
  · refine forall_mem_cons.mpr ⟨?_, others⟩
    intro operation same
    exact absurd same (Option.some_ne_none operation).symm
  · exact forall_mem_cons.mpr ⟨first, ih others⟩

variable {operation : Operation}

theorem placeOperation_begun {handle : UInt64} {entries placed : List TableEntry}
    (placing : placeOperation handle operation entries = some placed)
    (known : ∀ entry ∈ entries, ∀ other, entry.operation = some other → Begun other ∧ also other.request)
    (new : Begun operation ∧ also operation.request) :
    ∀ entry ∈ placed, ∀ other, entry.operation = some other → Begun other ∧ also other.request := by
  induction entries generalizing placed with
  | nil => cases placing
  | cons head rest ih =>
  obtain ⟨first, others⟩ := forall_mem_cons.mp known
  rw [placeOperation] at placing
  split at placing
  · cases placing
    refine forall_mem_cons.mpr ⟨?_, others⟩
    intro other same
    cases same
    exact new
  · obtain ⟨tail, later, rfl⟩ := Option.map_eq_some_iff.mp placing
    exact forall_mem_cons.mpr ⟨first, ih later others⟩

section

variable (begun : device.AllBegun also)

include begun

theorem Device.AllBegun.add (new : Begun operation ∧ also operation.request) :
    (device.add operation).2.AllBegun also := by
  unfold Device.add
  split
  · exact begun
  next entries allocated =>
  have known : ∀ entry ∈ entries, ∀ other, entry.operation = some other → Begun other ∧ also other.request := by
    unfold Device.allocateTable at allocated
    split at allocated
    next present =>
      cases allocated
      exact begun _ present
    · split at allocated
      · cases allocated
        intro entry member other same
        rw [eq_of_mem_replicate member] at same
        cases same
      · cases allocated
  have keep : ({ device with table := some entries } : Device).AllBegun also := by
    intro after same
    cases same
    exact known
  split
  · exact keep
  split
  · exact keep
  split
  · exact keep
  next placed placing =>
  intro after same
  cases same
  exact placeOperation_begun placing known new

theorem Device.AllBegun.beginOperation {request : BeginRequest}
    (meets : also request) : (device.beginOperation request).2.AllBegun also := by
  unfold Device.beginOperation
  split
  · exact begun
  next hwEnforced swEnforced _ =>
  dsimp only
  split
  · exact begun
  split
  · exact begun
  split
  · exact begun
  split
  · exact begun
  next keyId _ =>
  have authorized : ∀ tables, device.enforcement.authorizeOperationBegin
          (request.call keyId (hwEnforced ++ swEnforced)) = (.ok, tables) →
        Begun (request.operation keyId (hwEnforced ++ swEnforced)) := by
    intro tables answered
    refine ⟨rfl, fun copied => if_pos copied, ?_⟩
    intro needed
    refine ⟨device.enforcement, ?_⟩
    unfold Enforcement.authorizeOperationBegin at answered
    have same : exemptPurpose (request.call keyId (hwEnforced ++ swEnforced)).purpose
        (request.call keyId (hwEnforced ++ swEnforced)).authSet = false := needed
    rw [same, if_neg nofun] at answered
    exact congrArg Prod.fst answered
  split
  next tables answered =>
    split
    · have later : ({ device with enforcement := tables } : Device).AllBegun also := begun
      exact later.add ⟨authorized tables answered, meets⟩
    · exact begun
  · exact begun

theorem Device.AllBegun.goOn (request : GoOnRequest) : (device.updateOperation request).2.AllBegun also ∧
      (device.finishOperation request).2.AllBegun also := by
  unfold Device.updateOperation Device.finishOperation
  cases device.find request.opHandle with
  | none => exact ⟨begun, begun⟩
  | some operation =>
  dsimp only
  have deleted := begun.delete request.opHandle
  cases request.authorize operation with
  | ok =>
    refine ⟨?_, deleted⟩
    dsimp only
    split
    · exact begun
    · exact deleted
  | _ => exact ⟨deleted, deleted⟩

theorem Device.AllBegun.abortOperation (handle : UInt64)
    (aborted : KeymasterError) : (device.abortOperation handle aborted).2.AllBegun also := by
  unfold Device.abortOperation
  split
  · exact begun
  · exact begun.delete handle

theorem Device.AllBegun.run {requests : List Request}
    (meets : ∀ request, Request.begin request ∈ requests → also request) : (device.run requests).AllBegun also := by
  induction requests generalizing device with
  | nil => exact begun
  | cons request rest ih =>
  have meetsRest : ∀ other, Request.begin other ∈ rest → also other := fun other member =>
    meets other (mem_cons_of_mem _ member)
  have step : (device.serve request).2.AllBegun also := by
    cases request with
    | begin request => exact begun.beginOperation (meets request mem_cons_self)
    | update request => exact (begun.goOn request).1
    | finish request => exact (begun.goOn request).2
    | abort handle aborted => exact begun.abortOperation handle aborted
  exact ih step meetsRest

theorem Device.AllBegun.found {handle : UInt64} (found : device.find handle = some operation) :
    (Begun operation ∧ also operation.request) ∧ handle ≠ 0 := by
  unfold Device.find at found
  split at found
  · cases found
  next nonzero =>
  refine ⟨?_, nonzero⟩
  split at found
  · cases found
  next entries table =>
  split at found
  · cases found
  next entry located => exact begun entries table entry (mem_of_find?_eq_some located) _ found

end

theorem Begun.authenticated (begun : Begun operation) (begunCopy : operation.request.copied = true)
    (needed : exemptPurpose operation.purpose operation.key = false) (settled : Settled operation.key)
    (member : secure ∈ operation.key) (tag : secure.tag = Tag.userSecureId) {request : GoOnRequest} (copied : request.copied = true)
    (nonzero : request.opHandle ≠ 0) (ok : request.authorize operation = .ok) :
    Authenticated operation.request operation.key request := by
  obtain ⟨tables, authorized⟩ := begun.authorized needed
  obtain ⟨noException, timed⟩ := begin_authenticated authorized settled member tag
  unfold GoOnRequest.authorize authorizeOperation at ok
  rw [if_pos copied, begun.authorizations begunCopy, needed, if_neg nofun] at ok
  rcases goOn_authenticated ok settled nonzero member tag noException with timeout | now
  · exact .inl ⟨timeout, timed timeout⟩
  · exact .inr now

/-- The request that goes on, and whether it is answered with `KM_ERROR_OK`. -/
def Request.goesOn : Request → Option GoOnRequest
  | .update request => some request
  | .finish request => some request
  | _ => none

theorem serve_goesOn {request : Request} {goOn : GoOnRequest} (same : request.goesOn = some goOn)
    (ok : (device.serve request).1 = .ok) :
    ∃ operation, device.find goOn.opHandle = some operation ∧ goOn.authorize operation = .ok := by
  have update (ok : (device.updateOperation goOn).1 = .ok) :
      ∃ operation, device.find goOn.opHandle = some operation ∧ goOn.authorize operation = .ok := by
    unfold Device.updateOperation at ok
    split at ok
    · cases ok
    next operation found =>
    refine ⟨operation, found, ?_⟩
    cases answer : goOn.authorize operation with
    | ok => rfl
    | _ =>
    rw [answer] at ok
    cases ok
  have finish (ok : (device.finishOperation goOn).1 = .ok) :
      ∃ operation, device.find goOn.opHandle = some operation ∧ goOn.authorize operation = .ok := by
    unfold Device.finishOperation at ok
    split at ok
    · cases ok
    next operation found =>
    refine ⟨operation, found, ?_⟩
    cases answer : goOn.authorize operation with
    | ok => rfl
    | _ =>
    rw [answer] at ok
    cases ok
  cases request with
  | begin _ => cases same
  | update _ =>
    cases same
    exact update ok
  | finish _ =>
    cases same
    exact finish ok
  | abort _ _ => cases same

/-- After any requests whose copies of authorizations could be allocated, an
update or finish of an operation that needs authentication, with a key that is
settled, is answered with `KM_ERROR_OK` only if the user is authenticated. -/
theorem operations_authenticated {enforcement : Enforcement} {tableSize : Nat} {requests : List Request}
    {request : Request} {goOn : GoOnRequest} {operation : Operation}
    (copies : ∀ other ∈ requests ++ [request], other.copies = true) (same : request.goesOn = some goOn)
    (found : ((Device.start enforcement tableSize).run requests).find goOn.opHandle = some operation)
    (needed : exemptPurpose operation.purpose operation.key = false) (settled : Settled operation.key)
    (secure : ∃ param ∈ operation.key, param.tag = Tag.userSecureId)
    (ok : (((Device.start enforcement tableSize).run requests).serve request).1 = .ok) :
    Authenticated operation.request operation.key goOn := by
  have start : (Device.start enforcement tableSize).AllBegun (·.copied = true) := fun entries table => nomatch table
  have begun : ((Device.start enforcement tableSize).run requests).AllBegun (·.copied = true) := by
    apply start.run
    intro other member
    exact copies (.begin other) (mem_append_left _ member)
  obtain ⟨⟨known, copied⟩, nonzero⟩ := begun.found found
  obtain ⟨other, again, authorized⟩ := serve_goesOn same ok
  cases Option.some.inj (found.symm.trans again)
  obtain ⟨param, member, tag⟩ := secure
  have now : goOn.copied = true := by
    have last := copies request (mem_append_right _ mem_cons_self)
    cases request with
    | begin _ => cases same
    | update _ | finish _ =>
      cases same
      exact last
    | abort _ _ => cases same
  exact known.authenticated copied needed settled member tag now nonzero authorized

def secureKey : AuthList :=
  [.number Tag.algorithm algorithmAes.toUInt64, .number Tag.purpose Purpose.encrypt.toUInt64,
    .number Tag.userSecureId 5, .number Tag.userAuthType hwAuthPassword.toUInt64,
    .number Tag.activeDatetime 3, .number Tag.originationExpireDatetime 8]

def signedPolicy : Policy where
  activationDateValid date := date ≤ 6
  expirationDatePassed date := date < 6
  authTokenTimedOut _ _ := false
  validateTokenSignature _ := true
  currentTime := 6

def secureBegin (copied : Bool) : BeginRequest where
  policy := signedPolicy
  purpose := .encrypt
  additionalParams := []
  loaded := .ok (secureKey, [])
  factory := true
  created := .ok ()
  keyId := some 1
  begun := .ok
  copied := copied
  tableAllocated := true
  random := some 9

def goOnWith (params : AuthList) : GoOnRequest where
  policy := signedPolicy
  opHandle := 9
  additionalParams := params
  copied := true
  result := .ok

def passwordToken : List UInt8 :=
  [0] ++ LittleEndian.encode 8 9 ++ LittleEndian.encode 8 5 ++ LittleEndian.encode 8 0 ++
    [0, 0, 0, 1] ++ LittleEndian.encode 8 0 ++ replicate 32 0

def enforcementStart : Enforcement := .create 32 32 true true

/-- With the token the encryption goes on. -/
theorem encryption_authenticated : (((Device.start enforcementStart 16).run [.begin (secureBegin true)]).serve
        (.update (goOnWith [.bytes Tag.authToken passwordToken]))).1 = .ok ∧
      Authenticated (secureBegin true) secureKey (goOnWith [.bytes Tag.authToken passwordToken]) :=
  ⟨by decide +kernel, @operations_authenticated enforcementStart 16 [.begin (secureBegin true)]
      (.update (goOnWith [.bytes Tag.authToken passwordToken])) _ ((secureBegin true).operation 1 secureKey)
      (by decide) rfl rfl (by decide) (by unfold Settled; decide) (by decide) (by decide +kernel)⟩

/-- The copy of the authorizations could not be allocated, and the encryption goes
on without any token. -/
theorem encryption_unauthenticated : (((Device.start enforcementStart 16).run [.begin (secureBegin false)]).serve
        (.update (goOnWith []))).1 = .ok ∧
      (∃ operation, ((Device.start enforcementStart 16).run [.begin (secureBegin false)]).find 9 =
          some operation ∧ operation.key = secureKey ∧ operation.request = secureBegin false ∧
        exemptPurpose operation.purpose operation.key = false) ∧
      (∃ param ∈ secureKey, param.tag = Tag.userSecureId) ∧
      ¬Authenticated (secureBegin false) secureKey (goOnWith []) := by
  refine ⟨by decide, ⟨(secureBegin false).operation 1 secureKey, rfl, rfl, rfl, by decide⟩, by decide, ?_⟩
  intro authenticated
  rcases authenticated with timed | now
  · obtain ⟨_, entry, present, _⟩ := timed
    cases present
  · obtain ⟨_, entry, present, _⟩ := now
    cases present

/-- The dates of a key allow the call. -/
structure BeginCall.Timely (call : BeginCall) (param : KeyParam) : Prop where
  active : param.tag = Tag.activeDatetime → call.policy.activationDateValid param.longInteger = true
  unexpired : param.tag = Tag.originationExpireDatetime ∧ isOriginationPurpose call.purpose = true ∨
    param.tag = Tag.usageExpireDatetime ∧ isUsagePurpose call.purpose = true →
      call.policy.expirationDatePassed param.longInteger = false

variable {tables : Enforcement} {call : BeginCall} {scan last : Scan}

theorem checkParam_timely {param : KeyParam} (checked : checkParam tables call scan param = .ok last) :
    call.Timely param := by
  unfold checkParam at checked
  constructor
  · intro tag
    by_contra invalid
    rw [if_pos tag, if_neg invalid] at checked
    cases checked
  · rintro (⟨tag, purpose⟩ | ⟨tag, purpose⟩)
    all_goals
      by_contra passed
      rw [tag, purpose, eq_true_of_ne_false passed] at checked
      cases checked

theorem checkParams_timely {set : AuthList} (checked : checkParams tables call set scan = .ok last) :
    ∀ param ∈ set, call.Timely param := by
  induction set generalizing scan with
  | nil => exact nofun
  | cons param rest ih =>
  rw [checkParams] at checked
  split at checked
  · cases checked
  next round => exact forall_mem_cons.mpr ⟨checkParam_timely round, ih checked⟩

theorem check_timely (checked : tables.check call = .ok scan) : ∀ param ∈ call.authSet, call.Timely param := by
  unfold Enforcement.check at checked
  split at checked
  · split at checked
    · cases checked
    next loop => exact checkParams_timely loop
  · cases checked

/-- Every operation in the table, after any requests, was begun by one of them for a
purpose and at a time that its key allows. -/
theorem operations_timely {tableSize : Nat} {requests : List Request} {handle : UInt64}
    (found : ((Device.start tables tableSize).run requests).find handle = some operation)
    (needed : exemptPurpose operation.purpose operation.key = false) : .begin operation.request ∈ requests ∧
      authorizedPurpose operation.request.purpose operation.key = .ok ∧
      ∀ param ∈ operation.key, (operation.request.call operation.keyId operation.key).Timely param := by
  have start : (Device.start tables tableSize).AllBegun (.begin · ∈ requests) := fun entries table => nomatch table
  obtain ⟨⟨begun, served⟩, _⟩ := (start.run fun _ member => member).found found
  obtain ⟨before, ok⟩ := begun.authorized needed
  have ended := authorizeBegin_end before (operation.request.call operation.keyId operation.key)
  generalize before.authorizeBegin _ = result at ok ended
  cases ended with
  | refused _ wrong => contradiction
  | untimed _ refused => contradiction
  | recorded checked _ => exact ⟨served, (check_ok checked).purpose, check_timely checked⟩

theorem encryption_timely : ((secureBegin true).call 1 secureKey).Timely (.number Tag.activeDatetime 3) ∧
      ((secureBegin true).call 1 secureKey).Timely (.number Tag.originationExpireDatetime 8) := by
  have timely := (@operations_timely ((secureBegin true).operation 1 secureKey) enforcementStart 16
    [.begin (secureBegin true)] 9 rfl (by decide)).2.2
  exact ⟨timely _ (by decide), timely _ (by decide)⟩

end Trusty.Keymaster
