import Trusty.Keymaster.AuthenticationProperties
import Trusty.Keymaster.TokenKey

/-!
What gatekeeper signs is what keymaster accepts.
-/

namespace Trusty.Keymaster

open List

open LittleEndian (encode decode length_encode decode_encode decode_lt)

theorem length_hashData (token : AuthToken) : token.hashData.length = 37 := by
  simp only [AuthToken.hashData, length_cons, length_append, length_encode]

variable {bytes : List UInt8}

theorem encode_decode_of_length {count : Nat} (length : bytes.length = count) :
    encode count (decode bytes) = bytes := by
  rw [← length]
  exact LittleEndian.encode_decode bytes

theorem ofNat_decode_toNat64 (length : bytes.length = 8) : (UInt64.ofNat (decode bytes)).toNat = decode bytes := by
  have small := decode_lt bytes
  rw [length] at small
  exact UInt64.toNat_ofNat_of_lt small

theorem ofNat_decode_toNat32 (length : bytes.length = 4) : (UInt32.ofNat (decode bytes)).toNat = decode bytes := by
  have small := decode_lt bytes
  rw [length] at small
  exact UInt32.toNat_ofNat_of_lt small

theorem encode64_ofNat_decode (length : bytes.length = 8) : encode 8 (UInt64.ofNat (decode bytes)).toNat = bytes := by
  rw [ofNat_decode_toNat64 length, encode_decode_of_length length]

theorem encode32_ofNat_decode (length : bytes.length = 4) : encode 4 (UInt32.ofNat (decode bytes)).toNat = bytes := by
  rw [ofNat_decode_toNat32 length, encode_decode_of_length length]

theorem ofNat_decode_encode64 (value : UInt64) : UInt64.ofNat (decode (encode 8 value.toNat)) = value := by
  rw [decode_encode value.toNat_lt, UInt64.ofNat_toNat]

theorem ofNat_decode_encode32 (value : UInt32) : UInt32.ofNat (decode (encode 4 value.toNat)) = value := by
  rw [decode_encode value.toNat_lt, UInt32.ofNat_toNat]

theorem drop_append_add {front rest : List UInt8} {count : Nat} (length : front.length = count)
    (further : Nat) : (front ++ rest).drop (count + further) = rest.drop further := by
  rw [← length, drop_append, drop_of_length_le (by omega), Nat.add_sub_cancel_left, nil_append]

theorem ofBytes_pieces {version : UInt8} {challenge userId authenticatorId type timestamp hmac :
    List UInt8} (challengeLength : challenge.length = 8) (userLength : userId.length = 8)
    (authenticatorLength : authenticatorId.length = 8) (typeLength : type.length = 4)
    (timeLength : timestamp.length = 8) (hmacLength : hmac.length = 32) :
    AuthToken.ofBytes (version :: (challenge ++ (userId ++ (authenticatorId ++ (type ++
      (timestamp ++ hmac)))))) =
      { version := version
        challenge := .ofNat (decode challenge)
        userId := .ofNat (decode userId)
        authenticatorId := .ofNat (decode authenticatorId)
        authenticatorType := .ofNat (decode type)
        timestamp := .ofNat (decode timestamp)
        hmac := hmac } := by
  have atUser := @drop_append_add challenge (userId ++ (authenticatorId ++ (type ++
    (timestamp ++ hmac)))) 8 challengeLength
  have atAuthenticator := @drop_append_add userId (authenticatorId ++ (type ++
    (timestamp ++ hmac))) 8 userLength
  have atType := @drop_append_add authenticatorId (type ++ (timestamp ++ hmac)) 8
    authenticatorLength
  have atTime := @drop_append_add type (timestamp ++ hmac) 4 typeLength
  have atHmac := @drop_append_add timestamp hmac 8 timeLength
  unfold AuthToken.ofBytes
  simp only [drop_succ_cons, drop_zero, headD_cons]
  rw [atUser 0, atUser 8, atAuthenticator 0, atUser 16, atAuthenticator 8, atType 0, atUser 20,
    atAuthenticator 12, atType 4, atTime 0, atUser 28, atAuthenticator 20, atType 12, atTime 8,
    atHmac 0]
  simp only [drop_zero, take_left' challengeLength, take_left' userLength,
    take_left' authenticatorLength, take_left' typeLength, take_left' timeLength,
    take_of_length_le (le_of_eq hmacLength)]

theorem ofBytes_toBytes {token : AuthToken} (length : token.hmac.length = 32) :
    AuthToken.ofBytes token.toBytes = token := by
  unfold AuthToken.toBytes AuthToken.hashData
  simp only [cons_append, append_assoc]
  rw [ofBytes_pieces (length_encode 8 _) (length_encode 8 _) (length_encode 8 _) (length_encode 4 _)
    (length_encode 8 _) length]
  simp only [ofNat_decode_encode64, ofNat_decode_encode32]

theorem exists_append {front rest : Nat} (length : bytes.length = front + rest) :
    ∃ first second, bytes = first ++ second ∧ first.length = front ∧ second.length = rest := by
  refine ⟨bytes.take front, bytes.drop front, (take_append_drop _ _).symm, ?_, ?_⟩
  · rw [length_take]
    omega
  · rw [length_drop]
    omega

theorem toBytes_ofBytes (length : bytes.length = AuthToken.size) :
    (AuthToken.ofBytes bytes).toBytes = bytes := by
  cases bytes with
  | nil => cases length
  | cons version rest =>
  have further : rest.length = 8 + (8 + (8 + (4 + (8 + 32)))) := Nat.succ.inj length
  obtain ⟨challenge, rest, rfl, challengeLength, further⟩ := exists_append further
  obtain ⟨userId, rest, rfl, userLength, further⟩ := exists_append further
  obtain ⟨authenticatorId, rest, rfl, authenticatorLength, further⟩ := exists_append further
  obtain ⟨type, rest, rfl, typeLength, further⟩ := exists_append further
  obtain ⟨timestamp, hmac, rfl, timeLength, hmacLength⟩ := exists_append further
  rw [ofBytes_pieces challengeLength userLength authenticatorLength typeLength timeLength
    hmacLength]
  unfold AuthToken.toBytes AuthToken.hashData
  simp only [encode64_ofNat_decode challengeLength, encode64_ofNat_decode userLength,
    encode64_ofNat_decode authenticatorLength, encode32_ofNat_decode typeLength,
    encode64_ofNat_decode timeLength, cons_append, append_assoc]

theorem swap64_swap64 (value : UInt64) : swap64 (swap64 value) = value := by
  have length : (encode 8 value.toNat).reverse.length = 8 := by
    rw [length_reverse, length_encode]
  unfold swap64
  rw [encode64_ofNat_decode length, reverse_reverse, ofNat_decode_encode64]

variable {hmac : List UInt8 → List UInt8 → List UInt8} {boot after : Boot} {initial : TokenContext}

/-- The key is one random number, which only gatekeeper gets, and which is the only one
that it takes for the key. -/
structure Boot.Keyed (boot : Boot) : Prop where
  generated : boot.context.authTokenKeyInitialized = true →
    boot.context.authTokenKey ∈ boot.generated
  used : ∀ key ∈ boot.used,
    boot.context.authTokenKeyInitialized = true ∧ key = boot.context.authTokenKey
  sent : ∀ entry ∈ boot.sent, entry.1 = gatekeeperUuid
  channels : ∀ channel ∈ boot.channels, channel.secure = true → channel.uuid = gatekeeperUuid
  received : ∀ key ∈ boot.received, key ∈ boot.used
  minted : ∀ entry ∈ boot.minted, ∀ key, entry.key = some key → key ∈ boot.received

theorem keyed_start (clean : initial.authTokenKeyInitialized = false) : (Boot.start initial).Keyed where
  generated set := absurd (clean.symm.trans set) Bool.false_ne_true
  used _ member := nomatch member
  sent _ member := nomatch member
  channels _ member := nomatch member
  received _ member := nomatch member
  minted _ member := nomatch member

theorem getAuthTokenKey_cases (context : TokenContext) (generated : Generated) :
    (context.authTokenKeyInitialized = true ∧ context.getAuthTokenKey generated = (some context.authTokenKey, context) ∧
        context.draws generated = []) ∨
      (context.authTokenKeyInitialized = false ∧
        ((∃ bytes, context.getAuthTokenKey generated = (some bytes, ⟨bytes, true⟩) ∧
            context.draws generated = [bytes]) ∨
          ∃ left, context.getAuthTokenKey generated = (none, ⟨left, false⟩) ∧ context.draws generated = [])) := by
  obtain ⟨key, flag⟩ := context
  cases flag with
  | true =>
    cases generated with
    | ok bytes | failed left => exact .inl ⟨rfl, rfl, rfl⟩
  | false =>
  cases generated with
  | ok bytes => exact .inr ⟨rfl, .inl ⟨bytes, rfl, rfl⟩⟩
  | failed left => exact .inr ⟨rfl, .inr ⟨left, rfl, rfl⟩⟩

theorem Boot.Keyed.fetched (keyed : boot.Keyed) (generated : Generated) : (boot.fetched generated).Keyed := by
  have none (clear : boot.context.authTokenKeyInitialized = false) : boot.used = [] :=
    eq_nil_iff_forall_not_mem.mpr fun key member =>
      absurd (clear.symm.trans (keyed.used key member).1) Bool.false_ne_true
  unfold Boot.fetched
  rcases getAuthTokenKey_cases boot.context generated with
    ⟨set, is, drawn⟩ | ⟨clear, ⟨bytes, is, drawn⟩ | ⟨left, is, drawn⟩⟩
  · rw [is, drawn]
    refine ⟨fun _ => keyed.generated set, ?_, keyed.sent, keyed.channels, ?_, keyed.minted⟩
    · exact forall_mem_cons.mpr ⟨⟨set, rfl⟩, keyed.used⟩
    · exact fun key member => mem_cons_of_mem _ (keyed.received key member)
  · rw [is, drawn, none clear]
    refine ⟨fun _ => mem_cons_self .., ?_, keyed.sent, keyed.channels, ?_, keyed.minted⟩
    · exact forall_mem_cons.mpr ⟨⟨rfl, rfl⟩, nofun⟩
    intro key member
    have old := keyed.received key member
    rw [none clear] at old
    cases old
  · rw [is, drawn]
    refine { keyed with generated := nofun, used := ?_ }
    rw [none clear]
    exact nofun

variable {channel : TokenChannel} {cmd : UInt32} {generated : Generated} {allocated : Bool}
  {answer : List UInt8} {key : List UInt8}

theorem dispatch_key {context : TokenContext}
    (sends : dispatch channel context cmd generated allocated answer = .key key) :
    channel.asksKey cmd = true ∧ (context.getAuthTokenKey generated).1 = some key := by
  unfold dispatch at sends
  split at sends
  next secure =>
    split at sends
    next asks =>
      unfold sendAuthTokenKey at sends
      split at sends
      · cases sends
      next found is =>
      split at sends
      · cases sends
        exact ⟨by simp [TokenChannel.asksKey, secure, asks], is⟩
      · cases sends
    · cases sends
  · cases sends

theorem dispatch_of_asksKey {context : TokenContext} (asks : channel.asksKey cmd = true) :
    dispatch channel context cmd generated allocated answer = .error ∨
      ∃ key, dispatch channel context cmd generated allocated answer = .key key := by
  obtain ⟨secure, key⟩ := Bool.and_eq_true_iff.mp asks
  unfold dispatch
  rw [if_pos secure, if_pos (eq_of_beq key)]
  unfold sendAuthTokenKey
  split
  · exact .inl rfl
  next found _ =>
  split
  · exact .inr ⟨found, rfl⟩
  · exact .inl rfl

theorem Boot.Keyed.handleMsg (keyed : boot.Keyed) (member : channel ∈ boot.channels)
    (fine : channel.asksKey cmd = true → dispatch channel boot.context cmd generated allocated answer ≠ .error) :
    (boot.handleMsg channel cmd generated allocated answer).Keyed := by
  have fetched := keyed.fetched generated
  unfold Boot.handleMsg
  dsimp only
  cases asks : channel.asksKey cmd with
  | false =>
    have quiet : ∀ key, dispatch channel boot.context cmd generated allocated answer ≠ .key key :=
      fun key sends => nomatch asks.symm.trans (dispatch_key sends).1
    refine { keyed with sent := ?_, received := ?_, minted := ?_ }
    · dsimp only
      split
      next key sends => exact absurd sends (quiet key)
      · exact keyed.sent
    · exact keyed.received
    · exact keyed.minted
  | true =>
  obtain ⟨key, sends⟩ := (dispatch_of_asksKey asks).resolve_left (fine asks)
  obtain ⟨_, found⟩ := dispatch_key sends
  have uuid := keyed.channels channel member (Bool.and_eq_true_iff.mp asks).1
  have used : key ∈ (boot.fetched generated).used := by
    unfold Boot.fetched
    rw [found]
    exact mem_cons_self ..
  rw [sends, if_pos rfl, if_pos ⟨rfl, uuid⟩]
  refine { fetched with sent := ?_, received := ?_, minted := ?_ }
  · exact forall_mem_cons.mpr ⟨uuid, keyed.sent⟩
  · exact forall_mem_cons.mpr ⟨used, fetched.received⟩
  · exact fun entry made bytes is => mem_cons_of_mem _ (keyed.minted entry made bytes is)

theorem keymasterCtxOpen_secure {uuid : Uuid} {secure : Bool}
    (opened : keymasterCtxOpen uuid secure allocated = some channel)
    (isSecure : channel.secure = true) : channel.uuid = gatekeeperUuid := by
  unfold keymasterCtxOpen at opened
  split at opened
  · cases opened
  next accessible =>
  split at opened
  · cases opened
    dsimp only at isSecure ⊢
    rw [isSecure] at accessible
    simpa [keymasterPortAccessible] using accessible
  · cases opened

theorem Boot.Keyed.step (keyed : boot.Keyed) (step : Boot.Step true boot after) : after.Keyed := by
  cases step with
  | tick clock later =>
    exact { keyed with }
  | connect opened =>
    refine { keyed with channels := ?_ }
    exact forall_mem_cons.mpr ⟨keymasterCtxOpen_secure opened, keyed.channels⟩
  | close fewer =>
    exact { keyed with channels := fun channel member => keyed.channels channel (fewer member) }
  | message member fine => exact keyed.handleMsg member (fine rfl)
  | validate generated => exact keyed.fetched generated
  | verify userId challenge known =>
  refine { keyed with minted := ?_ }
  exact forall_mem_cons.mpr ⟨known, keyed.minted⟩

theorem keyed_of_steps (clean : initial.authTokenKeyInitialized = false)
    (steps : Relation.ReflTransGen (Boot.Step true) (.start initial) boot) : boot.Keyed := by
  induction steps with
  | refl => exact keyed_start clean
  | tail _ step ih => exact ih.step step

theorem tokenMatches_of_checked {policy : Policy} {authSet : AuthList} {token : AuthToken}
    {userSecureId opHandle : UInt64} {authTypeIndex authTimeoutIndex : Option Nat} {isBeginOperation : Bool}
    (checked : TokenChecked policy authSet token userSecureId authTypeIndex authTimeoutIndex opHandle
      isBeginOperation) :
    tokenMatches policy authSet token userSecureId authTypeIndex authTimeoutIndex opHandle isBeginOperation = true := by
  obtain ⟨typeIndex, is, tag, intersects⟩ := checked.type
  have challenge : ¬(authTimeoutIndex = none ∧ opHandle ≠ 0 ∧ opHandle ≠ token.challenge) :=
    fun ⟨missing, nonzero, other⟩ => other (checked.challenge missing nonzero)
  have user : ¬(userSecureId ≠ token.userId ∧ userSecureId ≠ token.authenticatorId) :=
    not_and_or.mpr (checked.user.imp not_not.mpr not_not.mpr)
  subst is
  unfold tokenMatches
  rw [if_neg (not_not.mpr checked.version), checked.signed, if_neg (by decide), if_neg challenge, if_neg user]
  dsimp only
  rw [if_neg (not_not.mpr tag), if_neg intersects]
  cases authTimeoutIndex with
  | none => rfl
  | some index =>
  cases isBeginOperation with
  | false => rfl
  | true =>
  obtain ⟨timeoutTag, inTime⟩ := checked.timeout index rfl rfl
  dsimp only
  rw [if_neg (not_not.mpr timeoutTag), inTime]
  rfl

def Boot.Unforged (hmac : List UInt8 → List UInt8 → List UInt8) (boot : Boot) (key : List UInt8)
    (token : AuthToken) : Prop :=
  hmac key token.hashData = token.hmac →
    ∃ entry ∈ boot.minted, entry.key = some key ∧ (entry.token hmac).hashData = token.hashData

/-- The index is that of an authentication type with `HW_AUTH_PASSWORD`. -/
def AllowsPassword (authSet : AuthList) (typeIndex : Nat) : Prop :=
  (authSet.at typeIndex).tag = Tag.userAuthType ∧
    (authSet.at typeIndex).integer &&& hwAuthPassword ≠ 0

structure Boot.Agrees (hmac : List UInt8 → List UInt8 → List UInt8) (boot : Boot) : Prop where
  /-- keymaster uses one key, which is random -/
  random : ∀ key ∈ boot.used, key ∈ boot.generated ∧ ∀ other ∈ boot.used, other = key
  /-- it is sent to gatekeeper only -/
  secret : ∀ entry ∈ boot.sent, entry.1 = gatekeeperUuid
  /-- a token is accepted for its challenge -/
  accepted : ∀ entry ∈ boot.minted, entry.key.isSome → ∀ base authSet typeIndex params param
    generated, AllowsPassword authSet typeIndex → params.find Tag.authToken = some param →
    param.blob = (entry.token hmac).toBytes →
    authTokenMatches (trustyPolicy base hmac (boot.context.getAuthTokenKey generated).1 boot.now)
      authSet params entry.userId (some typeIndex) none entry.challenge false = true
  /-- and by a key with a timeout until that has passed -/
  inTime : ∀ entry ∈ boot.minted, entry.key.isSome → ∀ base authSet typeIndex params param
    generated timeoutIndex, AllowsPassword authSet typeIndex →
    params.find Tag.authToken = some param → param.blob = (entry.token hmac).toBytes →
    (authSet.at timeoutIndex).tag = Tag.authTimeout →
    boot.now.toNat ≤ entry.time.toNat + 1000 * (authSet.at timeoutIndex).integer.toNat →
    authTokenMatches (trustyPolicy base hmac (boot.context.getAuthTokenKey generated).1 boot.now)
      authSet params entry.userId (some typeIndex) (some timeoutIndex) 0 true = true
  /-- what is accepted without a timeout is a token for that user and operation -/
  genuine : ∀ base authSet typeIndex params userSecureId opHandle generated key, userSecureId ≠ 0 →
    opHandle ≠ 0 → (boot.context.getAuthTokenKey generated).1 = some key →
    (∀ param, params.find Tag.authToken = some param →
      boot.Unforged hmac key (.ofBytes param.blob)) →
    authTokenMatches (trustyPolicy base hmac (some key) boot.now) authSet params userSecureId
      typeIndex none opHandle false = true →
    ∃ param entry, params.find Tag.authToken = some param ∧ entry ∈ boot.minted ∧
      param.blob = (entry.token hmac).toBytes ∧ entry.userId = userSecureId ∧
      entry.challenge = opHandle

theorem trustyPolicy_timedOut (base : Policy) (key : Option (List UInt8)) (now : UInt64) :
    (trustyPolicy base hmac key now).authTokenTimedOut = timedOut now := by
  simp only [trustyPolicy]

variable {entry : Minted}

theorem Minted.token_hmac (is : entry.key = some key) :
    (entry.token hmac).hmac = hmac key (entry.token hmac).hashData := by
  unfold Minted.token Gatekeeper.mintAuthToken
  rw [is]
  rfl

theorem Minted.token_fields (entry : Minted) : (entry.token hmac).version = hwAuthTokenVersion ∧
      (entry.token hmac).challenge = entry.challenge ∧ (entry.token hmac).userId = entry.userId ∧
      (entry.token hmac).authenticatorId = 0 ∧
      (entry.token hmac).authenticatorType = swap32 hwAuthPassword ∧
      (entry.token hmac).timestamp = swap64 entry.time := by
  unfold Minted.token Gatekeeper.mintAuthToken
  cases entry.key with
  | none | some key => exact ⟨rfl, rfl, rfl, rfl, rfl, rfl⟩

theorem Boot.Keyed.key_eq (keyed : boot.Keyed) (made : entry ∈ boot.minted) (is : entry.key = some key)
    (generated : Generated) : (boot.context.getAuthTokenKey generated).1 = some key := by
  obtain ⟨set, same⟩ := keyed.used key (keyed.received key (keyed.minted entry made key is))
  unfold TokenContext.getAuthTokenKey
  rw [if_pos set, same]

variable (length : ∀ key message, (hmac key message).length = 32)

include length

theorem Boot.Keyed.matches (keyed : boot.Keyed) (made : entry ∈ boot.minted) (signed : entry.key.isSome) {base : Policy}
    {authSet params : AuthList} {typeIndex : Nat} {param : KeyParam} {generated : Generated} {timeoutIndex : Option Nat}
    {opHandle : UInt64} {isBegin : Bool} (allows : AllowsPassword authSet typeIndex)
    (found : params.find Tag.authToken = some param) (bytes : param.blob = (entry.token hmac).toBytes)
    (challenge : timeoutIndex = none → opHandle ≠ 0 → opHandle = entry.challenge)
    (timeout : ∀ index, timeoutIndex = some index → isBegin = true → (authSet.at index).tag = Tag.authTimeout ∧
        timedOut boot.now (entry.token hmac) (authSet.at index).integer = false) :
    authTokenMatches (trustyPolicy base hmac (boot.context.getAuthTokenKey generated).1 boot.now)
      authSet params entry.userId (some typeIndex) timeoutIndex opHandle isBegin = true := by
  obtain ⟨key, is⟩ := Option.isSome_iff_exists.mp signed
  have signature := @Minted.token_hmac hmac key entry is
  obtain ⟨version, challengeIs, userIs, _, typeIs, _⟩ := @Minted.token_fields hmac entry
  have hmacLength : (entry.token hmac).hmac.length = 32 := by
    rw [signature]
    exact length _ _
  have size : param.blob.length = AuthToken.size := by
    rw [bytes, AuthToken.toBytes, length_append, length_hashData, hmacLength]
    rfl
  unfold authTokenMatches
  rw [found, keyed.key_eq made is]
  dsimp only
  rw [if_neg (not_not.mpr size), bytes, ofBytes_toBytes hmacLength]
  apply tokenMatches_of_checked
  constructor
  case version => exact version
  case signed => exact decide_eq_true signature.symm
  case challenge =>
    rw [challengeIs]
    exact challenge
  case user => exact .inl userIs.symm
  case type =>
    have back : swap32 (swap32 hwAuthPassword) = hwAuthPassword := by decide
    refine ⟨typeIndex, rfl, allows.1, ?_⟩
    rw [typeIs, back]
    exact allows.2
  case timeout =>
    intro index present begins
    rw [trustyPolicy_timedOut]
    exact timeout index present begins

omit length in
theorem timedOut_false {now : UInt64} {timeout : UInt32}
    (inTime : now.toNat ≤ entry.time.toNat + 1000 * timeout.toNat) :
    timedOut now (entry.token hmac) timeout = false := by
  obtain ⟨_, _, _, _, _, time⟩ := @Minted.token_fields hmac entry
  unfold timedOut
  rw [time, swap64_swap64]
  apply decide_eq_false
  intro ⟨later, passed⟩
  have bound : timeout.toNat < 2 ^ 32 := timeout.toNat_lt
  have product : (timeout.toUInt64 * 1000).toNat = timeout.toNat * 1000 := by
    exact Nat.mod_eq_of_lt (by change timeout.toNat * 1000 < 2 ^ 64; omega)
  rw [UInt64.lt_iff_toNat_lt, product, UInt64.toNat_sub_of_le _ _ later] at passed
  omega

theorem genuine_of_matches {base : Policy} {authSet params : AuthList} {typeIndex : Option Nat}
    {userSecureId opHandle : UInt64} (someone : userSecureId ≠ 0) (operation : opHandle ≠ 0)
    (unforged : ∀ param, params.find Tag.authToken = some param → boot.Unforged hmac key (.ofBytes param.blob))
    (found : authTokenMatches (trustyPolicy base hmac (some key) boot.now) authSet params userSecureId
      typeIndex none opHandle false = true) :
    ∃ param entry, params.find Tag.authToken = some param ∧ entry ∈ boot.minted ∧
      param.blob = (entry.token hmac).toBytes ∧ entry.userId = userSecureId ∧
      entry.challenge = opHandle := by
  obtain ⟨param, present, size, checked⟩ := authTokenMatches_checked found
  have signed : hmac key (AuthToken.ofBytes param.blob).hashData =
      (AuthToken.ofBytes param.blob).hmac := of_decide_eq_true checked.signed
  obtain ⟨entry, made, is, same⟩ := unforged param present signed
  have signature := @Minted.token_hmac hmac key entry is
  have hmacLength : (entry.token hmac).hmac.length = 32 := by
    rw [signature]
    exact length _ _
  have bytes : param.blob = (entry.token hmac).toBytes := by
    rw [← toBytes_ofBytes size]
    unfold AuthToken.toBytes
    rw [← signed, ← same, ← signature]
  have token : AuthToken.ofBytes param.blob = entry.token hmac := by
    rw [bytes]
    exact ofBytes_toBytes hmacLength
  obtain ⟨_, challengeIs, userIs, authenticatorIs, _⟩ := @Minted.token_fields hmac entry
  have user := checked.user
  have challenge := checked.challenge rfl operation
  rw [token, userIs, authenticatorIs] at user
  rw [token, challengeIs] at challenge
  exact ⟨param, entry, present, made, bytes, (user.resolve_right someone).symm, challenge.symm⟩

/-- If the flag is clear at the start and no request for the key fails, the two
applications agree in every boot. -/
theorem tokens_agree (clean : initial.authTokenKeyInitialized = false)
    (steps : Relation.ReflTransGen (Boot.Step true) (.start initial) boot) : boot.Agrees hmac := by
  have keyed := keyed_of_steps clean steps
  constructor
  case random =>
    intro key member
    obtain ⟨set, same⟩ := keyed.used key member
    refine ⟨same ▸ keyed.generated set, ?_⟩
    intro other otherMember
    exact (keyed.used other otherMember).2.trans same.symm
  case secret => exact keyed.sent
  case accepted =>
    intro entry made signed base authSet typeIndex params param generated allows found bytes
    exact keyed.matches length made signed allows found bytes (fun _ _ => rfl) (fun _ missing => nomatch missing)
  case inTime =>
    intro entry made signed base authSet typeIndex params param generated timeoutIndex allows found bytes tag early
    refine keyed.matches length made signed allows found bytes (fun missing => nomatch missing) ?_
    intro index present _
    cases present
    exact ⟨tag, timedOut_false early⟩
  case genuine =>
    intro base authSet typeIndex params userSecureId opHandle generated key someone operation _ unforged found
    exact genuine_of_matches length someone operation unforged found

/-!
Gatekeeper asks for the key and signs a token for the user 5 and the operation 9.
-/

omit length

def openHmac (key _message : List UInt8) : List UInt8 := (key ++ replicate 32 0).take 32

theorem length_openHmac (key message : List UInt8) : (openHmac key message).length = 32 := by
  simp only [openHmac, length_take, length_append, length_replicate]
  omega

def memoryBefore (flag : Bool) : TokenContext := ⟨replicate 32 7, flag⟩

def gatekeeperChannel : TokenChannel := ⟨true, gatekeeperUuid⟩

def asked (generated : Generated) : Boot :=
  Boot.handleMsg { Boot.start (memoryBefore false) with channels := [gatekeeperChannel] }
    gatekeeperChannel kmGetAuthTokenKey generated true []

def signedWith (generated : Generated) (key : List UInt8) : Boot :=
  { asked generated with
    minted := ⟨some key, (asked generated).now, 5, 9⟩ :: (asked generated).minted }

section

variable {answered : Bool} {generated : Generated}
  (fine : answered = true → sendAuthTokenKey (memoryBefore false) generated true ≠ .error)
include fine

theorem asked_steps : Relation.ReflTransGen (Boot.Step answered) (.start (memoryBefore false)) (asked generated) := by
  have connected : Boot.Step answered (.start (memoryBefore false))
      { Boot.start (memoryBefore false) with channels := [gatekeeperChannel] } :=
    @Boot.Step.connect _ _ gatekeeperUuid true true gatekeeperChannel (by decide)
  exact (Relation.ReflTransGen.single connected).tail (.message (mem_singleton.mpr rfl) fun yes _ => fine yes)

theorem signedWith_steps (received : key ∈ (asked generated).received) :
    Relation.ReflTransGen (Boot.Step answered) (.start (memoryBefore false)) (signedWith generated key) := by
  refine (asked_steps fine).tail (@Boot.Step.verify answered (asked generated) (some key) 5 9 ?_)
  intro bytes same
  cases same
  exact received

end

def passwordKey : AuthList := [⟨Tag.userAuthType, 1, []⟩]

def tokenParams (key : List UInt8) : AuthList :=
  [.bytes Tag.authToken (Minted.token openHmac ⟨some key, 0, 5, 9⟩).toBytes]

theorem allowsPassword_passwordKey : AllowsPassword passwordKey 0 := by
  constructor
  · decide
  · decide

/-- The token is accepted with the random key 1. -/
theorem token_accepted : Relation.ReflTransGen (Boot.Step true) (.start (memoryBefore false))
        (signedWith (.ok [1]) [1]) ∧
      authTokenMatches (trustyPolicy signedPolicy openHmac (some [1]) 0) passwordKey
        (tokenParams [1]) 5 (some 0) none 9 false = true := by
  have steps := @signedWith_steps [1] true (.ok [1]) (fun _ => by decide) (by decide)
  refine ⟨steps, ?_⟩
  exact (@tokens_agree openHmac _ _ length_openHmac rfl steps).accepted _
    (mem_cons_self ..) rfl signedPolicy passwordKey 0 (tokenParams [1]) _ (.failed [])
    allowsPassword_passwordKey rfl rfl

/-- If the flag happens to be set, the key is what was in memory. If the random number
fails, gatekeeper takes the error for the key and keymaster refuses what it signs. -/
theorem tokens_disagree : (∃ boot, Relation.ReflTransGen (Boot.Step true) (.start (memoryBefore true)) boot ∧
        ¬boot.Agrees openHmac) ∧
      ∃ boot, Relation.ReflTransGen (Boot.Step false) (.start (memoryBefore false)) boot ∧ ¬boot.Agrees openHmac := by
  constructor
  · refine ⟨_, .single (.validate (.failed [])), ?_⟩
    intro agrees
    have random := (agrees.random (replicate 32 7) (mem_singleton.mpr rfl)).1
    cases random
  refine ⟨_, @signedWith_steps Response.error.payload false (.failed []) nofun (by decide), ?_⟩
  intro agrees
  have accepts := agrees.accepted _ (mem_cons_self ..) rfl signedPolicy passwordKey 0
    (tokenParams Response.error.payload) _ (.ok [1]) allowsPassword_passwordKey rfl rfl
  have refused : authTokenMatches (trustyPolicy signedPolicy openHmac (some [1]) 0) passwordKey
      (tokenParams Response.error.payload) 5 (some 0) none 9 false = false := by
    decide +kernel
  nomatch refused.symm.trans accepts

end Trusty.Keymaster
