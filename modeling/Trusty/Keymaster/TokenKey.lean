import Trusty.Gatekeeper.Handle

/-!
# The key for tokens

How keymaster makes the key that tokens are signed with, whom `keymaster_ipc.cpp`
sends it to, and what gatekeeper takes for it. The record of keys and tokens is not
in the source.
-/

namespace Trusty.Keymaster

/-- `hw_auth_token_t` as bytes. -/
def AuthToken.toBytes (token : AuthToken) : List UInt8 := token.hashData ++ token.hmac

/-- The two members of the context that are about the key. The constructor sets
neither. -/
structure TokenContext where
  authTokenKey : List UInt8
  authTokenKeyInitialized : Bool
  deriving DecidableEq, Repr

/-- `GenerateRandom`, which may leave anything in the array when it fails. -/
inductive Generated where
  | ok (bytes : List UInt8)
  | failed (left : List UInt8)
  deriving DecidableEq, Repr

def TokenContext.initializeAuthTokenKey (context : TokenContext) :
    Generated → Bool × TokenContext
  | .failed left => (false, { context with authTokenKey := left })
  | .ok bytes => (true, ⟨bytes, true⟩)

def TokenContext.getAuthTokenKey (context : TokenContext) (generated : Generated) :
    Option (List UInt8) × TokenContext :=
  if context.authTokenKeyInitialized then (some context.authTokenKey, context)
  else
    match context.initializeAuthTokenKey generated with
    | (false, after) => (none, after)
    | (true, after) => (some after.authTokenKey, after)

/-- `auth_token_timed_out`, at a time since boot in milliseconds. -/
def timedOut (now : UInt64) (token : AuthToken) (timeout : UInt32) : Bool :=
  decide (swap64 token.timestamp ≤ now ∧
    timeout.toUInt64 * 1000 < now - swap64 token.timestamp)

/-- `ValidateTokenSignature`, with what `GetAuthTokenKey` gives. -/
def signatureValid (hmac : List UInt8 → List UInt8 → List UInt8) (key : Option (List UInt8))
    (token : AuthToken) : Bool :=
  match key with
  | none => false
  | some key => decide (hmac key token.hashData = token.hmac)

/-- The policy of a call, with the rest of its answers from `base`. -/
def trustyPolicy (base : Policy) (hmac : List UInt8 → List UInt8 → List UInt8)
    (key : Option (List UInt8)) (now : UInt64) : Policy :=
  { base with
    authTokenTimedOut := timedOut now
    validateTokenSignature := signatureValid hmac key }

structure Uuid where
  timeLow : UInt32
  timeMid : UInt16
  timeHiAndVersion : UInt16
  clockSeqAndNode : List UInt8
  deriving DecidableEq, Repr

def gatekeeperUuid : Uuid where
  timeLow := 0x38ba0cdc
  timeMid := 0xdf0e
  timeHiAndVersion := 0x11e4
  clockSeqAndNode := [0x98, 0x69, 0x23, 0x3f, 0xb6, 0xae, 0x47, 0x95]

/-- `keymaster_chan_ctx`. -/
structure TokenChannel where
  secure : Bool
  uuid : Uuid
  deriving DecidableEq, Repr

def keymasterPortAccessible (uuid : Uuid) (secure : Bool) : Bool :=
  !secure || decide (uuid = gatekeeperUuid)

def keymasterCtxOpen (uuid : Uuid) (secure allocated : Bool) : Option TokenChannel :=
  if !keymasterPortAccessible uuid secure then none
  else if allocated then some ⟨secure, uuid⟩
  else none

def kmGetAuthTokenKey : UInt32 := 0

inductive Response where
  | key (bytes : List UInt8)
  | operation (payload : List UInt8)
  | error
  deriving DecidableEq, Repr

/-- What stands behind the command in a response. An error is one number,
`KM_ERROR_UNKNOWN_ERROR`. -/
def Response.payload : Response → List UInt8
  | .key bytes => bytes
  | .operation payload => payload
  | .error => LittleEndian.encode 4 (2 ^ 32 - 1000)

/-- `get_auth_token_key`. -/
def sendAuthTokenKey (context : TokenContext) (generated : Generated) (allocated : Bool) :
    Response :=
  match (context.getAuthTokenKey generated).1 with
  | none => .error
  | some key => if allocated then .key key else .error

/-- The dispatch function of a channel. The operations of the other one do not look at
the key, but for the check of a token. -/
def dispatch (channel : TokenChannel) (context : TokenContext) (cmd : UInt32)
    (generated : Generated) (allocated : Bool) (answer : List UInt8) : Response :=
  if channel.secure then
    if cmd = kmGetAuthTokenKey then sendAuthTokenKey context generated allocated else .error
  else .operation answer

/-- A token that `Verify` made: with which key, when, for whom and for which
challenge. -/
structure Minted where
  key : Option (List UInt8)
  time : UInt64
  userId : UInt64
  challenge : UInt64
  deriving DecidableEq, Repr

def Minted.token (hmac : List UInt8 → List UInt8 → List UInt8) (minted : Minted) : AuthToken :=
  Gatekeeper.mintAuthToken (minted.key.map hmac) minted.time minted.userId 0 minted.challenge

/-- Both applications since their start. `generated`, `used`, `sent`, `received` and
`minted`: the random keys, those keymaster has used, those it has sent and to whom,
what gatekeeper was answered to `KM_GET_AUTH_TOKEN_KEY`, and its tokens. -/
structure Boot where
  context : TokenContext
  channels : List TokenChannel
  clock : Nat
  generated : List (List UInt8)
  used : List (List UInt8)
  sent : List (Uuid × List UInt8)
  received : List (List UInt8)
  minted : List Minted

def Boot.start (context : TokenContext) : Boot := ⟨context, [], 0, [], [], [], [], []⟩

/-- `gettime` in milliseconds. -/
def Boot.now (boot : Boot) : UInt64 := .ofNat (boot.clock / 1000 / 1000)

def TokenContext.draws (context : TokenContext) : Generated → List (List UInt8)
  | .ok bytes => if context.authTokenKeyInitialized then [] else [bytes]
  | .failed _ => []

/-- `GetAuthTokenKey` is called. -/
def Boot.fetched (boot : Boot) (generated : Generated) : Boot :=
  { boot with
    context := (boot.context.getAuthTokenKey generated).2
    generated := boot.context.draws generated ++ boot.generated
    used := (boot.context.getAuthTokenKey generated).1.toList ++ boot.used }

def TokenChannel.asksKey (channel : TokenChannel) (cmd : UInt32) : Bool :=
  channel.secure && cmd == kmGetAuthTokenKey

def Boot.handleMsg (boot : Boot) (channel : TokenChannel) (cmd : UInt32) (generated : Generated)
    (allocated : Bool) (answer : List UInt8) : Boot :=
  let response := dispatch channel boot.context cmd generated allocated answer
  let after := if channel.asksKey cmd then boot.fetched generated else boot
  { after with
    sent :=
      match response with
      | .key bytes => (channel.uuid, bytes) :: boot.sent
      | _ => boot.sent
    received :=
      if channel.asksKey cmd ∧ channel.uuid = gatekeeperUuid then response.payload :: boot.received
      else boot.received }

/-- The steps of a boot. With `answered`, a request for the key is not answered with an
error. -/
inductive Boot.Step (answered : Bool) : Boot → Boot → Prop where
  | tick {boot : Boot} (clock : Nat) (later : boot.clock ≤ clock) :
      Boot.Step answered boot { boot with clock := clock }
  | connect {boot : Boot} {uuid : Uuid} {secure allocated : Bool} {channel : TokenChannel}
      (opened : keymasterCtxOpen uuid secure allocated = some channel) :
      Boot.Step answered boot { boot with channels := channel :: boot.channels }
  | close {boot : Boot} {channels : List TokenChannel} (fewer : channels ⊆ boot.channels) :
      Boot.Step answered boot { boot with channels := channels }
  | message {boot : Boot} {channel : TokenChannel} {cmd : UInt32} {generated : Generated}
      {allocated : Bool} {answer : List UInt8} (member : channel ∈ boot.channels)
      (fine : answered = true → channel.asksKey cmd = true →
        dispatch channel boot.context cmd generated allocated answer ≠ .error) :
      Boot.Step answered boot (boot.handleMsg channel cmd generated allocated answer)
  | validate {boot : Boot} (generated : Generated) :
      Boot.Step answered boot (boot.fetched generated)
  | verify {boot : Boot} {key : Option (List UInt8)} (userId challenge : UInt64)
      (known : ∀ bytes, key = some bytes → bytes ∈ boot.received) :
      Boot.Step answered boot
        { boot with minted := ⟨key, boot.now, userId, challenge⟩ :: boot.minted }

end Trusty.Keymaster
