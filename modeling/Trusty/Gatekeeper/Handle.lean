import Trusty.Gatekeeper.Gatekeeper
import Trusty.Keymaster.Enforcement

/-!
# Handles and tokens

`Enroll` and `Verify` once more, with the salt and signature of handles, the check of
a password and the token. `sign` is `ComputeSignature` with the key for passwords.
-/

/-- The bytes that the `hmac` of a token is about. -/
def Trusty.Keymaster.AuthToken.hashData (token : Keymaster.AuthToken) : List UInt8 :=
  token.version :: (LittleEndian.encode 8 token.challenge.toNat ++
    (LittleEndian.encode 8 token.userId.toNat ++
      (LittleEndian.encode 8 token.authenticatorId.toNat ++
        (LittleEndian.encode 4 token.authenticatorType.toNat ++
          LittleEndian.encode 8 token.timestamp.toNat))))

namespace Trusty.Gatekeeper

open Keymaster (AuthToken hwAuthTokenVersion hwAuthPassword swap32 swap64)

variable {Sig : Type}

/-- `password_handle_t`. -/
structure SignedHandle (Sig : Type) extends PasswordHandle where
  salt : UInt64
  signature : Sig
  hardwareBacked : Bool
  deriving DecidableEq, Repr

/-- What `ComputePasswordSignature` signs: the salt, the fields of the handle up to
`flags`, and the password. -/
def PasswordHandle.toSign (handle : PasswordHandle) (salt : UInt64) (password : List UInt8) :
    List UInt8 :=
  LittleEndian.encode 8 salt.toNat ++
    (handle.version :: (LittleEndian.encode 8 handle.userId.toNat ++
      (LittleEndian.encode 8 handle.flags.toNat ++ password)))

/-- The process between two requests. `keyed`: there is a key for passwords.
`tokenSign`: `ComputeSignature` with the key for tokens, if `GetAuthTokenKey`
succeeds. -/
structure Device (Sig : Type) where
  sign : List UInt8 → Sig
  keyed : Bool
  hardwareBacked : Bool
  tokenSign : Option (List UInt8 → List UInt8)

def createPasswordHandle (device : Device Sig) (salt : UInt64) (fields : PasswordHandle)
    (password : List UInt8) : Option (SignedHandle Sig) :=
  if device.keyed then
    some { fields with
      salt := salt
      signature := device.sign (fields.toSign salt password)
      hardwareBacked := device.hardwareBacked }
  else none

/-- `DoVerify`. -/
def checkPassword [DecidableEq Sig] (device : Device Sig) (expected : SignedHandle Sig) :
    Option (List UInt8) → Bool
  | none => false
  | some password =>
    match createPasswordHandle device expected.salt expected.toPasswordHandle password with
    | none => false
    | some generated => decide (generated.signature = expected.signature)

def mintAuthToken (tokenSign : Option (List UInt8 → List UInt8))
    (timestamp userId authenticatorId challenge : UInt64) : AuthToken :=
  let token : AuthToken :=
    { version := hwAuthTokenVersion
      challenge := challenge
      userId := userId
      authenticatorId := authenticatorId
      authenticatorType := swap32 hwAuthPassword
      timestamp := swap64 timestamp
      hmac := List.replicate 32 0 }
  match tokenSign with
  | some sign => { token with hmac := sign token.hashData }
  | none => token

/-- `EnrollRequest`. -/
structure SignedEnroll (Sig : Type) where
  userId : UInt32
  passwordHandle : Option (SignedHandle Sig)
  enrolledPassword : Option (List UInt8)
  providedPassword : Option (List UInt8)

/-- `VerifyRequest`. -/
structure SignedVerify (Sig : Type) where
  userId : UInt32
  challenge : UInt64
  passwordHandle : Option (SignedHandle Sig)
  providedPassword : Option (List UInt8)

def clearedFlags (uid : UInt32) (userId : UInt64) : GkM UInt64 := do
  let cleared ← clearFailureRecord uid userId true
  if cleared then
    return handleFlagThrottleSecure
  else
    let _ ← clearFailureRecord uid userId false
    return 0

/-- The end of `Enroll`. -/
def issueHandle (device : Device Sig) (uid : UInt32) (userId : UInt64) (password : List UInt8) :
    GkM (Except Outcome (SignedHandle Sig)) := do
  let flags ← clearedFlags uid userId
  let salt ← drawSalt
  match createPasswordHandle device salt ⟨handleVersion, userId, flags⟩ password with
  | none => return .error .invalid
  | some handle => return .ok handle

variable [DecidableEq Sig]

/-- `Enroll`: the handle, or what is answered without one. -/
def enrollSigned (device : Device Sig) (request : SignedEnroll Sig) :
    GkM (Except Outcome (SignedHandle Sig)) := do
  match request.providedPassword with
  | none => return .error .invalid
  | some password =>
    match request.passwordHandle with
    | none =>
      let userId ← drawUserId
      issueHandle device request.userId userId password
    | some handle =>
      if handleVersion < handle.version then
        return .error .invalid
      else
        let timestamp ← getTime
        match ← throttled request.userId handle.toPasswordHandle timestamp with
        | .error refused => return .error refused
        | .ok timeout =>
          if checkPassword device handle request.enrolledPassword then
            issueHandle device request.userId handle.userId password
          else
            return .error (wrongPassword timeout)

/-- `Verify`: the token, or what is answered without one, and `request_reenroll`. -/
def verifySigned (device : Device Sig) (request : SignedVerify Sig) :
    GkM (Except Outcome AuthToken × Bool) := do
  match request.providedPassword, request.passwordHandle with
  | some password, some handle =>
    if handleVersion < handle.version then
      return (.error .invalid, false)
    else
      let timestamp ← getTime
      match ← throttled request.userId handle.toPasswordHandle timestamp with
      | .error refused => return (.error refused, false)
      | .ok timeout =>
        if checkPassword device handle (some password) then
          let token :=
            mintAuthToken device.tokenSign timestamp handle.userId 0 request.challenge
          if handle.throttle then
            let _ ← clearFailureRecord request.userId handle.userId handle.throttleSecure
            return (.ok token, false)
          else
            return (.ok token, true)
        else
          return (.error (wrongPassword timeout), !handle.throttle)
  | _, _ => return (.error .invalid, false)

/-- The same program with every check of a password decided. -/
def settle {α : Type} (verdict : Bool) : GkM α → GkM α
  | .done value => .done value
  | .ask (.doVerify ..) next => settle verdict (next verdict)
  | .ask op next => .ask op fun reply => settle verdict (next reply)

def SignedEnroll.plain (request : SignedEnroll Sig) : EnrollRequest where
  userId := request.userId
  passwordHandle := request.passwordHandle.map (·.toPasswordHandle)
  enrolledPassword := request.enrolledPassword
  providedPassword := request.providedPassword

def SignedVerify.plain (request : SignedVerify Sig) : VerifyRequest where
  userId := request.userId
  passwordHandle := request.passwordHandle.map (·.toPasswordHandle)
  providedPassword := request.providedPassword

def outcomeOf {α : Type} : Except Outcome α → Outcome
  | .ok _ => .ok
  | .error refused => refused

end Trusty.Gatekeeper
