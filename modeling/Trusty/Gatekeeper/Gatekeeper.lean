import Trusty.Lib.Interaction

/-!
# Gatekeeper

`gatekeeper.cpp` and the failure records of `trusty_gatekeeper.cpp`. A request is a
program that asks for the time, for records and for the check of a password. The log
of what matters for throttling is not in the source.
-/

namespace Trusty.Gatekeeper

structure FailureRecord where
  secureUserId : UInt64
  lastCheckedTimestamp : UInt64
  failureCounter : UInt32
  deriving DecidableEq, Repr

/-- `password_handle_t`, without the fields that only the signature is about. -/
structure PasswordHandle where
  version : UInt8
  userId : UInt64
  flags : UInt64
  deriving DecidableEq, Repr

def handleVersion : UInt8 := 2

def handleVersionThrottle : UInt8 := 2

def handleFlagThrottleSecure : UInt64 := 1

def PasswordHandle.throttle (handle : PasswordHandle) : Bool :=
  decide (handleVersionThrottle ≤ handle.version)

def PasswordHandle.throttleSecure (handle : PasswordHandle) : Bool :=
  handle.flags &&& handleFlagThrottleSecure != 0

def maxFailureRecords : Nat := 10

def noFailures (userId : UInt64) : FailureRecord := ⟨userId, 0, 0⟩

def getMemoryRecord (records : List FailureRecord) (userId : UInt64) : FailureRecord :=
  (records.find? (·.secureUserId == userId)).getD (noFailures userId)

/-- The index of the oldest record, the last one of those: the loop of
`WriteMemoryRecord`, from the record `idx` on. -/
def oldestFrom (records : List FailureRecord) (idx minIdx : Nat) (minTimestamp : UInt64) : Nat :=
  match records with
  | [] => minIdx
  | record :: rest =>
    if record.lastCheckedTimestamp ≤ minTimestamp then
      oldestFrom rest (idx + 1) idx record.lastCheckedTimestamp
    else
      oldestFrom rest (idx + 1) minIdx minTimestamp

/-- The index that `WriteMemoryRecord` writes to, with the number of records. -/
def memoryIndex (records : List FailureRecord) (record : FailureRecord) : Nat :=
  let idx := records.findIdx (·.secureUserId == record.secureUserId)
  if maxFailureRecords ≤ idx then oldestFrom records 0 0 (~~~0) else idx

def writeMemoryRecord (records : List FailureRecord) (record : FailureRecord) :
    List FailureRecord :=
  let idx := memoryIndex records record
  if idx < records.length then records.set idx record else records ++ [record]

def victim (records : List FailureRecord) (record : FailureRecord) : Option UInt64 :=
  match records[memoryIndex records record]? with
  | some old => if old.secureUserId = record.secureUserId then none else some old.secureUserId
  | none => none

inductive Purpose where
  | count
  | rebase
  | clear
  deriving DecidableEq, Repr

inductive GkOp where
  | getTime
  | drawUserId
  | drawSalt
  | readSecure (uid : UInt32)
  | writeSecure (purpose : Purpose) (uid : UInt32) (record : FailureRecord)
  | readMemory (userId : UInt64)
  | writeMemory (purpose : Purpose) (record : FailureRecord)
  | doVerify (uid : UInt32) (handle : PasswordHandle) (password : Option (List UInt8))
  deriving DecidableEq, Repr

@[reducible] def GkOp.Reply : GkOp → Type
  | .getTime | .drawUserId | .drawSalt => UInt64
  | .readSecure _ => Option FailureRecord
  | .writeSecure _ _ _ | .doVerify _ _ _ => Bool
  | .readMemory _ => FailureRecord
  | .writeMemory _ _ => Unit

abbrev GkM := Interaction GkOp GkOp.Reply

def getTime : GkM UInt64 := .ask .getTime .done

def drawUserId : GkM UInt64 := .ask .drawUserId .done

def drawSalt : GkM UInt64 := .ask .drawSalt .done

def readSecure (uid : UInt32) : GkM (Option FailureRecord) := .ask (.readSecure uid) .done

def writeSecure (purpose : Purpose) (uid : UInt32) (record : FailureRecord) : GkM Bool :=
  .ask (.writeSecure purpose uid record) .done

def readMemory (userId : UInt64) : GkM FailureRecord := .ask (.readMemory userId) .done

def writeMemory (purpose : Purpose) (record : FailureRecord) : GkM Unit :=
  .ask (.writeMemory purpose record) .done

def doVerify (uid : UInt32) (handle : PasswordHandle) (password : Option (List UInt8)) :
    GkM Bool :=
  .ask (.doVerify uid handle password) .done

def getFailureRecord (uid : UInt32) (userId : UInt64) (secure : Bool) :
    GkM (Option FailureRecord) := do
  if secure then
    match ← readSecure uid with
    | none => return none
    | some owner => return if owner.secureUserId = userId then some owner else none
  else
    let record ← readMemory userId
    return some record

def writeFailureRecord (purpose : Purpose) (uid : UInt32) (record : FailureRecord)
    (secure : Bool) : GkM Bool := do
  if secure then
    writeSecure purpose uid record
  else
    writeMemory purpose record
    return true

def clearFailureRecord (uid : UInt32) (userId : UInt64) (secure : Bool) : GkM Bool :=
  writeFailureRecord .clear uid (noFailures userId) secure

def dayInMs : UInt32 := 1000 * 60 * 60 * 24

def failureTimeoutMs : UInt32 := 30000

def computeRetryTimeout (counter : UInt32) : UInt32 :=
  if counter = 0 then 0
  else if counter ≤ 10 then
    if counter % 5 = 0 then failureTimeoutMs else 0
  else if counter < 30 then failureTimeoutMs
  else if counter < 140 then failureTimeoutMs <<< ((counter - 30) / 10)
  else dayInMs

inductive Outcome where
  | ok
  | invalid
  | unknown
  | retry (timeout : UInt32)
  deriving DecidableEq, Repr

/-- `ThrottleRequest`: the response to a request that is refused. -/
def throttleRequest (uid : UInt32) (timestamp : UInt64) (record : FailureRecord)
    (secure : Bool) : GkM (Option Outcome) := do
  let lastChecked := record.lastCheckedTimestamp
  let timeout := computeRetryTimeout record.failureCounter
  if 0 < timeout then
    if timestamp < lastChecked + timeout.toUInt64 ∧ lastChecked < timestamp then
      return some (.retry (timeout.toUInt64 - (timestamp - lastChecked)).toUInt32)
    else if timestamp ≤ lastChecked then
      let written ← writeFailureRecord .rebase uid
        { record with lastCheckedTimestamp := timestamp } secure
      return some (if written then .retry timeout else .unknown)
    else
      return none
  else
    return none

/-- The record that `IncrementFailureRecord` writes. -/
def FailureRecord.increment (record : FailureRecord) (userId timestamp : UInt64) : FailureRecord :=
  { secureUserId := userId
    lastCheckedTimestamp := timestamp
    failureCounter := record.failureCounter + 1 }

def incrementFailureRecord (uid : UInt32) (userId timestamp : UInt64) (record : FailureRecord)
    (secure : Bool) : GkM Bool :=
  writeFailureRecord .count uid (record.increment userId timestamp) secure

/-- The throttling of `Enroll` and `Verify`: the timeout that a failure now
leads to, or the response to a request that goes no further. -/
def countAttempt (uid : UInt32) (handle : PasswordHandle) (timestamp : UInt64) :
    GkM (Except Outcome UInt32) := do
  match ← getFailureRecord uid handle.userId handle.throttleSecure with
  | none => return .error .unknown
  | some record =>
    match ← throttleRequest uid timestamp record handle.throttleSecure with
    | some refused => return .error refused
    | none =>
      let written ←
        incrementFailureRecord uid handle.userId timestamp record handle.throttleSecure
      if written then return .ok (computeRetryTimeout (record.failureCounter + 1))
      else return .error .unknown

/-- `countAttempt`, for a handle that is throttled. -/
def throttled (uid : UInt32) (handle : PasswordHandle) (timestamp : UInt64) :
    GkM (Except Outcome UInt32) :=
  if handle.throttle then countAttempt uid handle timestamp else return .ok 0

def wrongPassword (timeout : UInt32) : Outcome := if 0 < timeout then .retry timeout else .invalid

/-- `EnrollRequest`. Its `user_id` is the Android user. -/
structure EnrollRequest where
  userId : UInt32
  passwordHandle : Option PasswordHandle
  enrolledPassword : Option (List UInt8)
  providedPassword : Option (List UInt8)
  deriving DecidableEq, Repr

structure VerifyRequest where
  userId : UInt32
  passwordHandle : Option PasswordHandle
  providedPassword : Option (List UInt8)
  deriving DecidableEq, Repr

/-- The end of `Enroll`, for a user whose old password was right or who is new. -/
def createHandle (uid : UInt32) (userId : UInt64) : GkM Outcome := do
  let cleared ← clearFailureRecord uid userId true
  if cleared then
    let _ ← drawSalt
    return .ok
  else
    let _ ← clearFailureRecord uid userId false
    let _ ← drawSalt
    return .ok

def enroll (request : EnrollRequest) : GkM Outcome := do
  match request.providedPassword with
  | none => return .invalid
  | some _ =>
    match request.passwordHandle with
    | none =>
      let userId ← drawUserId
      createHandle request.userId userId
    | some handle =>
      if handleVersion < handle.version then
        return .invalid
      else
        let timestamp ← getTime
        match ← throttled request.userId handle timestamp with
        | .error refused => return refused
        | .ok timeout =>
          if ← doVerify request.userId handle request.enrolledPassword then
            createHandle request.userId handle.userId
          else
            return wrongPassword timeout

/-- `Verify`: the outcome, and `request_reenroll`. -/
def verify (request : VerifyRequest) : GkM (Outcome × Bool) := do
  match request.providedPassword, request.passwordHandle with
  | some password, some handle =>
    if handleVersion < handle.version then
      return (.invalid, false)
    else
      let timestamp ← getTime
      match ← throttled request.userId handle timestamp with
      | .error refused => return (refused, false)
      | .ok timeout =>
        if ← doVerify request.userId handle (some password) then
          if handle.throttle then
            let _ ← clearFailureRecord request.userId handle.userId handle.throttleSecure
            return (.ok, false)
          else
            return (.ok, true)
        else
          return (wrongPassword timeout, !handle.throttle)
  | _, _ => return (.invalid, false)

/-- The place of a record: the file of an Android user, or the entry of a secure
user in memory. -/
inductive Place where
  | secure (uid : UInt32)
  | memory (userId : UInt64)
  deriving DecidableEq, Repr

def PasswordHandle.place (handle : PasswordHandle) (uid : UInt32) : Place :=
  if handle.throttleSecure then .secure uid else .memory handle.userId

structure Attempt where
  counter : UInt32
  time : UInt64
  boot : Nat
  deriving DecidableEq, Repr

inductive Entry where
  | counted (place : Place) (attempt : Attempt)
  | cleared (place : Place)
  | dropped (place : Place)
  | evaluated (uid : UInt32) (handle : PasswordHandle) (ok : Bool)
  | drew (userId : UInt64)
  | rebooted
  deriving DecidableEq, Repr

/-- Storage, the memory of the process, the nanoseconds since the last boot, the
number of boots, and the log, with the latest entry first. -/
structure World where
  store : UInt32 → Option FailureRecord
  memory : List FailureRecord
  clock : Nat
  boot : Nat
  log : List Entry

def World.start : World := ⟨fun _ => none, [], 0, 0, []⟩

/-- `GetMillisecondsSinceBoot`. -/
def World.now (world : World) : UInt64 := .ofNat (world.clock / 1000 / 1000)

def Purpose.entries (purpose : Purpose) (place : Place) (record : FailureRecord) (boot : Nat) :
    List Entry :=
  match purpose with
  | .count => [.counted place ⟨record.failureCounter, record.lastCheckedTimestamp, boot⟩]
  | .rebase => []
  | .clear => [.cleared place]

def droppedEntries (gone : Option UInt64) : List Entry :=
  (gone.map fun userId => Entry.dropped (.memory userId)).toList

def World.wroteSecure (world : World) (purpose : Purpose) (uid : UInt32)
    (record : FailureRecord) : World :=
  { world with
    store := Function.update world.store uid (some record)
    log := purpose.entries (.secure uid) record world.boot ++ world.log }

def World.wroteMemory (world : World) (purpose : Purpose) (record : FailureRecord) : World :=
  { world with
    memory := writeMemoryRecord world.memory record
    log := purpose.entries (.memory record.secureUserId) record world.boot ++
      (droppedEntries (victim world.memory record) ++ world.log) }

/-- `gettime` does not fail, and its result is an `int64_t`. -/
inductive Tick : World → World → Prop where
  | tick {world : World} {clock : Nat} (later : world.clock ≤ clock) (range : clock < 2 ^ 63) :
      Tick world { world with clock := clock }

/-- Storage may fail, but what it says it wrote is written. Random numbers and
the check of a password may have any result. -/
def surroundings : Interaction.Environment GkOp GkOp.Reply World where
  move := Tick
  answer
    | world, .getTime, time, after => time = world.now ∧ after = world
    | world, .drawUserId, userId, after => after = { world with log := .drew userId :: world.log }
    | world, .drawSalt, _, after => after = world
    | world, .readSecure uid, found, after => (found = none ∨ found = world.store uid) ∧ after = world
    | world, .writeSecure purpose uid record, written, after =>
      (written = false ∧ after = world) ∨
        (written = true ∧ after = world.wroteSecure purpose uid record)
    | world, .readMemory userId, record, after =>
      record = getMemoryRecord world.memory userId ∧ after = world
    | world, .writeMemory purpose record, _, after => after = world.wroteMemory purpose record
    | world, .doVerify uid handle password, ok, after =>
      (password = none → ok = false) ∧
        after = { world with log := .evaluated uid handle ok :: world.log }

inductive Request where
  | enroll (request : EnrollRequest)
  | verify (request : VerifyRequest)
  deriving DecidableEq, Repr

inductive Response where
  | enrolled (outcome : Outcome)
  | verified (outcome : Outcome) (requestReenroll : Bool)
  deriving DecidableEq, Repr

def Request.program : Request → GkM Response
  | .enroll request => do
      let outcome ← Gatekeeper.enroll request
      return .enrolled outcome
  | .verify request => do
      let (outcome, requestReenroll) ← Gatekeeper.verify request
      return .verified outcome requestReenroll

structure System where
  world : World
  running : Option (GkM Response)

def System.start : System := ⟨.start, none⟩

def World.rebooted (world : World) : World :=
  { world with memory := [], clock := 0, boot := world.boot + 1, log := .rebooted :: world.log }

/-- The steps of a system. Power may be cut anywhere, if `reboots` allows it. -/
inductive Step (reboots : Bool) : System → System → Prop where
  | request {world} (request : Request) :
      Step reboots ⟨world, none⟩ ⟨world, some request.program⟩
  | tick {world later running} (ticks : Tick world later) :
      Step reboots ⟨world, running⟩ ⟨later, running⟩
  | answer {world op next reply after} (answered : surroundings.answer world op reply after) :
      Step reboots ⟨world, some (.ask op next)⟩ ⟨after, some (next reply)⟩
  | respond {world response} : Step reboots ⟨world, some (.done response)⟩ ⟨world, none⟩
  | reboot {world running} (allowed : reboots = true) :
      Step reboots ⟨world, running⟩ ⟨world.rebooted, none⟩

abbrev Reached (reboots : Bool) (system : System) : Prop :=
  Relation.ReflTransGen (Step reboots) .start system

end Trusty.Gatekeeper
