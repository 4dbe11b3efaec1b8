import Trusty.Keymaster.Enforcement

/-!
# Operations

`android_keymaster.cpp` and `operation_table.cpp`: an operation begins, goes on and
ends. What a request meets (the key in its blob, results of the cryptography,
allocations that fail) is part of it.
-/

namespace Trusty.Keymaster

/-- `BeginOperationRequest`, with what happens to it. -/
structure BeginRequest where
  policy : Policy
  purpose : Purpose
  additionalParams : AuthList
  /-- `LoadKey`: the two lists of the key. -/
  loaded : Except KeymasterError (AuthList × AuthList)
  /-- `GetOperationFactory` finds one. -/
  factory : Bool
  /-- `CreateOperation`. -/
  created : Except KeymasterError Unit
  /-- `CreateKeyId`. -/
  keyId : Option UInt64
  /-- `Operation::Begin`. -/
  begun : KeymasterError
  /-- The copy that `SetAuthorizations` makes can be allocated. -/
  copied : Bool
  tableAllocated : Bool
  /-- `RAND_bytes`. -/
  random : Option UInt64

/-- `Operation`, with the request that began it and the authorizations of its
key, which the source does not keep. -/
structure Operation where
  purpose : Purpose
  keyId : UInt64
  authorizations : AuthList
  request : BeginRequest
  key : AuthList

structure TableEntry where
  handle : UInt64
  operation : Option Operation

/-- `AndroidKeymaster`. -/
structure Device where
  enforcement : Enforcement
  tableSize : Nat
  table : Option (List TableEntry)

/-- The place that `OperationTable::Add` takes. -/
def placeOperation (handle : UInt64) (operation : Operation) :
    List TableEntry → Option (List TableEntry)
  | [] => none
  | entry :: rest =>
    match entry.operation with
    | none => some (⟨handle, some operation⟩ :: rest)
    | some _ => (placeOperation handle operation rest).map (entry :: ·)

variable (device : Device)

/-- The table that `OperationTable::Add` works with. -/
def Device.allocateTable (allocated : Bool) : Option (List TableEntry) :=
  match device.table with
  | some entries => some entries
  | none => if allocated then some (List.replicate device.tableSize ⟨0, none⟩) else none

def Device.add (operation : Operation) : KeymasterError × Device :=
  match device.allocateTable operation.request.tableAllocated with
  | none => (.memoryAllocationFailed, device)
  | some entries =>
    let allocated := { device with table := some entries }
    match operation.request.random with
    | none => (.unknownError, allocated)
    | some handle =>
      if handle = 0 then (.unknownError, allocated)
      else
        match placeOperation handle operation entries with
        | none => (.tooManyOperations, allocated)
        | some placed => (.ok, { device with table := some placed })

def Device.find (handle : UInt64) : Option Operation :=
  if handle = 0 then none
  else
    match device.table with
    | none => none
    | some entries =>
      match entries.find? (·.handle == handle) with
      | none => none
      | some entry => entry.operation

/-- The loop of `OperationTable::Delete`. -/
def deleteEntry (handle : UInt64) : List TableEntry → List TableEntry
  | [] => []
  | entry :: rest =>
    if entry.handle = handle then ⟨0, none⟩ :: rest else entry :: deleteEntry handle rest

def Device.delete (handle : UInt64) : Device :=
  { device with table := device.table.map (deleteEntry handle) }

/-- The call of `AuthorizeBegin` that a request leads to. -/
def BeginRequest.call (request : BeginRequest) (keyId : UInt64) (key : AuthList) : BeginCall where
  policy := request.policy
  purpose := request.purpose
  keyid := keyId
  authSet := key
  operationParams := request.additionalParams

/-- The operation that a request leads to. A copy of the authorizations that
cannot be allocated is an empty set. -/
def BeginRequest.operation (request : BeginRequest) (keyId : UInt64) (key : AuthList) :
    Operation where
  purpose := request.purpose
  keyId := keyId
  authorizations := if request.copied then key else []
  request := request
  key := key

/-- `BeginOperation`. `Key::Key` puts the two lists of the key one behind the
other. -/
def Device.beginOperation (request : BeginRequest) : KeymasterError × Device :=
  match request.loaded with
  | .error error => (error, device)
  | .ok (hwEnforced, swEnforced) =>
    let key := hwEnforced ++ swEnforced
    if (AuthList.find key Tag.algorithm).isNone then (.unknownError, device)
    else if !request.factory then (.unsupportedPurpose, device)
    else
      match request.created with
      | .error error => (error, device)
      | .ok () =>
        match request.keyId with
        | none => (.unknownError, device)
        | some keyId =>
          match device.enforcement.authorizeOperationBegin (request.call keyId key) with
          | (.ok, tables) =>
            let authorized := { device with enforcement := tables }
            if request.begun = .ok then authorized.add (request.operation keyId key)
            else (request.begun, authorized)
          | (error, tables) => (error, { device with enforcement := tables })

/-- `UpdateOperationRequest`, and `FinishOperationRequest`. -/
structure GoOnRequest where
  policy : Policy
  opHandle : UInt64
  additionalParams : AuthList
  /-- The copy that `Operation::authorizations` makes can be allocated. -/
  copied : Bool
  /-- `Operation::Update` or `Operation::Finish`. -/
  result : KeymasterError

def GoOnRequest.authorize (request : GoOnRequest) (operation : Operation) : KeymasterError :=
  authorizeOperation request.policy operation.purpose
    (if request.copied then operation.authorizations else []) request.additionalParams
    request.opHandle

def Device.updateOperation (request : GoOnRequest) : KeymasterError × Device :=
  match device.find request.opHandle with
  | none => (.invalidOperationHandle, device)
  | some operation =>
    match request.authorize operation with
    | .ok =>
      if request.result = .ok then (.ok, device)
      else (request.result, device.delete request.opHandle)
    | error => (error, device.delete request.opHandle)

def Device.finishOperation (request : GoOnRequest) : KeymasterError × Device :=
  match device.find request.opHandle with
  | none => (.invalidOperationHandle, device)
  | some operation =>
    match request.authorize operation with
    | .ok => (request.result, device.delete request.opHandle)
    | error => (error, device.delete request.opHandle)

/-- `AbortOperation`, with the result of `Operation::Abort`. -/
def Device.abortOperation (opHandle : UInt64) (aborted : KeymasterError) :
    KeymasterError × Device :=
  match device.find opHandle with
  | none => (.invalidOperationHandle, device)
  | some _ => (aborted, device.delete opHandle)

inductive Request where
  | begin (request : BeginRequest)
  | update (request : GoOnRequest)
  | finish (request : GoOnRequest)
  | abort (opHandle : UInt64) (aborted : KeymasterError)

def Device.serve : Request → KeymasterError × Device
  | .begin request => device.beginOperation request
  | .update request => device.updateOperation request
  | .finish request => device.finishOperation request
  | .abort opHandle aborted => device.abortOperation opHandle aborted

def Device.run (requests : List Request) : Device :=
  requests.foldl (fun current request => (current.serve request).2) device

/-- `AndroidKeymaster::AndroidKeymaster`. -/
def Device.start (enforcement : Enforcement) (tableSize : Nat) : Device :=
  ⟨enforcement, tableSize, none⟩

/-- No copy of the authorizations of a key fails for want of memory. -/
def Request.copies : Request → Bool
  | .begin request => request.copied
  | .update request => request.copied
  | .finish request => request.copied
  | .abort _ _ => true

end Trusty.Keymaster
