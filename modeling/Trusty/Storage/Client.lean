import Trusty.Storage.Transaction

/-!
# Client sessions

The request handlers of `client_tipc.c`, the dispatch of a message, and runs
with any number of sessions.
-/

namespace Trusty.Storage

open FileM

inductive StorageErr where
  | noError
  | generic
  | notValid
  | unimplemented
  | access
  | notFound
  | exist
  | transact
  deriving DecidableEq, Repr

/-- The result of a message, and the handle, size or byte count sent with it. -/
structure Response where
  result : StorageErr
  out : Option UInt64
  deriving DecidableEq, Repr

def Response.ofResult (result : StorageErr) : Response := ⟨result, none⟩

/-- The flags of `STORAGE_FILE_OPEN`. -/
structure OpenFlags where
  create : Bool
  createExclusive : Bool
  truncate : Bool
  deriving DecidableEq, Repr

def OpenFlags.createMode (flags : OpenFlags) : FileCreateMode :=
  if flags.create then
    if flags.createExclusive then .createExclusive else .create
  else
    .noCreate

/-- The commands, with the payload that each handler reads. `malformed` is a
payload of the wrong size or with unknown flags. -/
inductive Request where
  | fileDelete (name : FilePath)
  | fileOpen (flags : OpenFlags) (name : FilePath)
  | fileClose (handle : HandleId)
  | fileRead (handle : HandleId) (offset : UInt64) (size : UInt32)
  | fileWrite (handle : HandleId) (offset : UInt64) (length : UInt32)
  | fileGetSize (handle : HandleId)
  | fileSetSize (handle : HandleId) (size : UInt64)
  | endTransaction
  | malformed
  | unsupported
  deriving DecidableEq, Repr

/-- A message: its command, and `STORAGE_MSG_FLAG_TRANSACT_COMPLETE`. -/
structure Message where
  request : Request
  complete : Bool
  deriving DecidableEq, Repr

/-- The character class of `is_valid_name`. -/
def isValidChar (char : UInt8) : Bool :=
  (97 ≤ char && char ≤ 122) || (65 ≤ char && char ≤ 90) || (48 ≤ char && char ≤ 57) ||
    char == 46 || char == 45 || char == 95

def isValidName (name : FilePath) : Bool := !name.isEmpty && name.all isValidChar

def fsPathMax : Nat := 64 + 128

def getPath (uuidText name : FilePath) : Option FilePath :=
  if uuidText.length + name.length ≥ fsPathMax then none else some (uuidText ++ name)

variable (session : SessionId)

def requestPath (name : FilePath) : FileM (Option FilePath) := do
  if isValidName name then
    return getPath ((← get).uuidText session) name
  else
    return none

def storageMaxOpenFiles : Nat := 128

/-- `create_file_handle`: the first free slot. -/
def Transaction.freeHandle (tr : Transaction) : Option HandleId :=
  (List.range storageMaxOpenFiles).find? fun handle => !tr.openFiles.contains handle

/-- `get_file_handle`. -/
def Transaction.hasHandle (tr : Transaction) (handle : HandleId) : Bool :=
  tr.openFiles.contains handle

def commitIfComplete (complete : Bool) : FileM StorageErr := do
  if complete then
    transactionComplete session
    if (← getTr session).failed then
      return .generic
    else
      return .noError
  else
    return .noError

def storageFileDelete (name : FilePath) (complete : Bool) :
    FileM StorageErr := do
  match ← requestPath session name with
  | none => return .notValid
  | some path =>
    let deleted ← fileDelete session path
    if (← getTr session).failed then
      return .generic
    else if deleted then
      commitIfComplete session complete
    else
      return .notFound

/-- The part of `storage_file_open` behind `file_open`. A handle whose
transaction has failed is closed again. -/
def storageFileOpened (handle : HandleId) (flags : OpenFlags)
    (complete : Bool) : FileM Response := do
  let file ← getFile session handle
  onlyIf (flags.truncate && file.size != 0) (fileSetSize session handle 0)
  if (← getTr session).failed then
    fileClose session handle
    return .ofResult .generic
  else
    match ← commitIfComplete session complete with
    | .noError => return ⟨.noError, some (UInt64.ofNat handle)⟩
    | failure =>
      fileClose session handle
      return .ofResult failure

def storageFileOpen (flags : OpenFlags) (name : FilePath)
    (complete : Bool) : FileM Response := do
  match ← requestPath session name with
  | none => return .ofResult .notValid
  | some path =>
    match (← getTr session).freeHandle with
    | none => return .ofResult .notValid
    | some handle =>
      if ← fileOpen session path handle flags.createMode then
        storageFileOpened session handle flags complete
      else if (← getTr session).failed then
        return .ofResult .generic
      else if flags.create then
        return .ofResult .exist
      else
        return .ofResult .notFound

def storageFileClose (handle : HandleId) (complete : Bool) :
    FileM StorageErr := do
  if (← getTr session).hasHandle handle then
    fileClose session handle
    commitIfComplete session complete
  else
    return .notValid

/-- The bytes of one block that a transfer at `offset` covers. -/
def transferLength (blockSize offset bytesLeft : UInt64) : UInt64 :=
  let blockOffset := offset % blockSize
  if blockOffset + bytesLeft > blockSize then blockSize - blockOffset else bytesLeft

/-- The loop of `storage_file_read`; it takes at most `fuel` blocks. -/
def readBlocks (session : SessionId) (handle : HandleId) (blockSize : UInt64) :
    Nat → UInt64 → UInt64 → FileM Bool
  | 0, _, _ => return true
  | fuel + 1, offset, bytesLeft => do
      if bytesLeft = 0 then
        return true
      else
        if ← fileGetBlock session handle then
          let length := transferLength blockSize offset bytesLeft
          readBlocks session handle blockSize fuel (offset + length) (bytesLeft - length)
        else
          return false

/-- `STORAGE_MAX_BUFFER_SIZE - sizeof(struct storage_msg)`. -/
def storageMaxRead : UInt32 := 4096 - 24

def storageFileRead (handle : HandleId) (offset : UInt64) (size : UInt32) :
    FileM Response := do
  if (← getTr session).hasHandle handle then
    let file ← getFile session handle
    if size > storageMaxRead || offset > file.size then
      return .ofResult .notValid
    else
      let bytesLeft :=
        if offset + size.toUInt64 > file.size then file.size - offset else size.toUInt64
      if ← readBlocks session handle (← get).fileBlockSize bytesLeft.toNat offset bytesLeft then
        return ⟨.noError, some bytesLeft⟩
      else
        return .ofResult .generic
  else
    return .ofResult .notValid

/-- The loop of `storage_file_write`: the offset behind the last byte. -/
def writeBlocks (session : SessionId) (handle : HandleId) (blockSize : UInt64) :
    Nat → UInt64 → UInt64 → FileM (Option UInt64)
  | 0, offset, _ => return some offset
  | fuel + 1, offset, bytesLeft => do
      if bytesLeft = 0 then
        return some offset
      else
        if ← fileGetBlockWrite session handle then
          fileBlockPutDirty session handle
          let length := transferLength blockSize offset bytesLeft
          writeBlocks session handle blockSize fuel (offset + length) (bytesLeft - length)
        else
          return none

def storageFileWrite (handle : HandleId) (offset : UInt64)
    (length : UInt32) (complete : Bool) : FileM StorageErr := do
  if (← getTr session).hasHandle handle && length != 0 then
    if offset > (← getFile session handle).size then
      return .notValid
    else
      match ← writeBlocks session handle (← get).fileBlockSize length.toNat offset
          length.toUInt64 with
      | some stop =>
        onlyIf (stop > (← getFile session handle).size) (fileSetSize session handle stop)
        if (← getTr session).failed then
          return .generic
        else
          commitIfComplete session complete
      | none =>
        onlyIf (!(← getTr session).failed) (transactionFail session)
        return .generic
  else
    return .notValid

def storageFileGetSize (handle : HandleId) : FileM Response := do
  if (← getTr session).hasHandle handle then
    match ← fileGetSize session handle with
    | some size => return ⟨.noError, some size⟩
    | none => return .ofResult .notValid
  else
    return .ofResult .notValid

def storageFileSetSize (handle : HandleId) (size : UInt64)
    (complete : Bool) : FileM StorageErr := do
  if (← getTr session).hasHandle handle then
    let file ← getFile session handle
    if size > file.size then
      return .notValid
    else
      onlyIf (size != file.size) (fileSetSize session handle size)
      onlyIf complete (transactionComplete session)
      if (← getTr session).failed then
        return .generic
      else
        return .noError
  else
    return .notValid

/-- `STORAGE_END_TRANSACTION` in `client_handle_msg`. -/
def endTransaction (complete : Bool) : FileM StorageErr := do
  if complete then
    onlyIf (← getTr session).active (transactionComplete session)
    if (← getTr session).failed then
      modifyTr session fun tr => { tr with failed := false }
      return .transact
    else
      return .noError
  else
    onlyIf (← getTr session).active (transactionFail session)
    modifyTr session fun tr => { tr with failed := false }
    return .noError

/-- The `switch` of `client_handle_msg`. -/
def dispatch (complete : Bool) : Request → FileM Response
  | .fileDelete name => return .ofResult (← storageFileDelete session name complete)
  | .fileOpen flags name => storageFileOpen session flags name complete
  | .fileClose handle => return .ofResult (← storageFileClose session handle complete)
  | .fileRead handle offset size => storageFileRead session handle offset size
  | .fileWrite handle offset length =>
    return .ofResult (← storageFileWrite session handle offset length complete)
  | .fileGetSize handle => storageFileGetSize session handle
  | .fileSetSize handle size =>
    return .ofResult (← storageFileSetSize session handle size complete)
  | .malformed => return .ofResult .notValid
  | .endTransaction | .unsupported => return .ofResult .unimplemented

def clientHandleMsg (message : Message) : FileM Response := do
  if message.request = .endTransaction then
    return .ofResult (← endTransaction session message.complete)
  else
    if (← getTr session).failed then
      onlyIf message.complete (modifyTr session fun tr => { tr with failed := false })
      return .ofResult .transact
    else
      onlyIf (!(← getTr session).active) (transactionActivate session)
      dispatch session message.complete message.request

inductive Event where
  | connect (session : SessionId) (uuidText : FilePath)
  | disconnect (session : SessionId)
  | message (session : SessionId) (message : Message)
  deriving DecidableEq, Repr

def clientConnect (uuidText : FilePath) : FileM Unit := do
  let state ← get
  if state.transactions.contains session then
    throw .impossible
  else
    set
      { state with
        transactions := state.transactions ++ [session]
        tr := Function.update state.tr session .init
        uuidText := Function.update state.uuidText session uuidText }

def clientDisconnect : FileM Unit := do
  let tr ← getTr session
  onlyIf (tr.active && !tr.failed) (transactionFail session)
  modifyTr session fun tr => { tr with openFiles := [] }
  assert .notActive !(← getTr session).active
  modify fun state => { state with transactions := state.transactions.erase session }

def handleEvent : Event → FileM Unit
  | .connect session uuidText => clientConnect session uuidText
  | .disconnect session => do
      if (← get).transactions.contains session then
        clientDisconnect session
      else
        throw .impossible
  | .message session message => do
      if (← get).transactions.contains session then
        let _ ← clientHandleMsg session message
      else
        throw .impossible

end Trusty.Storage
