import Trusty.Storage.Basic

/-!
# File handles and transactions

The state that `file.c`, `transaction.c` and `client_tipc.c` share: file entries, the
trees that name them, transactions and their handles. The layers below answer each
call; a failure, or a cache entry that cannot be written back, fails a transaction.
-/

namespace Trusty.Storage

abbrev FilePath := List UInt8

abbrev SessionId := Nat

/-- A slot of `session->files`. -/
abbrev HandleId := Nat

structure FileEntry where
  path : FilePath
  size : DataBlock
  blockMap : BlockMac
  deriving DecidableEq, Repr

structure FileHandle where
  toCommitBlockMac : BlockMac
  committedBlockMac : BlockMac
  blockMac : BlockMac
  toCommitSize : DataBlock
  size : DataBlock
  usedByTr : Bool
  deriving DecidableEq, Repr

/-- `calloc` in `create_file_handle`. -/
def FileHandle.empty : FileHandle := ⟨.clear, .clear, .clear, 0, 0, false⟩

def FileHandle.changed (file : FileHandle) : Bool :=
  !file.committedBlockMac.sameBlock file.blockMac

/-- The keys and data of a block tree of file entries, in the order in which
`block_tree_path_next` visits them. -/
abbrev FileTree := List (DataBlock × BlockMac)

namespace FileTree

/-- `block_tree_insert_block_mac`: behind the entries with the same key. -/
def insert (key : DataBlock) (data : BlockMac) : FileTree → FileTree
  | [] => [(key, data)]
  | entry :: rest =>
    if key < entry.1 then (key, data) :: entry :: rest else entry :: insert key data rest

def find (tree : FileTree) (key : DataBlock) : Option BlockMac :=
  (tree.find? fun entry => entry.1 == key).map Prod.snd

def holds (tree : FileTree) (key block : DataBlock) : Bool :=
  tree.any fun entry => entry.1 == key && entry.2.block == block

def remove (key block : DataBlock) (tree : FileTree) : FileTree :=
  tree.eraseP fun entry => entry.1 == key && entry.2.block == block

/-- `block_tree_update_block_mac` with the key kept. -/
def update (key block : DataBlock) (data : BlockMac) : FileTree → FileTree
  | [] => []
  | entry :: rest =>
    if entry.1 == key && entry.2.block == block then (key, data) :: rest
    else entry :: update key block data rest

end FileTree

/-- `struct transaction`. The block sets hold the blocks of file entries;
`active` is membership in `fs->allocated`. -/
structure Transaction where
  openFiles : List HandleId
  file : HandleId → FileHandle
  failed : Bool
  complete : Bool
  active : Bool
  allocated : List DataBlock
  freed : List DataBlock
  filesAdded : FileTree
  filesUpdated : FileTree
  filesRemoved : FileTree

/-- `transaction_init` without `activate`. -/
def Transaction.init : Transaction where
  openFiles := []
  file := fun _ => .empty
  failed := false
  complete := false
  active := false
  allocated := []
  freed := []
  filesAdded := []
  filesUpdated := []
  filesRemoved := []

inductive Assertion where
  | notFailed
  | active
  | notActive
  | notComplete
  | validBlock
  | found
  | rootChanged
  | oldBlock
  | notAdded
  | updatedKey
  | sameMac
  | stagedMac
  | newBlock
  | otherUnmodified
  | ownBlockMac
  | ownSize
  | superBlockWritten
  | noOpenFiles
  deriving DecidableEq, Repr

/-- Why an execution ends early: a failed assertion, no answer, or one that the layers
below cannot give. -/
inductive Stop where
  | assertion (which : Assertion)
  | noAnswer
  | impossible
  deriving DecidableEq, Repr

/-- What the layers below answer to one call: success, whether a file block is mapped
and has to be copied, whether two freed sets share a data block, the block allocated
and its mac, and the transactions that lose a dirty block to a failed write back. -/
structure Answer where
  ok : Bool
  mapped : Bool
  copy : Bool
  overlap : Bool
  block : DataBlock
  mac : Mac
  writeBacks : List SessionId
  deriving DecidableEq, Repr

/-- The file system, its sessions and the environment. `entries`: the blocks of file
entries; `uuidText`: what `get_path` puts before names. Bookkeeping: `cleared`, the
handles that `file_transaction_failed` has cleared since staged changes were last
reverted. -/
structure FileState where
  hash : FilePath → DataBlock
  fileBlockSize : UInt64
  files : FileTree
  entries : DataBlock → FileEntry
  transactions : List SessionId
  tr : SessionId → Transaction
  uuidText : SessionId → FilePath
  answers : List Answer
  cleared : List (SessionId × HandleId)

abbrev FileM := EStateM Stop FileState

namespace FileM

def assert (which : Assertion) (condition : Bool) : FileM Unit :=
  if condition then pure () else throw (.assertion which)

def onlyIf (condition : Bool) (action : FileM Unit) : FileM Unit :=
  if condition then action else pure ()

variable (session : SessionId)

def getTr : FileM Transaction :=
  return (← get).tr session

def modifyTr (change : Transaction → Transaction) : FileM Unit :=
  modify fun state =>
    { state with tr := Function.update state.tr session (change (state.tr session)) }

def getFile (handle : HandleId) : FileM FileHandle :=
  return ((← get).tr session).file handle

def modifyFile (handle : HandleId) (change : FileHandle → FileHandle) :
    FileM Unit :=
  modifyTr session fun tr =>
    { tr with file := Function.update tr.file handle (change (tr.file handle)) }

def getEntry (blockMac : BlockMac) : FileM FileEntry :=
  return (← get).entries blockMac.block

def setEntry (block : DataBlock) (entry : FileEntry) : FileM Unit :=
  modify fun state => { state with entries := Function.update state.entries block entry }

def nextAnswer : FileM Answer := do
  let state ← get
  match state.answers with
  | [] => throw .noAnswer
  | answer :: rest =>
    set { state with answers := rest }
    return answer

end FileM

open FileM

/-- `file_read_size`. A write back that fails during this read is answered at
the call before it: it concerns other transactions only. -/
def fileReadSize (blockMac : BlockMac) : FileM (Option DataBlock) := do
  if !blockMac.valid then
    return some 0
  else
    let answer ← nextAnswer
    if answer.ok then
      return some (← getEntry blockMac).size
    else
      return none

/-- The loop body of `file_transaction_failed`. -/
def fileRestore (session : SessionId) (handle : HandleId) : FileM Unit := do
  let file ← getFile session handle
  if file.changed then
    match ← fileReadSize file.committedBlockMac with
    | some size =>
      modifyFile session handle fun file =>
        { file with blockMac := file.committedBlockMac, size := size, usedByTr := false }
    | none =>
      modifyFile session handle fun file =>
        { file with
          blockMac := .clear, committedBlockMac := .clear, size := 0, usedByTr := false }
      modify fun state => { state with cleared := (session, handle) :: state.cleared }
  else
    modifyFile session handle fun file => { file with usedByTr := false }

def fileTransactionFailed (session : SessionId) : FileM Unit := do
  (← getTr session).openFiles.forM (fileRestore session)

def transactionFail (session : SessionId) : FileM Unit := do
  let tr ← getTr session
  assert .notFailed !tr.failed
  modifyTr session fun tr => { tr with failed := true }
  if tr.complete then
    return ()
  else
    assert .active tr.active
    modifyTr session fun tr => { tr with active := false }
    fileTransactionFailed session

/-- One cache entry of `session` cannot be written back. -/
def failWriteBack (session : SessionId) : FileM Unit := do
  let tr ← getTr session
  onlyIf (tr.active && !tr.failed) (transactionFail session)

/-- A call for `session` to a layer below that may fail the transaction, and does
nothing once it has failed. It can succeed and leave it failed, by a write back. -/
def attempt (session : SessionId) : FileM (Option Answer) := do
  if (← getTr session).failed then
    return none
  else
    let answer ← nextAnswer
    answer.writeBacks.forM failWriteBack
    if answer.ok then
      return some answer
    else
      if (← getTr session).failed then
        return none
      else
        transactionFail session
        return none

def FileState.inUse (state : FileState) (block : DataBlock) : Bool :=
  state.files.any (fun entry => entry.2.block == block) ||
    state.transactions.any fun session =>
      (state.tr session).active && (state.tr session).allocated.contains block

def blockAllocate (session : SessionId) : FileM (Option DataBlock) := do
  match ← attempt session with
  | none => return none
  | some answer =>
    if answer.block == 0 || (← get).inUse answer.block then
      throw .impossible
    else
      modifyTr session fun tr => { tr with allocated := answer.block :: tr.allocated }
      return some answer.block

def changeTree (session : SessionId) (change : Transaction → Transaction) : FileM Unit := do
  match ← attempt session with
  | none => return ()
  | some _ => modifyTr session change

/-- A block of the transaction itself is given up, another one is freed when
the transaction completes. -/
def Transaction.free (block : DataBlock) (tr : Transaction) : Transaction :=
  if tr.allocated.contains block then
    { tr with allocated := tr.allocated.erase block }
  else
    { tr with freed := block :: tr.freed }

def blockFree (session : SessionId) (block : DataBlock) : FileM Unit :=
  changeTree session (Transaction.free block)

end Trusty.Storage
