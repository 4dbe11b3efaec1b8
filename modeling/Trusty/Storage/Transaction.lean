import Trusty.Storage.File

/-!
# Completing a transaction

`transaction_complete` with the functions of `file.c`: the changes of a transaction are
staged in every handle, written with the super block, and then applied or reverted.
-/

namespace Trusty.Storage

open FileM

/-- The handle belongs to the file that moves from `old` to `new`. -/
def FileHandle.related (file : FileHandle) (old new : BlockMac) : Bool :=
  file.committedBlockMac.sameBlock old &&
    (file.committedBlockMac.valid || file.blockMac.sameBlock new)

def fileUpdateBlockMacTr (session other : SessionId) (old : BlockMac) (oldNoMac : Bool)
    (new : BlockMac) (size : DataBlock) : FileM Unit := do
  assert .validBlock (old.valid || other == session)
  (← getTr other).openFiles.forM fun handle => do
    let file ← getFile other handle
    if file.related old new then
      assert .stagedMac (oldNoMac || file.committedBlockMac == old)
      modifyFile other handle fun file =>
        { file with toCommitBlockMac := new, toCommitSize := size }
    else
      return ()

variable (session : SessionId)

def fileUpdateBlockMacAll (old : BlockMac) (oldNoMac : Bool)
    (new : BlockMac) (size : DataBlock) : FileM Unit := do
  (← get).transactions.forM fun other => fileUpdateBlockMacTr session other old oldNoMac new size

/-- The loop of `file_transaction_complete` over `files_updated`. It returns
nothing once the transaction has failed. -/
def commitUpdated (session : SessionId) : FileTree → FileTree → FileM (Option FileTree)
  | [], newFiles => return some newFiles
  | (old, file) :: rest, newFiles => do
      match ← attempt session with
      | none => return none
      | some _ =>
        let entry ← getEntry file
        fileUpdateBlockMacAll session ⟨old, 0⟩ true file entry.size
        let key := (← get).hash entry.path
        match ← attempt session with
        | none => return none
        | some _ =>
          if (← getTr session).failed then
            return none
          else
            assert .found (newFiles.holds key old)
            assert .newBlock (old != file.block)
            commitUpdated session rest (newFiles.update key old file)

/-- The loop over `files_removed`. -/
def commitRemoved (session : SessionId) : FileTree → FileTree → FileM (Option FileTree)
  | [], newFiles => return some newFiles
  | (_, file) :: rest, newFiles => do
      match ← attempt session with
      | none => return none
      | some _ =>
        let entry ← getEntry file
        fileUpdateBlockMacAll session file false .clear 0
        match ← fileTreeLookup session newFiles entry.path with
        | none =>
          assert .found (← getTr session).failed
          return none
        | some old =>
          match ← attempt session with
          | none => return none
          | some _ =>
            if (← getTr session).failed then
              return none
            else
              assert .oldBlock (old.block == file.block)
              let key := (← get).hash entry.path
              commitRemoved session rest (newFiles.remove key old.block)

/-- The loop over `files_added`. -/
def commitAdded (session : SessionId) : FileTree → FileTree → FileM (Option FileTree)
  | [], newFiles => return some newFiles
  | (_, file) :: rest, newFiles => do
      match ← attempt session with
      | none => return none
      | some _ =>
        let entry ← getEntry file
        match ← fileTreeLookup session newFiles entry.path with
        | some _ =>
          transactionFail session
          return none
        | none =>
          fileUpdateBlockMacTr session session .clear false file entry.size
          match ← attempt session with
          | none => return none
          | some _ =>
            if (← getTr session).failed then
              return none
            else
              let key := (← get).hash entry.path
              commitAdded session rest (newFiles.insert key file)

def fileTransactionComplete : FileM (Option FileTree) := do
  match ← commitUpdated session (← getTr session).filesUpdated (← get).files with
  | none => return none
  | some newFiles =>
    match ← commitRemoved session (← getTr session).filesRemoved newFiles with
    | none => return none
    | some newFiles => commitAdded session (← getTr session).filesAdded newFiles

def fileForEachOpen (action : SessionId → HandleId → FileM Unit) : FileM Unit := do
  (← get).transactions.forM fun other => do
    (← getTr other).openFiles.forM (action other)

def fileRestoreToCommit (other : SessionId) (handle : HandleId) : FileM Unit := do
  let file ← getFile other handle
  if file.committedBlockMac.sameBlock file.toCommitBlockMac then
    assert .sameMac (file.committedBlockMac == file.toCommitBlockMac)
  else
    modifyFile other handle fun file => { file with toCommitBlockMac := file.committedBlockMac }

/-- The conflict check of `file_apply_to_commit`. `transaction_fail` repeats
the assertion that precedes it. -/
def fileCheckConflict (other : SessionId) (handle : HandleId) : FileM Unit := do
  onlyIf (← getFile other handle).usedByTr (transactionFail other)
  assert .otherUnmodified !(← getFile other handle).changed

def fileApplyToCommit (session other : SessionId) (handle : HandleId) : FileM Unit := do
  onlyIf (session == other) <|
    modifyFile other handle fun file => { file with usedByTr := false }
  let file ← getFile other handle
  if file.toCommitBlockMac.sameBlock file.committedBlockMac then
    assert .sameMac (file.toCommitBlockMac == file.committedBlockMac)
  else if session = other then
    modifyFile other handle fun file => { file with committedBlockMac := file.toCommitBlockMac }
    assert .ownBlockMac (file.blockMac == file.toCommitBlockMac)
    assert .ownSize (file.size == file.toCommitSize)
  else
    fileCheckConflict other handle
    modifyFile other handle fun file =>
      { file with
        committedBlockMac := file.toCommitBlockMac, blockMac := file.toCommitBlockMac,
        size := file.toCommitSize }

def fileTransactionCompleteFailed : FileM Unit := do
  modify fun state => { state with cleared := [] }
  fileForEachOpen fileRestoreToCommit

def fileTransactionSuccess : FileM Unit :=
  fileForEachOpen (fileApplyToCommit session)

/-- `block_set_overlap` of the freed sets, as far as file entries are in
them. The layers below may find a common data block, or fail. -/
def freedOverlap (session other : SessionId) : FileM Bool := do
  match ← attempt session with
  | none => return false
  | some answer =>
    let tr ← getTr session
    let otherTr ← getTr other
    return answer.overlap || tr.freed.any otherTr.freed.contains

def failOverlapping (session other : SessionId) : FileM Unit := do
  onlyIf (← freedOverlap session other) (transactionFail other)

/-- The loop of `transaction_complete` that fails conflicting transactions. -/
def failConflicting (session : SessionId) : List SessionId → FileM Unit
  | [] => return ()
  | other :: rest => do
      if (← getTr session).failed then
        return ()
      else
        onlyIf (← getTr other).active (failOverlapping session other)
        failConflicting session rest

def failActive : List SessionId → FileM Unit
  | [] => return ()
  | other :: rest => do
      onlyIf (← getTr other).active (transactionFail other)
      failActive rest

/-- The end of `transaction_complete`: the transactions that conflict fail, or
all do if the conflicts cannot be found. -/
def failOthers : FileM Unit := do
  assert .notFailed !(← getTr session).failed
  -- `check_free_tree`
  let _ ← attempt session
  failConflicting session (← get).transactions
  onlyIf (← getTr session).failed do
    modifyTr session fun tr => { tr with failed := false }
    failActive (← get).transactions

/-- What `transaction_complete` does from the write of the super block on. -/
def transactionCommit (newFiles : FileTree) : FileM Unit := do
  modify fun state => { state with files := newFiles }
  modifyTr session fun tr => { tr with active := false, complete := true }
  fileTransactionSuccess session
  failOthers session

/-- `transaction_complete` from `file_transaction_complete` to the write of the super
block: it merges the free sets, checks the space left, and writes the dirty blocks. -/
def transactionWrite : FileM Bool := do
  let merged ← attempt session
  let enough ← attempt session
  let cleaned ← attempt session
  let updated ← attempt session
  return merged.isSome && enough.isSome && cleaned.isSome && updated.isSome &&
    !(← getTr session).failed

/-- The part of `transaction_complete` behind `file_transaction_complete`. -/
def transactionFinish (newFiles : FileTree) : FileM Unit := do
  if ← transactionWrite session then
    let _ ← attempt session
    assert .superBlockWritten !(← getTr session).failed
    transactionCommit session newFiles
  else
    fileTransactionCompleteFailed

def transactionComplete : FileM Unit := do
  assert .notComplete !(← getTr session).complete
  if (← getTr session).failed then
    fileTransactionCompleteFailed
  else
    assert .active (← getTr session).active
    match ← fileTransactionComplete session with
    | none => fileTransactionCompleteFailed
    | some newFiles => transactionFinish session newFiles

def transactionActivate : FileM Unit := do
  assert .notActive !(← getTr session).active
  modifyTr session fun tr =>
    { tr with
      failed := false, complete := false, active := true, allocated := [], freed := [],
      filesAdded := [], filesUpdated := [], filesRemoved := [] }

end Trusty.Storage
