import Trusty.Storage.FileState

/-!
# Operations on files

`file.c` up to `file_delete`: what a transaction runs on its own files. Data blocks and
block maps are left to the layers below; what they answer reaches the file entry as
the root of its block map.
-/

namespace Trusty.Storage

open FileM

/-- `struct block_map`, as far as the file entry depends on it. -/
structure BlockMap where
  root : BlockMac
  rootBlockChanged : Bool
  deriving DecidableEq, Repr

def BlockMap.changedBy (map : BlockMap) (answer : Answer) : BlockMap :=
  ⟨⟨answer.block, answer.mac⟩, map.rootBlockChanged || answer.block != map.root.block⟩

/-- The second loop of `file_tree_lookup`, over the entries with the hash of
the path. -/
def fileTreeSearch (session : SessionId) (path : FilePath) : FileTree → FileM (Option BlockMac)
  | [] => return none
  | (_, blockMac) :: rest => do
      let entry ← getEntry blockMac
      match ← attempt session with
      | none => return none
      | some _ =>
        if entry.path == path then
          return some blockMac
        else
          fileTreeSearch session path rest

variable (session : SessionId)

/-- `file_tree_lookup` without `remove`. -/
def fileTreeLookup (tree : FileTree) (path : FilePath) : FileM (Option BlockMac) := do
  let key := (← get).hash path
  match ← attempt session with
  | none => return none
  | some _ =>
    fileTreeSearch session path (tree.filter fun entry => entry.1 == key)

/-- `block_tree_walk` to a key that is unique in the tree. -/
def walkToKey (tree : FileTree) (key : DataBlock) :
    FileM (Option BlockMac) := do
  match ← attempt session with
  | none => return none
  | some _ => return tree.find key

def fileIsRemoved (block : DataBlock) : FileM Bool := do
  let tr ← getTr session
  return (← walkToKey session tr.filesRemoved block).isSome

/-- `file_lookup_not_removed`: the current and the committed block. -/
def fileLookupNotRemoved (path : FilePath) :
    FileM (Option (BlockMac × BlockMac)) := do
  match ← fileTreeLookup session (← get).files path with
  | none => return none
  | some committed =>
    if ← fileIsRemoved session committed.block then
      return none
    else
      let tr ← getTr session
      match ← walkToKey session tr.filesUpdated committed.block with
      | some updated => return some (updated, committed)
      | none => return some (committed, committed)

def Transaction.fileFindOpen (tr : Transaction) (blockMac : BlockMac) : Option HandleId :=
  tr.openFiles.find? fun handle => (tr.file handle).blockMac.sameBlock blockMac

def fileBlockMapInit (blockMac : BlockMac) : FileM (Option BlockMap) := do
  if blockMac.valid then
    match ← attempt session with
    | none => return none
    | some _ => return some ⟨(← getEntry blockMac).blockMap, false⟩
  else
    if (← getTr session).failed then
      return none
    else
      transactionFail session
      return none

def transactionBlockNeedCopy (block : DataBlock) : FileM Bool := do
  assert .validBlock (block != 0)
  match ← attempt session with
  | none => return true
  | some _ => return !(← getTr session).allocated.contains block

variable (handle : HandleId)

/-- The entry at `old` is copied to `newBlock`. The handle is assigned also
when the insertion or the release has failed. -/
def fileEntryMove (entry : FileEntry)
    (old newBlock : DataBlock) (mac : Mac) : FileM Unit := do
  setEntry newBlock entry
  changeTree session fun tr =>
    { tr with filesUpdated := tr.filesUpdated.insert old ⟨newBlock, 0⟩ }
  blockFree session old
  modifyFile session handle fun file => { file with blockMac := ⟨newBlock, mac⟩ }

/-- The copy of a committed entry in `file_block_map_update`. -/
def fileEntryCopy (map : BlockMap) (entry : FileEntry)
    (committed : BlockMac) : FileM (Option DataBlock) := do
  let file ← getFile session handle
  assert .rootChanged (map.rootBlockChanged || file.size != entry.size)
  assert .oldBlock (committed.block == file.blockMac.block)
  match ← blockAllocate session with
  | none => return none
  | some newBlock =>
    if (← getTr session).failed then
      return none
    else
      match ← attempt session with
      | none => return none
      | some _ =>
        if (← getTr session).failed then
          return none
        else
          fileEntryMove session handle entry file.blockMac.block newBlock committed.mac
          return some newBlock

/-- The block at which a committed entry is written: a copy, or the block
that the transaction has copied it to before. -/
def fileEntryBlock (map : BlockMap) (entry : FileEntry)
    (fileBlock : DataBlock) (committed : BlockMac) : FileM (Option DataBlock) := do
  if ← transactionBlockNeedCopy session fileBlock then
    if (← getTr session).failed then
      return none
    else
      fileEntryCopy session handle map entry committed
  else
    return some fileBlock

/-- The data of the entry in `files_updated`. -/
def fileEntryWalk (entry : FileEntry)
    (committed : BlockMac) : FileM (Option BlockMac) := do
  let again ← fileTreeLookup session (← getTr session).filesAdded entry.path
  assert .notAdded again.isNone
  let walked ← walkToKey session (← getTr session).filesUpdated committed.block
  if (← getTr session).failed then
    return none
  else
    match walked with
    | none => throw (.assertion .updatedKey)
    | some data =>
      let file ← getFile session handle
      assert .updatedKey (data.block == file.blockMac.block)
      return some data

/-- The part of `file_block_map_update` for a file that is not new: the block
of the entry to write, and its key and data in `files_updated`. -/
def fileEntryLocate (map : BlockMap) (entry : FileEntry)
    (fileBlock : DataBlock) : FileM (Option (DataBlock × DataBlock × BlockMac)) := do
  let found ← fileTreeLookup session (← get).files entry.path
  if (← getTr session).failed then
    return none
  else
    match found with
    | none => throw (.assertion .found)
    | some committed =>
      match ← fileEntryBlock session handle map entry fileBlock committed with
      | none => return none
      | some block =>
        match ← fileEntryWalk session handle entry committed with
        | none => return none
        | some data => return some (block, committed.block, data)

/-- `block_tree_path_put_dirty`: the block and mac it leaves in the path, the
old ones when it has failed. -/
def fileEntryStore (data : BlockMac)
    (store : BlockMac → Transaction → Transaction) : FileM BlockMac := do
  match ← attempt session with
  | none => return data
  | some answer =>
    modifyTr session (store ⟨data.block, answer.mac⟩)
    return ⟨data.block, answer.mac⟩

def storeAdded (key : DataBlock) (data next : BlockMac) (tr : Transaction) : Transaction :=
  { tr with filesAdded := tr.filesAdded.update key data.block next }

def storeUpdated (old : DataBlock) (data next : BlockMac) (tr : Transaction) : Transaction :=
  { tr with filesUpdated := tr.filesUpdated.update old data.block next }

/-- `list_delete` and `list_add_head` of a node of the list. -/
def moveToHead (handles : List HandleId) : List HandleId :=
  if handles.contains handle then handle :: handles.erase handle else handles

/-- The end of `file_block_map_update`: write the entry, store its mac in the tree and
move the handle to the head of the list. It is assigned even without the mac. -/
def fileEntryPut (map : BlockMap) (entry : FileEntry)
    (block : DataBlock) (data : BlockMac) (store : BlockMac → Transaction → Transaction) :
    FileM Unit := do
  let file ← getFile session handle
  setEntry block { entry with blockMap := map.root, size := file.size }
  let stored ← fileEntryStore session data store
  modifyFile session handle fun file => { file with blockMac := stored }
  modifyTr session fun tr => { tr with openFiles := moveToHead handle tr.openFiles }

def fileBlockMapUpdate (map : BlockMap) (handle : HandleId) : FileM Unit := do
  if (← getTr session).failed then
    return ()
  else
    let file ← getFile session handle
    assert .validBlock file.blockMac.valid
    match ← attempt session with
    | none => return ()
    | some _ =>
      let entry ← getEntry file.blockMac
      let key := (← get).hash entry.path
      let found ← fileTreeLookup session (← getTr session).filesAdded entry.path
      match found with
      | some added =>
        fileEntryPut session handle map entry file.blockMac.block added (storeAdded key added)
      | none =>
        match ← fileEntryLocate session handle map entry file.blockMac.block with
        | none => return ()
        | some (block, old, data) =>
          fileEntryPut session handle map entry block data (storeUpdated old data)

/-- `file_get_block_etc`: whether it returns a block. -/
def fileGetBlockEtc (write : Bool) : FileM Bool := do
  if (← getTr session).failed then
    return false
  else
    match ← fileBlockMapInit session (← getFile session handle).blockMac with
    | none => return false
    | some map =>
      if (← getTr session).failed then
        return false
      else
        modifyFile session handle fun file => { file with usedByTr := true }
        -- `block_map_get`, and `block_get` of the block it finds
        let data ← attempt session
        let mapped := data.any (·.mapped)
        if write && (!mapped || data.any (·.copy)) then
          -- allocate, move or get the block, free the old one, `block_map_set`
          match ← attempt session with
          | none => return false
          | some change =>
            if (← getTr session).failed then
              return false
            else
              fileBlockMapUpdate session (map.changedBy change) handle
              return !(← getTr session).failed
        else
          return mapped

def fileGetBlock : FileM Bool :=
  fileGetBlockEtc session handle false

def fileGetBlockWrite : FileM Bool :=
  fileGetBlockEtc session handle true

def fileBlockPutDirty : FileM Unit := do
  match ← fileBlockMapInit session (← getFile session handle).blockMac with
  | none => return ()
  | some map =>
    match ← attempt session with
    | none => return ()
    | some change => fileBlockMapUpdate session (map.changedBy change) handle

def fileGetSize : FileM (Option DataBlock) := do
  let file ← getFile session handle
  if (← getTr session).failed || !file.blockMac.valid then
    return none
  else
    modifyFile session handle fun file => { file with usedByTr := true }
    return some file.size

/-- `block_map_truncate`, if the file shrinks. -/
def fileTruncate (map : BlockMap) (shrinks : Bool) : FileM BlockMap := do
  if shrinks then
    match ← attempt session with
    | none => return map
    | some change => return map.changedBy change
  else
    return map

/-- `file_set_size`. The size is assigned also when the truncation of the
block map has failed. -/
def fileSetSize (size : DataBlock) : FileM Unit := do
  if (← getTr session).failed then
    return ()
  else
    match ← fileBlockMapInit session (← getFile session handle).blockMac with
    | none => return ()
    | some map =>
      if (← getTr session).failed then
        return ()
      else
        let file ← getFile session handle
        if size = file.size then
          return ()
        else
          let map ← fileTruncate session map (size < file.size)
          modifyFile session handle fun file => { file with size := size }
          fileBlockMapUpdate session map handle

def fileCreate (path : FilePath) : FileM (Option BlockMac) := do
  match ← blockAllocate session with
  | none => return none
  | some block =>
    if (← getTr session).failed then
      return none
    else
      -- `block_get_cleared` and `block_put_dirty`
      match ← attempt session with
      | none => return none
      | some answer =>
        if (← getTr session).failed then
          return none
        else
          setEntry block ⟨path, 0, .clear⟩
          let blockMac : BlockMac := ⟨block, answer.mac⟩
          let key := (← get).hash path
          changeTree session fun tr =>
            { tr with filesAdded := tr.filesAdded.insert key blockMac }
          if (← getTr session).failed then
            return none
          else
            return some blockMac

inductive FileCreateMode where
  | noCreate
  | create
  | createExclusive
  deriving DecidableEq, Repr

/-- The end of `file_open`. -/
def fileOpenHandle (blockMac committed : BlockMac) :
    FileM Bool := do
  match ← attempt session with
  | none => return false
  | some _ =>
    let entry ← getEntry blockMac
    modifyTr session fun tr => { tr with openFiles := handle :: tr.openFiles }
    modifyFile session handle fun file =>
      { file with
        toCommitBlockMac := committed, committedBlockMac := committed, blockMac := blockMac,
        size := entry.size, usedByTr := false }
    return true

/-- The part of `file_open` for a path that is present. -/
def fileOpenFound (mode : FileCreateMode)
    (blockMac committed : BlockMac) : FileM Bool := do
  if mode = .createExclusive then
    return false
  else
    if ((← getTr session).fileFindOpen blockMac).isSome then
      return false
    else
      fileOpenHandle session handle blockMac committed

def fileOpen (path : FilePath) (handle : HandleId)
    (mode : FileCreateMode) : FileM Bool := do
  match ← fileTreeLookup session (← getTr session).filesAdded path with
  | some added => fileOpenFound session handle mode added .clear
  | none =>
    match ← fileLookupNotRemoved session path with
    | some (blockMac, committed) => fileOpenFound session handle mode blockMac committed
    | none =>
      if mode = .noCreate then
        return false
      else
        match ← fileCreate session path with
        | none => return false
        | some blockMac => fileOpenHandle session handle blockMac .clear

def fileClose : FileM Unit :=
  modifyTr session fun tr => { tr with openFiles := tr.openFiles.erase handle }

def Transaction.forget (tr : Transaction) (blockMac : BlockMac) : Transaction :=
  match tr.fileFindOpen blockMac with
  | none => tr
  | some handle =>
    { tr with
      file := Function.update tr.file handle { tr.file handle with blockMac := .clear } }

/-- The end of `file_delete`: `block_free`, `block_map_free`, and the handle
of the file is cleared also when they have failed. -/
def fileDeleteEntry (blockMac : BlockMac) : FileM Unit := do
  blockFree session blockMac.block
  let _ ← attempt session
  modifyTr session fun tr => tr.forget blockMac

/-- The part of `file_delete` for a file of `files_added`. -/
def fileDeleteAdded (key : DataBlock) (blockMac : BlockMac) :
    FileM Bool := do
  changeTree session fun tr =>
    { tr with filesAdded := tr.filesAdded.remove key blockMac.block }
  match ← attempt session with
  | none => return false
  | some _ =>
    fileDeleteEntry session blockMac
    return true

/-- The removal from `files_updated` in `file_delete`: whether to go on. -/
def fileForgetUpdated (blockMac committed : BlockMac) : FileM Bool := do
  if blockMac.sameBlock committed then
    return true
  else
    changeTree session fun tr =>
      { tr with filesUpdated := tr.filesUpdated.remove committed.block blockMac.block }
    return !(← getTr session).failed

/-- The part of `file_delete` for a committed file. -/
def fileDeleteCommitted (blockMac committed : BlockMac) : FileM Bool := do
  match ← attempt session with
  | none => return false
  | some _ =>
    if ← fileForgetUpdated session blockMac committed then
      changeTree session fun tr =>
        { tr with filesRemoved := tr.filesRemoved.insert committed.block committed }
      fileDeleteEntry session blockMac
      return true
    else
      return false

def fileDelete (path : FilePath) : FileM Bool := do
  let key := (← get).hash path
  match ← fileTreeLookup session (← getTr session).filesAdded path with
  | some added => fileDeleteAdded session key added
  | none =>
    match ← fileLookupNotRemoved session path with
    | none => return false
    | some (blockMac, committed) => fileDeleteCommitted session blockMac committed

end Trusty.Storage
