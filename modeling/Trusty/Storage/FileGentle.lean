import Trusty.Storage.FileFailure

/-!
# What operations on files leave alone

No operation of a transaction on its own files touches staged state, except that a handle whose entry cannot be read is cleared.
-/

namespace Trusty.Storage

open StateLogic FileM List Function

def FileState.Idle (state : FileState) (session : SessionId) (handle : HandleId) : Prop :=
  ((state.tr session).file handle).toCommitBlockMac =
      ((state.tr session).file handle).committedBlockMac ∨
    (session, handle) ∈ state.cleared

structure Gentle (state final : FileState) : Prop where
  transactions : final.transactions = state.transactions
  cleared : state.cleared ⊆ final.cleared
  idle : ∀ session, ∀ handle ∈ (final.tr session).openFiles,
    handle ∈ (state.tr session).openFiles ∧
        (state.Idle session handle → final.Idle session handle) ∨
      final.Idle session handle

instance : Std.Refl Gentle :=
  ⟨fun _ => ⟨rfl, List.Subset.refl _, fun _ _ member => .inl ⟨member, id⟩⟩⟩

instance : IsTrans FileState Gentle where
  trans first second third left right := by
    refine ⟨right.transactions.trans left.transactions, List.Subset.trans left.cleared right.cleared, ?_⟩
    intro session handle member
    rcases right.idle session handle member with ⟨before, keeps⟩ | idle
    · rcases left.idle session handle before with ⟨earlier, kept⟩ | idle
      · exact .inl ⟨earlier, fun idle => keeps (kept idle)⟩
      · exact .inr (keeps idle)
    · exact .inr idle

abbrev Gently {α : Type} (program : FileM α) : Prop := Keeps Gentle FailStops program

section Reading

variable {related : FileState → FileState → Prop} [Std.Refl related] {excused : Stop → Prop}

theorem assert_keeps (which : Assertion) (condition : Bool) : Keeps related excused (assert which condition) := by
  cases condition with
  | true => exact .pure _
  | false => exact .throw _

theorem onlyIf_keeps (condition : Bool) {action : FileM Unit}
    (keeps : Keeps related excused action) : Keeps related excused (onlyIf condition action) :=
  .ite keeps (.pure _)

theorem getTr_keeps (session : SessionId) : Keeps related excused (getTr session) := fun state => Std.Refl.refl state

theorem getFile_keeps (session : SessionId) (handle : HandleId) : Keeps related excused (getFile session handle) :=
  fun state => Std.Refl.refl state

theorem getEntry_keeps (blockMac : BlockMac) : Keeps related excused (getEntry blockMac) :=
  fun state => Std.Refl.refl state

variable [IsTrans FileState related] {session : SessionId} {α : Type}

theorem afterTr {rest : Transaction → FileM α} (keeps : ∀ tr, Keeps related excused (rest tr)) :
    Keeps related excused (getTr session >>= rest) :=
  (getTr_keeps session).bind keeps

theorem afterFile {handle : HandleId} {rest : FileHandle → FileM α}
    (keeps : ∀ file, Keeps related excused (rest file)) : Keeps related excused (getFile session handle >>= rest) :=
  (getFile_keeps session handle).bind keeps

end Reading

theorem setEntry_gently (block : DataBlock) (entry : FileEntry) : Gently (setEntry block entry) :=
  fun _ => ⟨rfl, List.Subset.refl _, fun _ _ member => .inl ⟨member, id⟩⟩

/-- A change of a record after which each open handle was open and keeps what
is staged, or has nothing staged. -/
theorem Gentle.setTr {state : FileState} {session : SessionId} {next : Transaction}
    (kept : ∀ handle ∈ next.openFiles, handle ∈ (state.tr session).openFiles ∧
          (next.file handle).toCommitBlockMac = ((state.tr session).file handle).toCommitBlockMac ∧
          (next.file handle).committedBlockMac = ((state.tr session).file handle).committedBlockMac ∨
        (next.file handle).toCommitBlockMac = (next.file handle).committedBlockMac) :
    Gentle state (state.setTr session next) := by
  refine ⟨rfl, List.Subset.refl _, ?_⟩
  intro other handle member
  unfold FileState.Idle
  by_cases same : other = session
  · subst same
    rw [FileState.setTr_tr_same] at member ⊢
    rcases kept handle member with ⟨before, staged, committed⟩ | idle
    · rw [staged, committed]
      exact .inl ⟨before, id⟩
    · exact .inr (.inl idle)
  · rw [FileState.setTr_tr_other _ _ same] at member ⊢
    exact .inl ⟨member, id⟩

theorem modifyTr_gently {session : SessionId} {change : Transaction → Transaction}
    (openFiles : ∀ tr, ∀ handle ∈ (change tr).openFiles, handle ∈ tr.openFiles)
    (file : ∀ tr, (change tr).file = tr.file) : Gently (modifyTr session change) := by
  intro state
  rw [wp_modifyTr]
  apply Gentle.setTr
  intro handle member
  rw [file]
  exact .inl ⟨openFiles _ handle member, rfl, rfl⟩

theorem modifyFile_gently {session : SessionId} {handle : HandleId} {change : FileHandle → FileHandle}
    (staged : ∀ file, (change file).toCommitBlockMac = file.toCommitBlockMac)
    (committed : ∀ file, (change file).committedBlockMac = file.committedBlockMac) :
    Gently (modifyFile session handle change) := by
  intro state
  rw [wp_modifyFile]
  apply Gentle.setTr
  intro other member
  left
  refine ⟨member, ?_⟩
  by_cases here : other = handle
  · subst here
    rw [Transaction.setFile_file_same, staged, committed]
    exact ⟨rfl, rfl⟩
  · rw [Transaction.setFile_file_other _ _ here]
    exact ⟨rfl, rfl⟩

theorem Disturbance.gentle {state final : FileState} (disturbance : Disturbance state final) : Gentle state final := by
  cases disturbance with
  | answers rest =>
    exact ⟨rfl, List.Subset.refl _, fun _ _ member => .inl ⟨member, id⟩⟩
  | marks victim _ => exact Gentle.setTr fun _ member => .inl ⟨member, rfl, rfl⟩
  | fails victim fails =>
  obtain ⟨file, answers, cleared, rfl, grown, settled, _⟩ := fails.result
  refine ⟨rfl, grown, ?_⟩
  intro other handle member
  unfold FileState.Idle
  by_cases same : other = victim
  · subst same
    simp only [update_self] at member ⊢
    rcases settled handle member with whole | ⟨lost, _⟩
    · left
      refine ⟨member, fun idle => ?_⟩
      rw [whole]
      rcases idle with staged | lost
      · left
        unfold FileState.restored
        split <;> exact staged
      · exact .inr (grown lost)
    · exact .inr (.inr lost)
  · simp only [update_of_ne same] at member ⊢
    exact .inl ⟨member, fun idle => idle.imp_right fun lost => grown lost⟩

instance : Std.Refl Interrupted := ⟨fun _ => .refl⟩

instance : IsTrans FileState Interrupted := ⟨fun _ _ _ => .trans⟩

abbrev Asking {α : Type} (program : FileM α) : Prop := Keeps Interrupted FailStops program

theorem Interrupted.kept {related : FileState → FileState → Prop} [Std.Refl related] [IsTrans FileState related]
    (step : ∀ state final, Disturbance state final → related state final)
    {state final : FileState} (interrupted : Interrupted state final) : related state final := by
  induction interrupted with
  | refl => exact Std.Refl.refl _
  | tail _ disturbance keeps => exact IsTrans.trans _ _ _ keeps (step _ _ disturbance)

theorem transactionFail_asking (session : SessionId) : Asking (transactionFail session) := by
  intro state
  apply wp_transactionFail
  · exact fun final fails => .single (.fails session fails)
  · exact fun complete => .single (.marks session complete)
  · exact fun _ _ stops => .inl stops

theorem attempt_asking (session : SessionId) : Asking (attempt session) :=
  fun _ => wp_attempt (fun _ _ interrupted => interrupted) fun _ _ stops => .inl stops

theorem attempting_keeps {α : Type} {related : FileState → FileState → Prop} [IsTrans FileState related]
    {excused : Stop → Prop} {session : SessionId} {rest : Option Answer → FileM α}
    (asks : Keeps related excused (attempt session)) (failed : Keeps related excused (rest none))
    (answered : ∀ answer, Keeps related excused (rest (some answer))) :
    Keeps related excused (attempt session >>= rest) := by
  refine asks.bind fun answer => ?_
  cases answer with
  | none => exact failed
  | some answer => exact answered answer

section

variable (session : SessionId)
include session

theorem fileTreeSearch_asking (path : FilePath) (tree : FileTree) : Asking (fileTreeSearch session path tree) := by
  induction tree with
  | nil => exact .pure _
  | cons entry rest ih =>
  refine (getEntry_keeps entry.2).bind fun _ => ?_
  exact attempting_keeps (attempt_asking session) (.pure _) fun _ => .ite (.pure _) ih

theorem fileTreeLookup_asking (tree : FileTree) (path : FilePath) : Asking (fileTreeLookup session tree path) := by
  refine Keeps.get.bind fun _ => attempting_keeps (attempt_asking session) (.pure _) fun _ => ?_
  exact fileTreeSearch_asking session path _

theorem walkToKey_asking (tree : FileTree) (key : DataBlock) : Asking (walkToKey session tree key) :=
  attempting_keeps (attempt_asking session) (.pure _) fun _ => .pure _

theorem fileLookupNotRemoved_asking (path : FilePath) : Asking (fileLookupNotRemoved session path) := by
  refine Keeps.get.bind fun _ => (fileTreeLookup_asking session _ path).bind fun found => ?_
  cases found with
  | none => exact .pure _
  | some committed =>
  refine Keeps.bind ?_ fun removed => .ite (.pure _) ?_
  · exact afterTr fun _ => (walkToKey_asking session _ _).bind fun _ => .pure _
  · refine afterTr fun _ => (walkToKey_asking session _ _).bind fun updated => ?_
    cases updated <;> exact .pure _

theorem fileBlockMapInit_asking (blockMac : BlockMac) : Asking (fileBlockMapInit session blockMac) := by
  refine .ite ?_ ?_
  · refine attempting_keeps (attempt_asking session) (.pure _) fun _ => ?_
    exact (getEntry_keeps _).bind fun _ => .pure _
  · refine afterTr fun _ => .ite (.pure _) ?_
    exact (transactionFail_asking _).bind fun _ => .pure _

theorem transactionBlockNeedCopy_asking (block : DataBlock) : Asking (transactionBlockNeedCopy session block) := by
  refine (assert_keeps _ _).bind fun _ => attempting_keeps (attempt_asking session) (.pure _) ?_
  exact fun _ => afterTr fun _ => .pure _

end

theorem Asking.gently {α : Type} {program : FileM α} (asking : Asking program) : Gently program :=
  asking.mono (fun _ _ => Interrupted.kept fun _ _ step => step.gentle) fun _ stops => stops

theorem attempt_gently (session : SessionId) : Gently (attempt session) := (attempt_asking session).gently

theorem asking {α : Type} {session : SessionId} {rest : Option Answer → FileM α} (failed : Gently (rest none))
    (answered : ∀ answer, Gently (rest (some answer))) : Gently (attempt session >>= rest) :=
  attempting_keeps (attempt_gently session) failed answered

theorem transactionFail_gently (session : SessionId) : Gently (transactionFail session) :=
  (transactionFail_asking session).gently

theorem changeTree_gently {session : SessionId} {change : Transaction → Transaction}
    (openFiles : ∀ tr, (change tr).openFiles = tr.openFiles) (file : ∀ tr, (change tr).file = tr.file) :
    Gently (changeTree session change) := by
  refine asking (.pure _) fun _ => modifyTr_gently (fun tr handle member => ?_) file
  rwa [openFiles] at member

section Files

variable (session : SessionId)

theorem blockAllocate_gently : Gently (blockAllocate session) := by
  refine asking (.pure _) fun answer => ?_
  refine Keeps.get.bind fun _ => .ite (.throw _) (.bind ?_ fun _ => .pure _)
  exact modifyTr_gently (fun _ _ member => member) fun _ => rfl

theorem blockFree_gently (block : DataBlock) : Gently (blockFree session block) := by
  apply changeTree_gently
  · intro tr
    unfold Transaction.free
    split <;> rfl
  · intro tr
    unfold Transaction.free
    split <;> rfl

section

variable (handle : HandleId)

include handle

theorem fileEntryMove_gently (entry : FileEntry) (old newBlock : DataBlock)
    (mac : Mac) : Gently (fileEntryMove session handle entry old newBlock mac) := by
  refine (setEntry_gently _ _).bind fun _ => .bind ?_ fun _ => ?_
  · exact changeTree_gently (fun _ => rfl) fun _ => rfl
  · refine (blockFree_gently session _).bind fun _ => ?_
    exact modifyFile_gently (fun _ => rfl) fun _ => rfl

theorem fileEntryCopy_gently (map : BlockMap) (entry : FileEntry) (committed : BlockMac) :
    Gently (fileEntryCopy session handle map entry committed) := by
  refine afterFile fun file => ?_
  refine (assert_keeps _ _).bind fun _ => (assert_keeps _ _).bind fun _ => ?_
  refine (blockAllocate_gently session).bind fun allocated => ?_
  cases allocated with
  | none => exact .pure _
  | some newBlock =>
  refine afterTr fun _ => .ite (.pure _) ?_
  refine asking (.pure _) fun _ => afterTr fun _ => .ite (.pure _) ?_
  exact (fileEntryMove_gently session handle entry _ _ _).bind fun _ => .pure _

theorem fileEntryBlock_gently (map : BlockMap) (entry : FileEntry) (fileBlock : DataBlock) (committed : BlockMac) :
    Gently (fileEntryBlock session handle map entry fileBlock committed) := by
  refine (transactionBlockNeedCopy_asking session _).gently.bind fun copy => .ite ?_ (.pure _)
  refine afterTr fun _ => .ite (.pure _) ?_
  exact fileEntryCopy_gently session handle map entry committed

theorem fileEntryWalk_asking (entry : FileEntry) (committed : BlockMac) :
    Asking (fileEntryWalk session handle entry committed) := by
  refine afterTr fun _ => (fileTreeLookup_asking session _ _).bind fun again => ?_
  refine (assert_keeps _ _).bind fun _ => afterTr fun _ => ?_
  refine (walkToKey_asking session _ _).bind fun walked => ?_
  refine afterTr fun _ => .ite (.pure _) ?_
  cases walked with
  | none => exact .throw _
  | some data =>
  exact afterFile fun _ => (assert_keeps _ _).bind fun _ => .pure _

theorem fileEntryLocated_gently (entry : FileEntry) (committed : BlockMac) (located : Option DataBlock) : Gently (do
      match located with
      | none => return none
      | some block =>
      match ← fileEntryWalk session handle entry committed with
      | none => return none
      | some data => return some (block, committed.block, data)) := by
  cases located with
  | none => exact .pure _
  | some newBlock =>
  refine (fileEntryWalk_asking session handle entry committed).gently.bind fun walked => ?_
  cases walked <;> exact .pure _

theorem fileEntryLocate_gently (map : BlockMap) (entry : FileEntry) (fileBlock : DataBlock) :
    Gently (fileEntryLocate session handle map entry fileBlock) := by
  refine Keeps.get.bind fun _ => (fileTreeLookup_asking session _ _).gently.bind fun found => ?_
  refine afterTr fun _ => .ite (.pure _) ?_
  cases found with
  | none => exact .throw _
  | some committed =>
  refine (fileEntryBlock_gently session handle map entry _ committed).bind fun located => ?_
  exact fileEntryLocated_gently session handle entry committed located

theorem fileEntryPut_gently (map : BlockMap) (entry : FileEntry) (block : DataBlock) (data : BlockMac)
    {store : BlockMac → Transaction → Transaction} (openFiles : ∀ data tr, (store data tr).openFiles = tr.openFiles)
    (file : ∀ data tr, (store data tr).file = tr.file) :
    Gently (fileEntryPut session handle map entry block data store) := by
  refine afterFile fun _ => (setEntry_gently _ _).bind fun _ => ?_
  refine Keeps.bind ?_ fun stored => Keeps.bind ?_ fun _ => ?_
  · refine asking (.pure _) fun answer => .bind ?_ fun _ => .pure _
    refine modifyTr_gently (fun tr handle member => ?_) (file _)
    rwa [openFiles] at member
  · exact modifyFile_gently (fun _ => rfl) fun _ => rfl
  refine modifyTr_gently (fun tr other member => ?_) fun _ => rfl
  unfold moveToHead at member
  split at member
  · rename_i inside
    rcases mem_cons.mp member with rfl | later
    · simpa using inside
    · exact mem_of_mem_erase later
  · exact member

end

theorem fileBlockMapUpdate_gently (map : BlockMap) (handle : HandleId) :
    Gently (fileBlockMapUpdate session map handle) := by
  refine afterTr fun _ => .ite (.pure _) ?_
  refine afterFile fun _ => (assert_keeps _ _).bind fun _ => ?_
  refine asking (.pure _) fun _ => (getEntry_keeps _).bind fun _ => Keeps.get.bind fun _ => ?_
  refine afterTr fun _ => (fileTreeLookup_asking session _ _).gently.bind fun found => ?_
  cases found with
  | some added => exact fileEntryPut_gently session handle map _ _ _ (fun _ _ => rfl) fun _ _ => rfl
  | none =>
  refine (fileEntryLocate_gently session handle map _ _).bind fun located => ?_
  cases located with
  | none => exact .pure _
  | some _ => exact fileEntryPut_gently session handle map _ _ _ (fun _ _ => rfl) fun _ _ => rfl

section

variable (handle : HandleId)
include handle

theorem fileGetBlockEtc_gently (write : Bool) : Gently (fileGetBlockEtc session handle write) := by
  refine afterTr fun _ => .ite (.pure _) ?_
  refine afterFile fun _ => ?_
  refine (fileBlockMapInit_asking session _).gently.bind fun map => ?_
  cases map with
  | none => exact .pure _
  | some map =>
  refine afterTr fun _ => .ite (.pure _) (.bind ?_ fun _ => ?_)
  · exact modifyFile_gently (fun _ => rfl) fun _ => rfl
  refine (attempt_gently session).bind fun _ => .ite ?_ (.pure _)
  refine asking (.pure _) fun _ => ?_
  refine afterTr fun _ => .ite (.pure _) ?_
  refine (fileBlockMapUpdate_gently session _ handle).bind fun _ => ?_
  exact afterTr fun _ => .pure _

theorem fileBlockPutDirty_gently : Gently (fileBlockPutDirty session handle) := by
  refine afterFile fun _ => ?_
  refine (fileBlockMapInit_asking session _).gently.bind fun map => ?_
  cases map with
  | none => exact .pure _
  | some map =>
  exact asking (.pure _) fun _ => fileBlockMapUpdate_gently session _ handle

theorem fileGetSize_gently : Gently (fileGetSize session handle) := by
  refine afterFile fun _ => afterTr fun _ => ?_
  refine .ite (.pure _) (.bind ?_ fun _ => .pure _)
  exact modifyFile_gently (fun _ => rfl) fun _ => rfl

theorem fileSetSize_gently (size : DataBlock) : Gently (fileSetSize session handle size) := by
  refine afterTr fun _ => .ite (.pure _) ?_
  refine afterFile fun _ => ?_
  refine (fileBlockMapInit_asking session _).gently.bind fun map => ?_
  cases map with
  | none => exact .pure _
  | some map =>
  refine afterTr fun _ => .ite (.pure _) ?_
  refine afterFile fun _ => .ite (.pure _) ?_
  refine Keeps.bind ?_ fun map => Keeps.bind ?_ fun _ => ?_
  · exact .ite (asking (.pure _) fun _ => .pure _) (.pure _)
  · exact modifyFile_gently (fun _ => rfl) fun _ => rfl
  · exact fileBlockMapUpdate_gently session map handle

end

theorem fileCreate_gently (path : FilePath) : Gently (fileCreate session path) := by
  refine (blockAllocate_gently session).bind fun block => ?_
  cases block with
  | none => exact .pure _
  | some block =>
  refine afterTr fun _ => .ite (.pure _) ?_
  refine asking (.pure _) fun _ => ?_
  refine afterTr fun _ => .ite (.pure _) ?_
  refine (setEntry_gently _ _).bind fun _ => Keeps.get.bind fun _ => .bind ?_ fun _ => ?_
  · exact changeTree_gently (fun _ => rfl) fun _ => rfl
  · exact afterTr fun _ => .ite (.pure _) (.pure _)

theorem fileOpenHandle_gently (handle : HandleId) (blockMac committed : BlockMac) :
    Gently (fileOpenHandle session handle blockMac committed) := by
  refine asking (.pure _) fun _ => (getEntry_keeps _).bind fun entry => ?_
  intro state
  simp only [wp_bind, wp_modifyTr, wp_modifyFile, wp_pure, FileState.setTr_setTr, FileState.setTr_tr_same]
  apply Gentle.setTr
  intro other member
  by_cases here : other = handle
  · subst here
    rw [Transaction.setFile_file_same]
    exact .inr rfl
  · rw [Transaction.setFile_file_other _ _ here]
    have before : other ∈ (state.tr session).openFiles := by
      simpa [Transaction.setFile, here] using member
    exact .inl ⟨before, rfl, rfl⟩

theorem fileOpen_gently (path : FilePath) (handle : HandleId) (mode : FileCreateMode) :
    Gently (fileOpen session path handle mode) := by
  have opened : ∀ blockMac committed, Gently (fileOpenFound session handle mode blockMac committed) := by
    intro blockMac committed
    refine .ite (.pure _) (afterTr fun _ => .ite (.pure _) ?_)
    exact fileOpenHandle_gently session handle blockMac committed
  refine afterTr fun _ => (fileTreeLookup_asking session _ _).gently.bind fun found => ?_
  cases found with
  | some added => exact opened added .clear
  | none =>
  refine (fileLookupNotRemoved_asking session path).gently.bind fun seen => ?_
  cases seen with
  | some seen => exact opened seen.1 seen.2
  | none =>
  refine .ite (.pure _) ((fileCreate_gently session path).bind fun created => ?_)
  cases created with
  | none => exact .pure _
  | some blockMac => exact fileOpenHandle_gently session handle blockMac .clear

theorem fileClose_gently (handle : HandleId) : Gently (fileClose session handle) :=
  modifyTr_gently (fun _ _ member => mem_of_mem_erase member) fun _ => rfl

theorem fileDeleteEntry_gently (blockMac : BlockMac) : Gently (fileDeleteEntry session blockMac) := by
  refine (blockFree_gently session _).bind fun _ => (attempt_gently session).bind fun _ => ?_
  intro state
  rw [wp_modifyTr]
  apply Gentle.setTr
  intro handle member
  unfold Transaction.forget at member ⊢
  left
  cases found : (state.tr session).fileFindOpen blockMac with
  | none =>
    rw [found] at member
    exact ⟨member, rfl, rfl⟩
  | some cleared =>
  rw [found] at member
  by_cases same : handle = cleared
  · simp only [same, update_self]
    exact ⟨same ▸ member, trivial, trivial⟩
  · simp only [update_of_ne same]
    exact ⟨member, trivial, trivial⟩

theorem fileDelete_gently (path : FilePath) : Gently (fileDelete session path) := by
  refine Keeps.get.bind fun _ => afterTr fun _ => ?_
  refine (fileTreeLookup_asking session _ _).gently.bind fun found => ?_
  cases found with
  | some added =>
    refine Keeps.bind (changeTree_gently (fun _ => rfl) fun _ => rfl) fun _ => ?_
    refine asking (.pure _) fun _ => ?_
    exact (fileDeleteEntry_gently session added).bind fun _ => .pure _
  | none =>
  refine (fileLookupNotRemoved_asking session path).gently.bind fun seen => ?_
  cases seen with
  | none => exact .pure _
  | some seen =>
  refine asking (.pure _) fun _ => Keeps.bind ?_ fun _ => .ite ?_ (.pure _)
  · refine .ite (.pure _) (.bind (changeTree_gently (fun _ => rfl) fun _ => rfl) fun _ => ?_)
    exact afterTr fun _ => .pure _
  · refine Keeps.bind (changeTree_gently (fun _ => rfl) fun _ => rfl) fun _ => ?_
    exact (fileDeleteEntry_gently session _).bind fun _ => .pure _

theorem transactionActivate_gently : Gently (transactionActivate session) :=
  afterTr fun _ => (assert_keeps _ _).bind fun _ =>
    modifyTr_gently (fun _ _ member => member) fun _ => rfl

end Files

end Trusty.Storage
