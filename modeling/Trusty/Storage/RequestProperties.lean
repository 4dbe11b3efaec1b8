import Trusty.Storage.FileGentle

/-!
# What requests keep

A request runs operations on files, and may complete its transaction. So it keeps
every relation that `transaction_complete` keeps and that being gentle implies.
-/

namespace Trusty.Storage

open StateLogic FileM

/-- The steps of which the requests of `session` consist keep the relation. -/
structure KeptBySteps (related : FileState → FileState → Prop) (excused : Stop → Prop)
    (session : SessionId) : Prop where
  gentle : ∀ state final, Gentle state final → related state final
  excuses : ∀ reason, FailStops reason → excused reason
  complete : Keeps related excused (transactionComplete session)

namespace KeptBySteps

variable {related : FileState → FileState → Prop} {excused : Stop → Prop} {session : SessionId}

theorem gently (steps : KeptBySteps related excused session) {α : Type} {program : FileM α}
    (gently : Gently program) : Keeps related excused program :=
  gently.mono steps.gentle steps.excuses

variable [Std.Refl related] [IsTrans FileState related]

section

variable (steps : KeptBySteps related excused session)

include steps

theorem commitIfComplete (flag : Bool) : Keeps related excused (commitIfComplete session flag) := by
  refine .ite (steps.complete.bind fun _ => ?_) (.pure _)
  exact afterTr fun _ => .ite (.pure _) (.pure _)

theorem storageFileDelete (name : FilePath)
    (flag : Bool) : Keeps related excused (storageFileDelete session name flag) := by
  refine Keeps.bind ?_ fun path => ?_
  · exact .ite (Keeps.get.bind fun _ => .pure _) (.pure _)
  cases path with
  | none => exact .pure _
  | some path =>
  refine (steps.gently (fileDelete_gently session path)).bind fun _ => ?_
  refine afterTr fun _ => .ite (.pure _) ?_
  exact .ite (steps.commitIfComplete flag) (.pure _)

theorem storageFileOpened (handle : HandleId) (flags : OpenFlags) (flag : Bool) :
    Keeps related excused (storageFileOpened session handle flags flag) := by
  have close := steps.gently (fileClose_gently session handle)
  refine afterFile fun _ => ?_
  refine (onlyIf_keeps _ (steps.gently (fileSetSize_gently session handle 0))).bind fun _ => ?_
  refine afterTr fun _ => .ite (close.bind fun _ => .pure _) ?_
  refine (steps.commitIfComplete flag).bind fun result => ?_
  cases result with
  | noError => exact .pure _
  | _ => exact close.bind fun _ => .pure _

theorem storageFileOpen (flags : OpenFlags) (name : FilePath) (flag : Bool) :
    Keeps related excused (storageFileOpen session flags name flag) := by
  refine Keeps.bind ?_ fun path => ?_
  · exact .ite (Keeps.get.bind fun _ => .pure _) (.pure _)
  cases path with
  | none => exact .pure _
  | some path =>
  refine afterTr fun tr => ?_
  cases tr.freeHandle with
  | none => exact .pure _
  | some handle =>
  refine (steps.gently (fileOpen_gently session path handle _)).bind fun _ => ?_
  refine .ite (steps.storageFileOpened handle flags flag) ?_
  refine afterTr fun _ => ?_
  exact .ite (.pure _) (.ite (.pure _) (.pure _))

theorem storageFileClose (handle : HandleId)
    (flag : Bool) : Keeps related excused (storageFileClose session handle flag) := by
  refine afterTr fun _ => .ite ?_ (.pure _)
  refine (steps.gently (fileClose_gently session handle)).bind fun _ => ?_
  exact steps.commitIfComplete flag

end

end KeptBySteps

section

variable (session : SessionId) (handle : HandleId) (blockSize : UInt64) (fuel : Nat)
  (offset bytesLeft : UInt64)
include session handle blockSize fuel offset bytesLeft

theorem readBlocks_gently : Gently (readBlocks session handle blockSize fuel offset bytesLeft) := by
  induction fuel generalizing offset bytesLeft with
  | zero => exact .pure _
  | succ fuel ih =>
  refine .ite (.pure _) ?_
  exact (fileGetBlockEtc_gently session handle false).bind fun _ =>
    .ite (ih _ _) (.pure _)

theorem writeBlocks_gently : Gently (writeBlocks session handle blockSize fuel offset bytesLeft) := by
  induction fuel generalizing offset bytesLeft with
  | zero => exact .pure _
  | succ fuel ih =>
  refine .ite (.pure _) ?_
  refine (fileGetBlockEtc_gently session handle true).bind fun _ => .ite ?_ (.pure _)
  exact (fileBlockPutDirty_gently session handle).bind fun _ => ih _ _

end

namespace KeptBySteps

variable {related : FileState → FileState → Prop} {excused : Stop → Prop} {session : SessionId}
  [Std.Refl related] [IsTrans FileState related]

section

variable (steps : KeptBySteps related excused session)

include steps

section

variable (handle : HandleId)
include handle

theorem storageFileRead (offset : UInt64) (size : UInt32) :
    Keeps related excused (storageFileRead session handle offset size) := by
  refine afterTr fun _ => .ite ?_ (.pure _)
  refine afterFile fun _ => .ite (.pure _) ?_
  refine Keeps.get.bind fun _ => ?_
  exact (steps.gently (readBlocks_gently session handle _ _ _ _)).bind fun _ =>
    .ite (.pure _) (.pure _)

theorem storageFileWrite (offset : UInt64) (length : UInt32) (flag : Bool) :
    Keeps related excused (storageFileWrite session handle offset length flag) := by
  refine afterTr fun _ => .ite ?_ (.pure _)
  refine afterFile fun _ => .ite (.pure _) ?_
  refine Keeps.get.bind fun _ => ?_
  refine (steps.gently (writeBlocks_gently session handle _ _ _ _)).bind fun written => ?_
  cases written with
  | some stop =>
    refine afterFile fun _ => ?_
    refine (onlyIf_keeps _ (steps.gently (fileSetSize_gently session handle stop))).bind fun _ => ?_
    refine afterTr fun _ => .ite (.pure _) ?_
    exact steps.commitIfComplete flag
  | none =>
  refine afterTr fun _ => ?_
  exact (onlyIf_keeps _ (steps.gently (transactionFail_gently session))).bind fun _ => .pure _

theorem storageFileGetSize : Keeps related excused (storageFileGetSize session handle) := by
  refine afterTr fun _ => .ite ?_ (.pure _)
  refine (steps.gently (fileGetSize_gently session handle)).bind fun size => ?_
  cases size <;> exact .pure _

theorem storageFileSetSize (size : UInt64) (flag : Bool) :
    Keeps related excused (storageFileSetSize session handle size flag) := by
  refine afterTr fun _ => .ite ?_ (.pure _)
  refine afterFile fun _ => .ite (.pure _) ?_
  refine (onlyIf_keeps _ (steps.gently (fileSetSize_gently session handle size))).bind fun _ => ?_
  refine Keeps.bind (.ite steps.complete (.pure _)) fun _ => ?_
  exact afterTr fun _ => .ite (.pure _) (.pure _)

end

theorem endTransaction (flag : Bool) : Keeps related excused (endTransaction session flag) := by
  have reset : Gently (modifyTr session fun tr => { tr with failed := false }) :=
    modifyTr_gently (fun _ _ member => member) fun _ => rfl
  refine .ite ?_ ?_
  · refine afterTr fun _ => ?_
    refine Keeps.bind (.ite steps.complete (.pure _)) fun _ => ?_
    refine afterTr fun _ => .ite ?_ (.pure _)
    exact (steps.gently reset).bind fun _ => .pure _
  · refine afterTr fun _ => ?_
    refine (onlyIf_keeps _ (steps.gently (transactionFail_gently session))).bind fun _ => ?_
    exact (steps.gently reset).bind fun _ => .pure _

theorem dispatch (flag : Bool) (request : Request) : Keeps related excused (dispatch session flag request) := by
  cases request with
  | fileDelete name => exact (steps.storageFileDelete name flag).bind fun _ => .pure _
  | fileOpen flags name => exact steps.storageFileOpen flags name flag
  | fileClose handle => exact (steps.storageFileClose handle flag).bind fun _ => .pure _
  | fileRead handle offset size => exact steps.storageFileRead handle offset size
  | fileWrite handle offset length =>
    exact (steps.storageFileWrite handle offset length flag).bind fun _ => .pure _
  | fileGetSize handle => exact steps.storageFileGetSize handle
  | fileSetSize handle size =>
    exact (steps.storageFileSetSize handle size flag).bind fun _ => .pure _
  | malformed | endTransaction | unsupported => exact .pure _

theorem clientHandleMsg (message : Message) : Keeps related excused (clientHandleMsg session message) := by
  refine .ite ((steps.endTransaction message.complete).bind fun _ => .pure _) ?_
  refine afterTr fun _ => .ite ?_ ?_
  · refine Keeps.bind (onlyIf_keeps _ (steps.gently ?_)) fun _ => .pure _
    exact modifyTr_gently (fun _ _ member => member) fun _ => rfl
  · refine afterTr fun _ => ?_
    refine (onlyIf_keeps _ (steps.gently (transactionActivate_gently session))).bind fun _ => ?_
    exact steps.dispatch message.complete message.request

end

end KeptBySteps

end Trusty.Storage
