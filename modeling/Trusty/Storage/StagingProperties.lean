import Trusty.Storage.RequestProperties

/-!
# Staged changes

`transaction_complete` stages its changes in the handles of all transactions. However
it ends, nothing stays staged, except in a handle cleared for an unreadable entry.
-/

namespace Trusty.Storage

open StateLogic FileM List

def FileState.Quiet (state : FileState) : Prop :=
  ∀ session ∈ state.transactions, ∀ handle ∈ (state.tr session).openFiles,
    state.Idle session handle

theorem Gentle.quiet {state final : FileState} (gentle : Gentle state final) (quiet : state.Quiet) : final.Quiet := by
  intro session member handle opened
  rw [gentle.transactions] at member
  rcases gentle.idle session handle opened with ⟨before, keeps⟩ | idle
  · exact keeps (quiet session member handle before)
  · exact idle

def Settles (action : SessionId → HandleId → FileM Unit) : Prop :=
  ∀ other handle state, wp (action other handle)
    (fun _ final => Gentle state final ∧ final.Idle other handle)
    (fun reason final => FailStops reason ∨ Gentle state final) state

theorem fileForEachOpen_quiet {action : SessionId → HandleId → FileM Unit} (settles : Settles action)
    (state : FileState) : wp (fileForEachOpen action) (fun _ final => final.Quiet) (fun _ _ => True) state := by
  -- What is open and not settled belongs to a session that is still to be visited.
  apply wp_mono (wp_forM (fun _ left current => current.transactions = state.transactions ∧
    ∀ session ∈ state.transactions, session ∉ left →
      ∀ handle ∈ (current.tr session).openFiles, current.Idle session handle) ?_ ?_) ?_
    fun _ _ stops => stops
  · rintro done other rest current ⟨transactions, settled⟩
    apply wp_mono (wp_forM (fun _ left later => Gentle current later ∧
      ∀ handle ∈ (later.tr other).openFiles, handle ∉ left → later.Idle other handle) ?_ ?_) ?_
      fun _ _ stops => stops
    · rintro visited handle left later ⟨gentle, settledHere⟩
      apply wp_mono (settles other handle later) _ fun _ _ _ => trivial
      rintro _ final ⟨onwards, idle⟩
      refine ⟨IsTrans.trans _ _ _ gentle onwards, ?_⟩
      intro one opened unvisited
      by_cases same : one = handle
      · subst same
        exact idle
      rcases onwards.idle other one opened with ⟨before, keeps⟩ | idle
      · apply keeps
        apply settledHere one before
        simp [same, unvisited]
      · exact idle
    · exact ⟨Std.Refl.refl current, fun handle opened unvisited => absurd opened unvisited⟩
    · rintro _ later ⟨gentle, visited⟩
      refine ⟨gentle.transactions.trans transactions, ?_⟩
      intro session member unvisited handle opened
      by_cases same : session = other
      · subst same
        exact visited handle opened not_mem_nil
      rcases gentle.idle session handle opened with ⟨before, keeps⟩ | idle
      · apply keeps
        apply settled session member _ handle before
        simp [same, unvisited]
      · exact idle
  · exact ⟨rfl, fun session member unvisited => absurd member unvisited⟩
  · rintro _ final ⟨transactions, settled⟩ session member handle opened
    rw [transactions] at member
    exact settled session member not_mem_nil handle opened

theorem Gentle.settle (state : FileState) (session : SessionId) (handle : HandleId)
    (file : FileHandle) (settled : file.toCommitBlockMac = file.committedBlockMac) :
    Gentle state (state.setTr session ((state.tr session).setFile handle file)) ∧
      (state.setTr session ((state.tr session).setFile handle file)).Idle session handle := by
  constructor
  · apply Gentle.setTr
    intro other member
    by_cases same : other = handle
    · subst same
      rw [Transaction.setFile_file_same]
      exact .inr settled
    · rw [Transaction.setFile_file_other _ _ same]
      exact .inl ⟨member, rfl, rfl⟩
  · left
    rw [FileState.setTr_tr_same, Transaction.setFile_file_same]
    exact settled

theorem fileRestoreToCommit_settles : Settles fileRestoreToCommit := by
  intro other handle state
  simp only [fileRestoreToCommit, wp_bind, wp_getFile, wp_ite, wp_assert, wp_modifyFile]
  refine ⟨fun _ => ⟨fun same => ?_, fun _ => .inr (Std.Refl.refl state)⟩, fun _ => Gentle.settle _ _ _ _ rfl⟩
  exact ⟨Std.Refl.refl state, .inl (by simpa using (eq_of_beq same).symm)⟩

theorem fileCheckConflict_gently (other : SessionId) (handle : HandleId) : Gently (fileCheckConflict other handle) := by
  refine (getFile_keeps other handle).bind fun file => ?_
  refine (onlyIf_keeps _ (transactionFail_gently other)).bind fun _ => ?_
  exact (getFile_keeps other handle).bind fun _ => assert_keeps _ _

theorem fileApplyToCommit_settles (session : SessionId) : Settles (fileApplyToCommit session) := by
  intro other handle state
  have own : Gently (onlyIf (session == other) (modifyFile other handle fun file => { file with usedByTr := false })) :=
    onlyIf_keeps _ (modifyFile_gently (fun _ => rfl) fun _ => rfl)
  rw [fileApplyToCommit, wp_bind]
  apply wp_mono (own state) _ fun _ _ stops => stops
  intro _ current before
  have onwards : ∀ {final}, Gentle current final → Gentle state final := fun after => IsTrans.trans _ _ _ before after
  simp only [wp_bind, wp_getFile, wp_ite, wp_assert, wp_modifyFile]
  refine ⟨fun _ => ⟨fun same => ?_, fun _ => .inr before⟩, fun _ => ⟨fun _ => ?_, fun _ => ?_⟩⟩
  · exact ⟨before, .inl (eq_of_beq same)⟩
  · have settled := Gentle.settle current other handle { (current.tr other).file handle with
        committedBlockMac := ((current.tr other).file handle).toCommitBlockMac } rfl
    exact ⟨fun _ => ⟨fun _ => ⟨onwards settled.1, settled.2⟩, fun _ => .inr (onwards settled.1)⟩,
      fun _ => .inr (onwards settled.1)⟩
  · apply wp_mono (fileCheckConflict_gently other handle current)
    · intro _ checked gentle
      have settled := Gentle.settle checked other handle { (checked.tr other).file handle with
          committedBlockMac := ((checked.tr other).file handle).toCommitBlockMac
          blockMac := ((checked.tr other).file handle).toCommitBlockMac
          size := ((checked.tr other).file handle).toCommitSize } rfl
      exact ⟨onwards (IsTrans.trans _ _ _ gentle settled.1), settled.2⟩
    · exact fun reason final => .imp_right onwards

/-- The steps by which `session` stages changes of the given blocks keep the
relation. -/
structure KeptByStaging (related : FileState → FileState → Prop) (session : SessionId)
    (touched : DataBlock → Prop) : Prop where
  interrupted : ∀ state final, Interrupted state final → related state final
  stage : ∀ old oldNoMac new size, touched old.block →
    Keeps related FailStops (fileUpdateBlockMacAll session old oldNoMac new size)
  stageOwn : ∀ oldNoMac new size,
    Keeps related FailStops (fileUpdateBlockMacTr session session .clear oldNoMac new size)

namespace KeptByStaging

variable {related : FileState → FileState → Prop} {session : SessionId} {touched : DataBlock → Prop}

theorem asking (staging : KeptByStaging related session touched) {α : Type} {program : FileM α}
    (asking : Asking program) : Keeps related FailStops program :=
  asking.mono staging.interrupted fun _ stops => stops

variable [Std.Refl related] [IsTrans FileState related]

section

variable (staging : KeptByStaging related session touched) (tree newFiles : FileTree)
include staging tree newFiles

theorem commitUpdated (inside : ∀ entry ∈ tree, touched entry.1) :
    Keeps related FailStops (commitUpdated session tree newFiles) := by
  have asks := staging.asking (attempt_asking session)
  induction tree generalizing newFiles with
  | nil => exact .pure _
  | cons entry rest ih =>
  obtain ⟨old, file⟩ := entry
  refine attempting_keeps asks (.pure _) fun _ => (getEntry_keeps file).bind fun _ => ?_
  refine (staging.stage _ _ _ _ (inside _ mem_cons_self)).bind fun _ => ?_
  refine Keeps.get.bind fun _ => attempting_keeps asks (.pure _) fun _ => ?_
  refine afterTr fun _ => .ite (.pure _) ?_
  refine (assert_keeps _ _).bind fun _ => (assert_keeps _ _).bind fun _ => ?_
  exact ih _ fun entry member => inside entry (mem_cons_of_mem _ member)

theorem commitRemoved (inside : ∀ entry ∈ tree, touched entry.2.block) :
    Keeps related FailStops (commitRemoved session tree newFiles) := by
  have asks := staging.asking (attempt_asking session)
  induction tree generalizing newFiles with
  | nil => exact .pure _
  | cons entry rest ih =>
  obtain ⟨key, file⟩ := entry
  refine attempting_keeps asks (.pure _) fun _ => (getEntry_keeps file).bind fun _ => ?_
  refine (staging.stage _ _ _ _ (inside _ mem_cons_self)).bind fun _ => ?_
  refine (staging.asking (fileTreeLookup_asking session _ _)).bind fun found => ?_
  cases found with
  | none =>
    exact afterTr fun _ => (assert_keeps _ _).bind fun _ => .pure _
  | some old =>
  refine attempting_keeps asks (.pure _) fun _ => ?_
  refine afterTr fun _ => .ite (.pure _) ?_
  refine (assert_keeps _ _).bind fun _ => Keeps.get.bind fun _ => ?_
  exact ih _ fun entry member => inside entry (mem_cons_of_mem _ member)

theorem commitAdded : Keeps related FailStops (commitAdded session tree newFiles) := by
  have asks := staging.asking (attempt_asking session)
  induction tree generalizing newFiles with
  | nil => exact .pure _
  | cons entry rest ih =>
  obtain ⟨key, file⟩ := entry
  refine attempting_keeps asks (.pure _) fun _ => (getEntry_keeps file).bind fun _ => ?_
  refine (staging.asking (fileTreeLookup_asking session _ _)).bind fun found => ?_
  cases found with
  | some _ =>
    exact (staging.asking (transactionFail_asking session)).bind fun _ => .pure _
  | none =>
  refine (staging.stageOwn _ _ _).bind fun _ => attempting_keeps asks (.pure _) fun _ => ?_
  refine afterTr fun _ => .ite (.pure _) ?_
  exact Keeps.get.bind fun _ => ih _

end

end KeptByStaging

theorem transactionWrite_asking (session : SessionId) : Asking (transactionWrite session) := by
  have asks := attempt_asking session
  refine asks.bind fun _ => asks.bind fun _ => asks.bind fun _ => asks.bind fun _ => ?_
  exact afterTr fun _ => .pure _

theorem failConflicting_asking (session : SessionId) (others : List SessionId) :
    Asking (failConflicting session others) := by
  induction others with
  | nil => exact .pure _
  | cons other rest ih =>
  refine afterTr fun _ => .ite (.pure _) ?_
  refine (getTr_keeps other).bind fun _ => ?_
  refine (onlyIf_keeps _ (Keeps.bind ?_ fun _ => ?_)).bind fun _ => ih
  · refine attempting_keeps (attempt_asking session) (.pure _) fun _ => ?_
    exact afterTr fun _ => (getTr_keeps other).bind fun _ => .pure _
  · exact onlyIf_keeps _ (transactionFail_asking other)

theorem failActive_asking (others : List SessionId) : Asking (failActive others) := by
  induction others with
  | nil => exact .pure _
  | cons other rest ih =>
  refine (getTr_keeps other).bind fun _ => ?_
  exact (onlyIf_keeps _ (transactionFail_asking other)).bind fun _ => ih

theorem failOthers_gently (session : SessionId) : Gently (failOthers session) := by
  refine afterTr fun _ => (assert_keeps _ _).bind fun _ => ?_
  refine (attempt_gently session).bind fun _ => Keeps.get.bind fun state => ?_
  refine (failConflicting_asking session state.transactions).gently.bind fun _ => ?_
  refine afterTr fun _ => onlyIf_keeps _ (.bind ?_ fun _ => ?_)
  · exact modifyTr_gently (fun _ _ member => member) fun _ => rfl
  · exact Keeps.get.bind fun state => (failActive_asking state.transactions).gently

theorem transactionComplete_quiet (session : SessionId) (state : FileState) :
    wp (transactionComplete session) (fun _ final => final.Quiet) (fun _ _ => True) state := by
  have revert : ∀ state, wp fileTransactionCompleteFailed (fun _ final => final.Quiet)
      (fun _ _ => True) state := fun state => by
    exact fileForEachOpen_quiet fileRestoreToCommit_settles _
  have commit : ∀ newFiles state, wp (transactionCommit session newFiles)
      (fun _ final => final.Quiet) (fun _ _ => True) state := by
    intro newFiles state
    simp only [transactionCommit, wp_bind, wp_modify, wp_modifyTr]
    apply wp_mono (fileForEachOpen_quiet (fileApplyToCommit_settles session) _) _ fun _ _ stops => stops
    intro _ current quiet
    apply wp_mono (failOthers_gently session current) _ fun _ _ _ => trivial
    exact fun _ final gentle => gentle.quiet quiet
  simp only [transactionComplete, wp_bind, wp_getTr, wp_assert, wp_ite]
  refine ⟨fun _ => ⟨fun _ => revert state, fun _ => ⟨fun _ => ?_, fun _ => trivial⟩⟩, fun _ => trivial⟩
  apply wp_mono (wp_trivial _) _ fun _ _ stops => stops
  intro staged current _
  cases staged with
  | none => exact revert current
  | some newFiles =>
  simp only [transactionFinish, wp_bind]
  apply wp_mono (wp_trivial _) _ fun _ _ stops => stops
  intro written later _
  simp only [wp_ite, wp_bind]
  refine ⟨fun _ => ?_, fun _ => revert later⟩
  apply wp_mono (wp_trivial _) _ fun _ _ stops => stops
  intro _ last _
  simp only [wp_bind, wp_getTr, wp_assert]
  exact ⟨fun _ => commit newFiles last, fun _ => trivial⟩

def StaysQuiet (state final : FileState) : Prop := state.Quiet → final.Quiet

instance : Std.Refl StaysQuiet := ⟨fun _ => id⟩

instance : IsTrans FileState StaysQuiet := ⟨fun _ _ _ left right quiet => right (left quiet)⟩

theorem keptBySteps_quiet (session : SessionId) : KeptBySteps StaysQuiet (fun _ => True) session where
  gentle _ _ gentle := gentle.quiet
  excuses _ _ := trivial
  complete state := wp_mono (transactionComplete_quiet session state) (fun _ _ quiet _ => quiet)
    fun _ _ _ => .inl trivial

variable {state : FileState}

theorem clientDisconnect_quiet (session : SessionId) (quiet : state.Quiet) :
    wp (clientDisconnect session) (fun _ final => final.Quiet) (fun _ _ => True) state := by
  have gently : Gently (do
      onlyIf ((state.tr session).active && !(state.tr session).failed) (transactionFail session)
      modifyTr session fun tr => { tr with openFiles := [] }) := by
    refine (onlyIf_keeps _ (transactionFail_gently session)).bind fun _ => ?_
    exact modifyTr_gently (fun _ _ member => absurd member not_mem_nil) fun _ => rfl
  simp only [clientDisconnect, wp_bind, wp_getTr]
  have closed := gently state
  rw [wp_bind] at closed
  apply wp_mono closed _ fun _ _ _ => trivial
  intro _ current gentle
  simp only [wp_bind, wp_modifyTr, wp_getTr, wp_assert, wp_modify]
  refine ⟨fun _ other member handle opened => ?_, fun _ => trivial⟩
  exact gentle.quiet quiet other (mem_of_mem_erase member) handle opened

theorem clientConnect_quiet (session : SessionId) (uuidText : FilePath) (quiet : state.Quiet) :
    wp (clientConnect session uuidText) (fun _ final => final.Quiet) (fun _ _ => True) state := by
  simp only [clientConnect, wp_bind, wp_get, wp_ite, wp_throw, wp_set]
  refine ⟨fun _ => trivial, fun fresh other member handle opened => ?_⟩
  unfold FileState.Idle
  by_cases same : other = session
  · subst same
    simp [Transaction.init] at opened
  · simp only [Function.update_of_ne same] at opened ⊢
    have before : other ∈ state.transactions := by simpa [same] using member
    exact quiet other before handle opened

theorem handleEvent_quiet (event : Event) (quiet : state.Quiet) :
    wp (handleEvent event) (fun _ final => final.Quiet) (fun _ _ => True) state := by
  cases event with
  | connect session uuidText => exact clientConnect_quiet session uuidText quiet
  | disconnect session =>
    simp only [handleEvent, wp_bind, wp_get, wp_ite, wp_throw]
    exact ⟨fun _ => clientDisconnect_quiet session quiet, fun _ => trivial⟩
  | message session message =>
  simp only [handleEvent, wp_bind, wp_get, wp_ite, wp_throw]
  refine ⟨fun _ => ?_, fun _ => trivial⟩
  apply wp_mono ((keptBySteps_quiet session).clientHandleMsg message state)
  · exact fun _ final stays => stays quiet
  · exact fun _ _ _ => trivial

theorem FileState.Started.quiet (started : state.Started) : state.Quiet := by
  intro session member
  rw [started.transactions] at member
  contradiction

theorem Reached.quiet {allowed : FileState → Event → FileState → Prop} {start : FileState}
    (started : start.Started) (reached : Reached allowed start state) : state.Quiet := by
  induction reached with
  | start => exact started.quiet
  | event _ event handled _ quiet => exact (wp_of_ok handled).mp (handleEvent_quiet event quiet)

end Trusty.Storage
