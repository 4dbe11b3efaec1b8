import Trusty.Storage.StagingProperties

/-!
# What a commit leaves alone

A handle of another transaction, with nothing staged and at a file that the commit
neither updates nor removes, stays as it is unless its own transaction fails.
-/

namespace Trusty.Storage

open FileState (setTr_tr_other setTr_tr_same)

open StateLogic FileM
open Function (update_self update_of_ne)

def Transaction.touches (tr : Transaction) (committed : BlockMac) : Bool :=
  committed.valid &&
    (tr.filesUpdated.any (fun entry => entry.1 == committed.block) ||
      tr.filesRemoved.any (fun entry => entry.2.block == committed.block))

def Unconcerned (touched : DataBlock → Prop) (file : FileHandle) : Prop :=
  file.toCommitBlockMac = file.committedBlockMac ∧
    (file.committedBlockMac.valid = true → ¬touched file.committedBlockMac.block)

/-- `session` completes, and leaves a handle of `other` alone unless `other`
fails. -/
structure Spares (session other : SessionId) (handle : HandleId) (touched : DataBlock → Prop)
    (state final : FileState) : Prop where
  removed : (final.tr session).filesRemoved = (state.tr session).filesRemoved
  failed : (state.tr other).failed = true → (final.tr other).failed = true
  spared : Unconcerned touched ((state.tr other).file handle) →
    (state.tr other).failed = false ∧ (final.tr other).failed = true ∨
      (final.tr other).file handle = (state.tr other).file handle

variable {state : FileState}

section Spares

variable {session other : SessionId} {handle : HandleId} {touched : DataBlock → Prop}

instance : Std.Refl (Spares session other handle touched) :=
  ⟨fun _ => ⟨rfl, id, fun _ => .inr rfl⟩⟩

instance : IsTrans FileState (Spares session other handle touched) where
  trans first second third left right := by
    refine ⟨right.removed.trans left.removed, fun failed => right.failed (left.failed failed), ?_⟩
    intro unconcerned
    rcases left.spared unconcerned with ⟨running, failed⟩ | same
    · exact .inl ⟨running, right.failed failed⟩
    rcases right.spared (same ▸ unconcerned) with ⟨running, failed⟩ | again
    · left
      refine ⟨?_, failed⟩
      cases before : (first.tr other).failed with
      | false => rfl
      | true => simp [left.failed before] at running
    · exact .inr (again.trans same)

theorem Disturbance.spares {final : FileState} (disturbance : Disturbance state final) : Spares session other handle touched state final := by
  cases disturbance with
  | answers rest => exact ⟨rfl, id, fun _ => .inr rfl⟩
  | marks one complete =>
    constructor
    · by_cases same : session = one
      · subst same
        rw [setTr_tr_same]
      · rw [setTr_tr_other _ _ same]
    · intro failed
      by_cases same : other = one
      · subst same
        rw [setTr_tr_same]
      · rwa [setTr_tr_other _ _ same]
    · intro _
      right
      by_cases same : other = one
      · subst same
        rw [setTr_tr_same]
      · rw [setTr_tr_other _ _ same]
  | fails one fails =>
  have running := fails.notFailed
  obtain ⟨file, answers, cleared, rfl, _⟩ := fails.result
  constructor
  · by_cases same : session = one
    · subst same
      simp only [update_self]
    · simp only [update_of_ne same]
  · intro failed
    by_cases same : other = one
    · subst same
      simp only [update_self]
    · simpa only [update_of_ne same] using failed
  · intro _
    by_cases same : other = one
    · subst same
      left
      simp only [update_self]
      exact ⟨running, trivial⟩
    · right
      simp only [update_of_ne same]

theorem Asking.spares {α : Type} {program : FileM α} (asking : Asking program) :
    Keeps (Spares session other handle touched) FailStops program :=
  asking.mono (fun _ _ => Interrupted.kept fun _ _ step => step.spares) fun _ stops => stops

theorem Spares.setFile {state : FileState} {one : SessionId} {changed : HandleId} {file : FileHandle}
    (elsewhere : one = other → changed = handle →
      Unconcerned touched ((state.tr other).file handle) → file = (state.tr other).file handle) :
    Spares session other handle touched state (state.setTr one ((state.tr one).setFile changed file)) := by
  constructor
  · by_cases same : session = one
    · subst same
      rw [setTr_tr_same]
      rfl
    · rw [setTr_tr_other _ _ same]
  · intro failed
    by_cases same : other = one
    · subst same
      rw [setTr_tr_same]
      exact failed
    · rwa [setTr_tr_other _ _ same]
  · intro unconcerned
    right
    by_cases same : other = one
    · subst same
      rw [setTr_tr_same]
      by_cases here : handle = changed
      · subst here
        rw [Transaction.setFile_file_same]
        exact elsewhere rfl rfl unconcerned
      · rw [Transaction.setFile_file_other _ _ here]
    · rw [setTr_tr_other _ _ same]

theorem Spares.setTr {next : Transaction} (ne : other ≠ session)
    (removed : next.filesRemoved = (state.tr session).filesRemoved) :
    Spares session other handle touched state (state.setTr session next) := by
  constructor
  · rw [setTr_tr_same]
    exact removed
  · rw [setTr_tr_other _ _ ne]
    exact id
  · rw [setTr_tr_other _ _ ne]
    exact fun _ => .inr rfl

theorem fileUpdateBlockMacTr_spares (ne : other ≠ session) {one : SessionId} {old : BlockMac}
    (inside : one = other → touched old.block) (oldNoMac : Bool) (new : BlockMac) (size : DataBlock) :
    Keeps (Spares session other handle touched) FailStops (fileUpdateBlockMacTr session one old oldNoMac new size) := by
  intro state
  simp only [fileUpdateBlockMacTr, wp_bind, wp_assert, wp_getTr]
  refine ⟨fun valid => ?_, fun _ => .inr (Std.Refl.refl state)⟩
  apply Keeps.forM
  intro visited current
  simp only [wp_bind, wp_getFile, wp_ite, wp_assert, wp_modifyFile, wp_pure]
  refine ⟨fun related => ⟨fun _ => ?_, fun _ => .inr (Std.Refl.refl current)⟩, fun _ => Std.Refl.refl current⟩
  apply Spares.setFile
  rintro rfl rfl unconcerned
  -- The handle would be at the block `old`, which is touched.
  exfalso
  have same : ((current.tr one).file visited).committedBlockMac.block = old.block := by
    simp only [FileHandle.related, BlockMac.sameBlock, Bool.and_eq_true] at related
    simpa using related.1
  have oldValid : old.valid = true := by simpa [ne] using valid
  apply unconcerned.2
  · simpa [BlockMac.valid, same] using oldValid
  · rw [same]
    exact inside rfl

theorem keptByStaging_spares (ne : other ≠ session) :
    KeptByStaging (Spares session other handle touched) session touched where
  interrupted _ _ := Interrupted.kept fun _ _ step => step.spares
  stage _ oldNoMac new size inside := Keeps.get.bind fun _ =>
    Keeps.forM (fun _ => fileUpdateBlockMacTr_spares ne (fun _ => inside) oldNoMac new size) _
  stageOwn oldNoMac new size := fileUpdateBlockMacTr_spares ne (fun same => absurd same.symm ne) oldNoMac new size

theorem fileForEachOpen_spares {action : SessionId → HandleId → FileM Unit}
    (each : ∀ one visited, Keeps (Spares session other handle touched) FailStops (action one visited)) :
    Keeps (Spares session other handle touched) FailStops (fileForEachOpen action) := by
  refine Keeps.get.bind fun state => Keeps.forM (fun one => ?_) state.transactions
  exact (getTr_keeps one).bind fun tr => Keeps.forM (each one) tr.openFiles

theorem fileRestoreToCommit_spares (one : SessionId) (visited : HandleId) :
    Keeps (Spares session other handle touched) FailStops (fileRestoreToCommit one visited) := by
  intro state
  simp only [fileRestoreToCommit, wp_bind, wp_getFile, wp_ite, wp_assert, wp_modifyFile]
  refine ⟨fun _ => ⟨fun _ => Std.Refl.refl state, fun _ => .inr (Std.Refl.refl state)⟩, fun staged => Spares.setFile ?_⟩
  rintro rfl rfl unconcerned
  simp [BlockMac.sameBlock, unconcerned.1] at staged

theorem fileApplyToCommit_spares (ne : other ≠ session) (one : SessionId) (visited : HandleId) :
    Keeps (Spares session other handle touched) FailStops (fileApplyToCommit session one visited) := by
  have unflag : Keeps (Spares session other handle touched) FailStops (onlyIf (session == one)
      (modifyFile one visited fun file => { file with usedByTr := false })) := by
    intro state
    rw [wp_onlyIf, wp_modifyFile]
    refine ⟨fun own => Spares.setFile ?_, fun _ => Std.Refl.refl state⟩
    rintro rfl
    exact absurd (eq_of_beq own).symm ne
  refine unflag.bind fun _ state => ?_
  have check : Keeps (Spares session other handle touched) FailStops (fileCheckConflict one visited) := by
    refine (getFile_keeps one visited).bind fun _ => ?_
    refine (onlyIf_keeps _ (transactionFail_asking one).spares).bind fun _ => ?_
    exact (getFile_keeps one visited).bind fun _ => assert_keeps _ _
  simp only [wp_bind, wp_getFile, wp_ite, wp_assert, wp_modifyFile]
  refine ⟨fun _ => ⟨fun _ => Std.Refl.refl state, fun _ => .inr (Std.Refl.refl state)⟩,
    fun staged => ⟨fun own => ?_, fun _ => ?_⟩⟩
  · have elsewhere : ∀ file, Spares session other handle touched state
        (state.setTr one ((state.tr one).setFile visited file)) :=
      fun _ => Spares.setFile fun same => absurd (same ▸ own).symm ne
    exact ⟨fun _ => ⟨fun _ => elsewhere _, fun _ => .inr (elsewhere _)⟩, fun _ => .inr (elsewhere _)⟩
  apply wp_mono (check state) _ fun _ _ stops => stops
  intro _ checked spares
  rw [wp_modifyFile]
  by_cases here : one = other ∧ visited = handle
  · obtain ⟨rfl, rfl⟩ := here
    refine ⟨?_, ?_, fun unconcerned => ?_⟩
    · rw [setTr_tr_other _ _ ne.symm]
      exact spares.removed
    · rw [setTr_tr_same]
      exact spares.failed
    · simp [BlockMac.sameBlock, unconcerned.1] at staged
  · have onwards : ∀ file, Spares session other handle touched checked
        (checked.setTr one ((checked.tr one).setFile visited file)) :=
      fun _ => Spares.setFile fun same there => absurd ⟨same, there⟩ here
    exact IsTrans.trans _ _ _ spares (onwards _)

theorem fileTransactionComplete_spares (state : FileState) (ne : other ≠ session)
    (updated : ∀ entry ∈ (state.tr session).filesUpdated, touched entry.1)
    (removed : ∀ entry ∈ (state.tr session).filesRemoved, touched entry.2.block) :
    wp (fileTransactionComplete session) (fun _ => Spares session other handle touched state)
      (fun reason final => FailStops reason ∨ Spares session other handle touched state final)
      state := by
  have staging : KeptByStaging (Spares session other handle touched) session touched := keptByStaging_spares ne
  simp only [fileTransactionComplete, wp_bind, wp_getTr, wp_get]
  apply wp_mono (staging.commitUpdated _ _ updated state) _ fun _ _ stops => stops
  intro result current spares
  cases result with
  | none => exact spares
  | some newFiles =>
  rw [← spares.removed] at removed
  simp only [wp_bind, wp_getTr]
  have onwards {later final} (before : Spares session other handle touched state later)
      (after : Spares session other handle touched later final) :=
    IsTrans.trans (r := Spares session other handle touched) _ _ _ before after
  apply wp_mono (staging.commitRemoved _ _ removed current)
  · intro result later after
    have spares := onwards spares after
    cases result with
    | none => exact spares
    | some newFiles =>
    simp only [wp_bind, wp_getTr]
    apply wp_mono (staging.commitAdded _ _ later)
    · exact fun _ final => onwards spares
    · exact fun _ final => .imp_right (onwards spares)
  · exact fun _ final => .imp_right (onwards spares)

theorem transactionComplete_spares (state : FileState) (ne : other ≠ session)
    (updated : ∀ entry ∈ (state.tr session).filesUpdated, touched entry.1)
    (removed : ∀ entry ∈ (state.tr session).filesRemoved, touched entry.2.block) :
    wp (transactionComplete session) (fun _ => Spares session other handle touched state) (fun _ _ => True) state := by
  have revert : Keeps (Spares session other handle touched) FailStops fileTransactionCompleteFailed := by
    refine Keeps.bind (fun _ => ⟨rfl, id, fun _ => .inr rfl⟩) fun _ => ?_
    exact fileForEachOpen_spares fileRestoreToCommit_spares
  have others : Keeps (Spares session other handle touched) FailStops (failOthers session) := by
    refine afterTr fun _ => (assert_keeps _ _).bind fun _ => ?_
    refine (attempt_asking session).spares.bind fun _ => Keeps.get.bind fun state => ?_
    refine (failConflicting_asking session state.transactions).spares.bind fun _ => ?_
    refine afterTr fun _ => onlyIf_keeps _ (.bind ?_ fun _ => ?_)
    · exact fun _ => Spares.setTr ne rfl
    · exact Keeps.get.bind fun state => (failActive_asking state.transactions).spares
  have commit : ∀ newFiles, Keeps (Spares session other handle touched) FailStops
      (transactionCommit session newFiles) := by
    intro newFiles
    refine Keeps.bind (fun _ => ⟨rfl, id, fun _ => .inr rfl⟩) fun _ => ?_
    refine Keeps.bind (fun _ => Spares.setTr ne rfl) fun _ => ?_
    exact (fileForEachOpen_spares (fileApplyToCommit_spares ne)).bind fun _ => others
  have finish : ∀ newFiles, Keeps (Spares session other handle touched) FailStops
      (transactionFinish session newFiles) := by
    intro newFiles
    refine (transactionWrite_asking session).spares.bind fun _ => .ite ?_ revert
    refine (attempt_asking session).spares.bind fun _ => afterTr fun _ => ?_
    exact (assert_keeps _ _).bind fun _ => commit newFiles
  simp only [transactionComplete, wp_bind, wp_getTr, wp_assert, wp_ite]
  refine ⟨fun _ => ⟨fun _ => ?_, fun _ => ⟨fun _ => ?_, fun _ => trivial⟩⟩, fun _ => trivial⟩
  · exact wp_mono (revert state) (fun _ _ spares => spares) fun _ _ _ => trivial
  have staged : wp (fileTransactionComplete session) (fun _ => Spares session other handle touched state) _ state :=
    fileTransactionComplete_spares state ne updated removed
  apply wp_mono staged _ fun _ _ _ => trivial
  intro result current spares
  have onwards : ∀ {rest : FileM Unit}, Keeps (Spares session other handle touched) FailStops rest →
      wp rest (fun _ => Spares session other handle touched state) (fun _ _ => True) current :=
    fun keeps => wp_mono (keeps current) (fun _ _ after => IsTrans.trans _ _ _ spares after) fun _ _ _ => trivial
  cases result with
  | none => exact onwards revert
  | some newFiles => exact onwards (finish newFiles)

end Spares

def FileState.Unstaged (state : FileState) : Prop :=
  ∀ session ∈ state.transactions, ∀ handle ∈ (state.tr session).openFiles,
    ((state.tr session).file handle).toCommitBlockMac =
      ((state.tr session).file handle).committedBlockMac

/-- If `session` completes now, a handle of another transaction keeps its
block and its size, unless `session` has touched its file or the other
transaction fails. -/
def FileState.CommitsApart (state : FileState) (session : SessionId) : Prop :=
  ∀ final, transactionComplete session state = .ok () final →
    ∀ other ∈ state.transactions, other ≠ session →
      ∀ handle ∈ (state.tr other).openFiles,
        (state.tr session).touches ((state.tr other).file handle).committedBlockMac = false →
          (state.tr other).failed = false ∧ (final.tr other).failed = true ∨
            ((final.tr other).file handle).blockMac = ((state.tr other).file handle).blockMac ∧
              ((final.tr other).file handle).size = ((state.tr other).file handle).size

/-- No handle was cleared, except in a `transaction_complete` that has itself
reverted what it staged. -/
def Uncleared (_ : FileState) (_ : Event) (final : FileState) : Prop := final.cleared = []

instance (state : FileState) (event : Event) (final : FileState) :
    Decidable (Uncleared state event final) :=
  inferInstanceAs (Decidable (final.cleared = []))

theorem FileState.Unstaged.commitsApart (unstaged : state.Unstaged)
    (session : SessionId) : state.CommitsApart session := by
  intro final completed other member ne handle opened untouched
  -- The blocks at which `session` stages something.
  let touched : DataBlock → Prop := fun block =>
    (∃ entry ∈ (state.tr session).filesUpdated, entry.1 = block) ∨
      ∃ entry ∈ (state.tr session).filesRemoved, entry.2.block = block
  have spares : Spares session other handle touched state final := by
    have run : wp (transactionComplete session)
        (fun _ => Spares session other handle touched state) (fun _ _ => True) state := by
      apply transactionComplete_spares state ne
      · exact fun entry inside => .inl ⟨entry, inside, rfl⟩
      · exact fun entry inside => .inr ⟨entry, inside, rfl⟩
    exact (wp_of_ok completed).mp run
  have unconcerned : Unconcerned touched ((state.tr other).file handle) := by
    refine ⟨unstaged other member handle opened, fun valid => ?_⟩
    simp only [Transaction.touches, valid, Bool.true_and, Bool.or_eq_false_iff,
      List.any_eq_false, beq_iff_eq] at untouched
    rintro (⟨entry, inside, same⟩ | ⟨entry, inside, same⟩)
    · exact untouched.1 entry inside same
    · exact untouched.2 entry inside same
  rcases spares.spared unconcerned with failed | same
  · exact .inl failed
  · rw [same]
    exact .inr ⟨rfl, rfl⟩

theorem staging_never_leaks {start state : FileState} (started : start.Started)
    (reached : Reached Uncleared start state) : state.Unstaged ∧ ∀ session, state.CommitsApart session := by
  have uncleared : state.cleared = [] := by
    cases reached with
    | start => exact started.cleared
    | event _ _ _ fine => exact fine
  have unstaged : state.Unstaged := by
    intro session member handle opened
    rcases reached.quiet started session member handle opened with same | lost
    · exact same
    · rw [uncleared] at lost
      contradiction
  exact ⟨unstaged, unstaged.commitsApart⟩

theorem staging_never_leaks_sample : ∃ state, Reached Uncleared (sampleState []) state ∧ (state.tr 1).openFiles = [0] ∧
      state.Unstaged ∧ ∀ session, state.CommitsApart session := by
  obtain ⟨state, reached, opened⟩ := exists_reached Uncleared (sampleState [])
    [.connect 1 [1], .connect 2 [1], openSample 1, .message 1 ⟨.fileSetSize 0 50, true⟩]
    (fun state => (state.tr 1).openFiles == [0]) (by decide +kernel)
  exact ⟨state, reached, by simpa using opened, staging_never_leaks (sampleState_started []) reached⟩

/-- The handle of session 1 is cleared while its old block stays staged, and a
commit of session 2, which has no changes, brings that block back. -/
def leaksStaged (state : FileState) : Bool :=
  state.transactions == [1, 2] && (state.tr 1).openFiles == [0] &&
    ((state.tr 1).file 0).toCommitBlockMac != ((state.tr 1).file 0).committedBlockMac &&
    !(state.tr 2).touches ((state.tr 1).file 0).committedBlockMac &&
    match transactionComplete 2 state with
    | .ok _ final =>
      !(final.tr 1).failed && ((final.tr 1).file 0).blockMac != ((state.tr 1).file 0).blockMac
    | .error _ _ => false

theorem staging_leaks_after_unreadable_entry :
    ∃ start state, start.Started ∧ Reached (fun _ _ _ => True) start state ∧ ¬state.Unstaged ∧
      ¬state.CommitsApart 2 := by
  obtain ⟨state, reached, leaks⟩ := exists_reached (fun _ _ _ => True) (sampleState [20])
    [.connect 1 [1], .connect 2 [1], openSample 1, .message 1 ⟨.fileSetSize 0 50, false⟩,
      .message 1 ⟨.endTransaction, false⟩, .message 2 ⟨.fileClose 0, false⟩]
    leaksStaged (by decide +kernel)
  simp only [leaksStaged, Bool.and_eq_true, beq_iff_eq, bne_iff_ne, Bool.not_eq_true'] at leaks
  obtain ⟨⟨⟨⟨transactions, opened⟩, staged⟩, untouched⟩, brings⟩ := leaks
  have member : 1 ∈ state.transactions := by simp [transactions]
  refine ⟨sampleState [20], state, sampleState_started _, reached, ?_, ?_⟩
  · exact fun unstaged => staged (unstaged 1 member 0 (by simp [opened]))
  intro apart
  split at brings
  · rename_i final completed
    simp only [Bool.and_eq_true, Bool.not_eq_true', bne_iff_ne] at brings
    rcases apart final completed 1 member (by decide) 0 (by simp [opened]) untouched with
      failed | same
    · simp [brings.1] at failed
    · exact brings.2 same.1
  · cases brings

end Trusty.Storage
