import Trusty.Lib.StateLogic
import Trusty.Storage.Service

/-!
# What a failing transaction changes

The effect of `transaction_fail` on the state, and of a call to the layers
below, which may fail several transactions.
-/

namespace Trusty.Storage

open StateLogic FileM
open Function (update update_self update_of_ne)

def FileState.setTr (state : FileState) (session : SessionId) (tr : Transaction) : FileState :=
  { state with tr := update state.tr session tr }

def Transaction.setFile (tr : Transaction) (handle : HandleId) (file : FileHandle) : Transaction :=
  { tr with file := update tr.file handle file }

namespace FileM

variable {post : Unit → FileState → Prop} {stop : Stop → FileState → Prop} {state : FileState}

@[simp] theorem wp_assert (which : Assertion) (condition : Bool) : wp (assert which condition) post stop state ↔
      (condition = true → post () state) ∧ (condition = false → stop (.assertion which) state) := by
  cases condition <;> simp [assert]

theorem wp_onlyIf (condition : Bool) (action : FileM Unit) : wp (onlyIf condition action) post stop state ↔
      (condition = true → wp action post stop state) ∧ (condition = false → post () state) := by
  cases condition <;> simp [onlyIf]

@[simp] theorem wp_getTr {post : Transaction → FileState → Prop} (session : SessionId) :
    wp (getTr session) post stop state ↔ post (state.tr session) state := Iff.rfl

@[simp] theorem wp_modifyTr (session : SessionId) (change : Transaction → Transaction) :
    wp (modifyTr session change) post stop state ↔ post () (state.setTr session (change (state.tr session))) := Iff.rfl

@[simp] theorem wp_getFile {post : FileHandle → FileState → Prop} (session : SessionId) (handle : HandleId) :
    wp (getFile session handle) post stop state ↔ post ((state.tr session).file handle) state := Iff.rfl

@[simp] theorem wp_modifyFile (session : SessionId) (handle : HandleId) (change : FileHandle → FileHandle) :
    wp (modifyFile session handle change) post stop state ↔
      post () (state.setTr session ((state.tr session).setFile handle
        (change ((state.tr session).file handle)))) := Iff.rfl

theorem wp_nextAnswer {post : Answer → FileState → Prop} (empty : stop .noAnswer state)
    (answered : ∀ answer rest, post answer { state with answers := rest }) : wp nextAnswer post stop state := by
  unfold nextAnswer
  rw [wp_bind, wp_get]
  cases state.answers with
  | nil => exact empty
  | cons answer rest => exact answered answer rest

end FileM

@[simp] theorem FileState.setTr_tr_same (state : FileState) (session : SessionId)
    (tr : Transaction) : (state.setTr session tr).tr session = tr :=
  update_self ..

theorem FileState.setTr_tr_other (state : FileState) {session other : SessionId} (tr : Transaction)
    (ne : other ≠ session) : (state.setTr session tr).tr other = state.tr other :=
  update_of_ne ne ..

@[simp] theorem FileState.setTr_setTr (state : FileState) (session : SessionId) (first second : Transaction) :
    (state.setTr session first).setTr session second = state.setTr session second := by
  simp only [setTr, Function.update_idem]

@[simp] theorem Transaction.setFile_file_same (tr : Transaction) (handle : HandleId)
    (file : FileHandle) : (tr.setFile handle file).file handle = file :=
  update_self ..

theorem Transaction.setFile_file_other (tr : Transaction) {handle other : HandleId} (file : FileHandle)
    (ne : other ≠ handle) : (tr.setFile handle file).file other = tr.file other :=
  update_of_ne ne ..

def FileState.committedSize (state : FileState) (blockMac : BlockMac) : DataBlock :=
  if blockMac.valid then (state.entries blockMac.block).size else 0

/-- The handle as `file_transaction_failed` leaves it, its entry readable. -/
def FileState.restored (state : FileState) (file : FileHandle) : FileHandle :=
  if file.changed then
    { file with
      blockMac := file.committedBlockMac, size := state.committedSize file.committedBlockMac,
      usedByTr := false }
  else
    { file with usedByTr := false }

def FileHandle.cleared (file : FileHandle) : FileHandle :=
  { file with blockMac := .clear, committedBlockMac := .clear, size := 0, usedByTr := false }

/-- `final` is `state` after `transaction_fail(session)`. -/
structure Fails (session : SessionId) (state final : FileState) : Prop where
  active : (state.tr session).active = true
  notFailed : (state.tr session).failed = false
  notComplete : (state.tr session).complete = false
  result : ∃ file answers cleared,
    final =
      { state with
        tr := update state.tr session
          { state.tr session with failed := true, active := false, file := file }
        answers := answers
        cleared := cleared } ∧
    state.cleared ⊆ cleared ∧
    (∀ handle ∈ (state.tr session).openFiles,
      file handle = state.restored ((state.tr session).file handle) ∨
        (session, handle) ∈ cleared ∧ file handle = ((state.tr session).file handle).cleared) ∧
    ∀ handle ∉ (state.tr session).openFiles, file handle = (state.tr session).file handle

theorem FileState.restored_unchanged (state : FileState) (file : FileHandle) :
    (state.restored file).changed = false := by
  unfold restored
  cases change : file.changed with
  | true => simp [FileHandle.changed, BlockMac.sameBlock]
  | false => simpa [FileHandle.changed] using change

theorem FileHandle.cleared_unchanged (file : FileHandle) : file.cleared.changed = false := rfl

def FailStops (reason : Stop) : Prop :=
  reason = .noAnswer ∨ reason = .assertion .notFailed ∨ reason = .assertion .active

theorem wp_fileReadSize {post : Option DataBlock → FileState → Prop} {stop : Stop → FileState → Prop}
    {state : FileState} {blockMac : BlockMac} (empty : stop .noAnswer state)
    (read : ∀ answers, post (some (state.committedSize blockMac)) { state with answers := answers })
    (unread : ∀ answers, post none { state with answers := answers }) : wp (fileReadSize blockMac) post stop state := by
  unfold fileReadSize
  unfold FileState.committedSize at read
  cases valid : blockMac.valid with
  | false =>
    simp only [valid, Bool.false_eq_true, ↓reduceIte] at read
    exact read state.answers
  | true =>
  simp only [valid, ↓reduceIte] at read
  simp only [Bool.not_true, Bool.false_eq_true, ↓reduceIte, wp_bind]
  apply wp_nextAnswer empty
  intro answer rest
  cases ok : answer.ok with
  | true => exact read rest
  | false => exact unread rest

/-- `file` is what becomes of a handle of the failing transaction. -/
private def Settled (session : SessionId) (state : FileState)
    (cleared : List (SessionId × HandleId)) (handle : HandleId) (file : FileHandle) : Prop :=
  file = state.restored ((state.tr session).file handle) ∨
    (session, handle) ∈ cleared ∧ file = ((state.tr session).file handle).cleared

/-- `current` is `state` with the handles in `done` restored. -/
private def Restoring (session : SessionId) (state : FileState) (done : List HandleId)
    (current : FileState) : Prop :=
  ∃ file answers cleared,
    current =
      { state with
        tr := update state.tr session { state.tr session with file := file }
        answers := answers
        cleared := cleared } ∧
    state.cleared ⊆ cleared ∧
    (∀ handle ∈ done, Settled session state cleared handle (file handle)) ∧
    ∀ handle ∉ done, file handle = (state.tr session).file handle

variable {session : SessionId} {handle : HandleId}

private theorem Restoring.extend {state : FileState} {done : List HandleId} {file : HandleId → FileHandle}
    {cleared more : List (SessionId × HandleId)} {next : FileHandle} (answers : List Answer)
    (kept : state.cleared ⊆ cleared) (grown : cleared ⊆ more)
    (restored : ∀ handle ∈ done, Settled session state cleared handle (file handle))
    (others : ∀ handle ∉ done, file handle = (state.tr session).file handle)
    (settled : Settled session state more handle next) :
    Restoring session state (done ++ [handle]) { state with
        tr := update state.tr session { state.tr session with file := update file handle next }
        answers := answers
        cleared := more } := by
  refine ⟨update file handle next, answers, more, rfl, List.Subset.trans kept grown, ?_, ?_⟩
  · intro other member
    by_cases same : other = handle
    · subst same
      rw [update_self]
      exact settled
    rw [update_of_ne same]
    have before : other ∈ done := by simpa [same] using member
    rcases restored other before with whole | lost
    · exact .inl whole
    · exact .inr ⟨grown lost.1, lost.2⟩
  · intro other absent
    have apart : other ∉ done ∧ other ≠ handle := by simpa using absent
    rw [update_of_ne apart.2]
    exact others other apart.1

private theorem Settled.again {state : FileState} {cleared : List (SessionId × HandleId)} {file : FileHandle}
    (settled : Settled session state cleared handle file) :
    file.changed = false ∧ { file with usedByTr := false } = file := by
  rcases settled with whole | lost
  · subst whole
    refine ⟨state.restored_unchanged _, ?_⟩
    unfold FileState.restored
    split <;> rfl
  · rw [lost.2]
    exact ⟨FileHandle.cleared_unchanged _, rfl⟩

private theorem fileRestore_step {state current : FileState} {done : List HandleId}
    (restoring : Restoring session state done current) :
    wp (fileRestore session handle) (fun _ => Restoring session state (done ++ [handle]))
      (fun reason _ => reason = .noAnswer) current := by
  obtain ⟨file, answers, cleared, rfl, kept, restored, others⟩ := restoring
  by_cases change : (file handle).changed = true
  · -- A changed handle is not done yet.
    have fresh : handle ∉ done := fun member => by
      simp [(restored handle member).again.1] at change
    have same := others handle fresh
    simp only [fileRestore, wp_bind, wp_getFile, update_self, change, ↓reduceIte]
    rw [same] at change ⊢
    apply wp_fileReadSize
    · rfl
    · intro answers
      have settled : Settled session state cleared handle { (state.tr session).file handle with
            blockMac := ((state.tr session).file handle).committedBlockMac
            size := state.committedSize ((state.tr session).file handle).committedBlockMac
            usedByTr := false } := .inl (by simp only [FileState.restored, change, ↓reduceIte])
      have done := Restoring.extend answers kept (List.Subset.refl _) restored others settled
      simpa [FileState.setTr, Transaction.setFile, same, FileState.committedSize] using done
    · intro answers
      have settled : Settled session state ((session, handle) :: cleared) handle
          ((state.tr session).file handle).cleared := .inr ⟨List.mem_cons_self, rfl⟩
      have done := Restoring.extend answers kept (List.subset_cons_self _ _) restored others settled
      simpa [FileState.setTr, Transaction.setFile, same, FileHandle.cleared] using done
  · simp only [fileRestore, wp_bind, wp_getFile, update_self, change, Bool.false_eq_true, ↓reduceIte, wp_modifyFile]
    have settled : Settled session state cleared handle { file handle with usedByTr := false } := by
      by_cases member : handle ∈ done
      · rw [(restored handle member).again.2]
        exact restored handle member
      · rw [others handle member] at change ⊢
        exact .inl (by simp only [FileState.restored, change, Bool.false_eq_true, ↓reduceIte])
    have done := Restoring.extend answers kept (List.Subset.refl _) restored others settled
    simpa [FileState.setTr, Transaction.setFile] using done

private theorem fileTransactionFailed_restores (session : SessionId) (state : FileState) :
    wp (fileTransactionFailed session) (fun _ => Restoring session state (state.tr session).openFiles)
      (fun reason _ => reason = .noAnswer) state := by
  simp only [fileTransactionFailed, wp_bind, wp_getTr]
  apply wp_forM (fun done _ => Restoring session state done)
  · intro done next rest current restoring
    exact fileRestore_step restoring
  refine ⟨(state.tr session).file, state.answers, state.cleared, ?_, List.Subset.refl _, ?_, ?_⟩
  · simp only [Function.update_eq_self]
  · exact fun handle member => absurd member List.not_mem_nil
  · exact fun handle _ => rfl

/-- `transaction_fail` either fails the transaction or, when it is complete
already, only marks it. -/
theorem wp_transactionFail {post : Unit → FileState → Prop} {stop : Stop → FileState → Prop} {state : FileState}
    (failed : ∀ final, Fails session state final → post () final) (marked : (state.tr session).complete = true →
      post () (state.setTr session { state.tr session with failed := true }))
    (stopped : ∀ reason final, FailStops reason → stop reason final) :
    wp (transactionFail session) post stop state := by
  unfold transactionFail
  simp only [wp_bind, wp_getTr, wp_assert, wp_modifyTr]
  refine ⟨fun notFailed => ?_, fun _ => stopped _ _ (.inr (.inl rfl))⟩
  by_cases complete : (state.tr session).complete = true
  · rw [if_pos complete]
    exact marked complete
  rw [if_neg complete]
  simp only [wp_bind, wp_assert, wp_modifyTr]
  refine ⟨fun active => ?_, fun _ => stopped _ _ (.inr (.inr rfl))⟩
  apply wp_mono (fileTransactionFailed_restores session _)
  · rintro _ final ⟨file, answers, cleared, rfl, kept, restored, others⟩
    apply failed
    refine ⟨active, by simpa using notFailed, by simpa using complete, file, answers, cleared, ?_, kept, ?_, ?_⟩
    · simp [FileState.setTr]
    · intro handle member
      have settled := restored handle (by simpa [FileState.setTr] using member)
      simpa [Settled, FileState.setTr, FileState.restored, FileState.committedSize] using settled
    · intro handle absent
      have same := others handle (by simpa [FileState.setTr] using absent)
      simpa [FileState.setTr] using same
  · exact fun reason final none => stopped _ _ (.inl none)

/-- What a call to the layers below may do on its own: consume an answer, fail a
transaction, or mark one that is complete. -/
inductive Disturbance : FileState → FileState → Prop
  | answers (state : FileState) (rest : List Answer) : Disturbance state { state with answers := rest }
  | fails {state final : FileState} (victim : SessionId) (failed : Fails victim state final) :
      Disturbance state final
  | marks {state : FileState} (victim : SessionId)
      (complete : (state.tr victim).complete = true) :
      Disturbance state (state.setTr victim { state.tr victim with failed := true })

def Interrupted : FileState → FileState → Prop := Relation.ReflTransGen Disturbance

private theorem failWriteBacks_disturbs {state : FileState} {stop : Stop → FileState → Prop}
    (stopped : ∀ reason final, FailStops reason → stop reason final) (victims : List SessionId) :
    wp (victims.forM failWriteBack) (fun _ => Interrupted state) stop state := by
  apply wp_forM fun _ _ => Interrupted state
  · intro done victim rest current disturbed
    simp only [failWriteBack, wp_bind, wp_getTr, wp_onlyIf]
    constructor
    · intro _
      apply wp_transactionFail
      · intro final fails
        exact disturbed.tail (.fails victim fails)
      · exact fun complete => disturbed.tail (.marks _ complete)
      · exact stopped
    · exact fun _ => disturbed
  · exact .refl

theorem wp_attempt {post : Option Answer → FileState → Prop} {stop : Stop → FileState → Prop} {state : FileState}
    (attempted : ∀ answer final, Interrupted state final → post answer final)
    (stopped : ∀ reason final, FailStops reason → stop reason final) : wp (attempt session) post stop state := by
  unfold attempt
  simp only [wp_bind, wp_getTr]
  by_cases failed : (state.tr session).failed = true
  · rw [if_pos failed]
    exact attempted none state .refl
  rw [if_neg failed]
  simp only [wp_bind]
  apply wp_nextAnswer (stopped _ _ (.inl rfl))
  intro answer rest
  rw [wp_bind]
  apply wp_mono (failWriteBacks_disturbs stopped _)
  · intro _ current written
    have disturbed : Interrupted state current := .head (.answers state rest) written
    cases ok : answer.ok with
    | true => exact attempted (some answer) current disturbed
    | false =>
    simp only [Bool.false_eq_true, ↓reduceIte, wp_bind, wp_getTr]
    by_cases already : (current.tr session).failed = true
    · rw [if_pos already]
      exact attempted none current disturbed
    rw [if_neg already]
    rw [wp_bind]
    apply wp_transactionFail
    · exact fun final fails => attempted none final (disturbed.tail (.fails session fails))
    · exact fun complete => attempted none _ (disturbed.tail (.marks _ complete))
    · exact stopped
  · exact fun _ _ stops => stops

end Trusty.Storage
