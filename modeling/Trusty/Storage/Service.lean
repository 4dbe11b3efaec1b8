import Trusty.Storage.Client

/-!
# Runs of the service

The states between the events of a run, for any number of sessions and any
answers of the layers below.
-/

namespace Trusty.Storage

/-- The service has been started on a file system, and has no sessions. -/
structure FileState.Started (state : FileState) : Prop where
  transactions : state.transactions = []
  tr : ∀ session, state.tr session = .init
  cleared : state.cleared = []

/-- The states between the events of a run from `start`. Each event takes the
service to the next in an allowed way. -/
inductive Reached (allowed : FileState → Event → FileState → Prop) (start : FileState) :
    FileState → Prop where
  | start : Reached allowed start start
  | event {state final : FileState} (reached : Reached allowed start state) (event : Event)
      (handled : handleEvent event state = .ok () final)
      (fine : allowed state event final) : Reached allowed start final

section Serve

variable (allowed : FileState → Event → FileState → Prop)
  [∀ state event final, Decidable (allowed state event final)]

def serve : List Event → FileState → Option FileState
  | [], state => some state
  | event :: rest, state =>
    match handleEvent event state with
    | .ok _ final => if allowed state event final then serve rest final else none
    | .error _ _ => none

variable {allowed}

theorem Reached.serve {start state final : FileState} {events : List Event} (reached : Reached allowed start state)
    (served : serve allowed events state = some final) : Reached allowed start final := by
  induction events generalizing state with
  | nil =>
    cases served
    exact reached
  | cons event rest ih =>
  simp only [Storage.serve] at served
  split at served
  · split at served
    · rename_i handled fine
      exact ih (reached.event event handled fine) served
    · cases served
  · cases served

variable (allowed) in
theorem exists_reached (start : FileState) (events : List Event) (check : FileState → Bool)
    (passes : (serve allowed events start).any check = true) :
    ∃ state, Reached allowed start state ∧ check state = true := by
  cases served : serve allowed events start with
  | none => simp [served] at passes
  | some state =>
  rw [served] at passes
  exact ⟨state, Reached.start.serve served, passes⟩

end Serve

def sampleAnswers (refused : List Nat) : List Answer :=
  (List.range 60).map fun number =>
    { ok := !refused.contains number
      mapped := true
      copy := true
      overlap := false
      block := 100 + UInt64.ofNat number
      mac := BitVec.ofNat _ number
      writeBacks := [] }

def sampleState (refused : List Nat) : FileState where
  hash := fun _ => 7
  fileBlockSize := 2048
  files := [(7, ⟨5, 55⟩)]
  entries := fun block => if block = 5 then ⟨[1, 97], 100, ⟨9, 9⟩⟩ else ⟨[], 0, .clear⟩
  transactions := []
  tr := fun _ => .init
  uuidText := fun _ => []
  answers := sampleAnswers refused
  cleared := []

theorem sampleState_started (refused : List Nat) : (sampleState refused).Started := ⟨rfl, fun _ => rfl, rfl⟩

/-- `STORAGE_FILE_OPEN` of the sample file. -/
def openSample (session : SessionId) : Event :=
  .message session ⟨.fileOpen ⟨false, false, false⟩ [97], false⟩

end Trusty.Storage
