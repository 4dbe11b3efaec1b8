import Trusty.Keymaster.Operation

/-!
# The life of operations

Who owns an `Operation` and when it is deleted, in `operation_table.cpp` and
`android_keymaster.cpp`. Objects are numbered as they are created; what the steps of
a request answer is part of it.
-/

namespace Trusty.Keymaster.Life

/-- `OperationTable::Entry`, with the number of the object it points to. -/
structure Entry where
  handle : UInt64
  operation : Option Nat
  deriving DecidableEq, Repr

structure State where
  tableSize : Nat
  entries : Option (List Entry)
  created : Nat
  deleted : List Nat
  deriving DecidableEq, Repr

abbrev Failure := { error : KeymasterError // error ≠ .ok }

structure Reply where
  error : KeymasterError
  opHandle : UInt64
  deriving DecidableEq, Repr

structure BeginSteps where
  /-- `LoadKey` up to `CreateOperation`. -/
  created : Except Failure Unit
  /-- `CreateKeyId`, `AuthorizeOperation` and `Operation::Begin`. -/
  begun : Except Failure Unit
  tableAllocated : Bool
  /-- `RAND_bytes`. -/
  random : Except Failure UInt64

variable (state : State)

/-- The destructor of the `UniquePtr` that holds an object. -/
def State.destroy (object : Nat) : State :=
  { state with deleted := state.deleted ++ [object] }

def place (handle : UInt64) (object : Nat) : List Entry → Option (List Entry)
  | [] => none
  | entry :: rest =>
    match entry.operation with
    | none => some (⟨handle, some object⟩ :: rest)
    | some _ => (place handle object rest).map (entry :: ·)

def State.allocate (allocated : Bool) : Option (List Entry) :=
  match state.entries with
  | some entries => some entries
  | none => if allocated then some (List.replicate state.tableSize ⟨0, none⟩) else none

/-- `OperationTable::Add` takes a released object. -/
def State.add (object : Nat) (steps : BeginSteps) : Reply × State :=
  match state.allocate steps.tableAllocated with
  -- the object is not yet in a `UniquePtr`
  | none => (⟨.memoryAllocationFailed, 0⟩, state)
  | some entries =>
    let state := { state with entries := some entries }
    match steps.random with
    | .error failure => (⟨failure, 0⟩, state.destroy object)
    | .ok handle =>
      if handle = 0 then (⟨.unknownError, 0⟩, state.destroy object)
      else
        match place handle object entries with
        | some placed => (⟨.ok, handle⟩, { state with entries := some placed })
        | none => (⟨.tooManyOperations, handle⟩, state.destroy object)

def State.find (handle : UInt64) : Option Nat :=
  if handle = 0 then none
  else state.entries.bind fun entries =>
    (entries.find? fun entry => entry.handle == handle).bind Entry.operation

/-- The loop of `OperationTable::Delete`, with the object that it deletes. -/
def deleteEntry (handle : UInt64) : List Entry → List Nat × List Entry
  | [] => ([], [])
  | entry :: rest =>
    if entry.handle = handle then (entry.operation.toList, ⟨0, none⟩ :: rest)
    else ((deleteEntry handle rest).1, entry :: (deleteEntry handle rest).2)

def State.delete (handle : UInt64) : State :=
  match state.entries with
  | none => state
  | some entries =>
    { state with
      entries := some (deleteEntry handle entries).2
      deleted := state.deleted ++ (deleteEntry handle entries).1 }

def State.beginOperation (steps : BeginSteps) : Reply × State :=
  match steps.created with
  | .error failure => (⟨failure, 0⟩, state)
  | .ok () =>
    let object := state.created
    let state := { state with created := object + 1 }
    match steps.begun with
    | .error failure => (⟨failure, 0⟩, state.destroy object)
    | .ok () => state.add object steps

structure GoOnSteps where
  opHandle : UInt64
  /-- `AuthorizeOperation`. -/
  authorized : Except Failure Unit
  /-- `Operation::Update` or `Operation::Finish`. -/
  result : KeymasterError

def State.updateOperation (steps : GoOnSteps) : KeymasterError × State :=
  match state.find steps.opHandle with
  | none => (.invalidOperationHandle, state)
  | some _ =>
    match steps.authorized with
    | .error failure => (failure, state.delete steps.opHandle)
    | .ok () =>
      (steps.result, if steps.result ≠ .ok then state.delete steps.opHandle else state)

def State.finishOperation (steps : GoOnSteps) : KeymasterError × State :=
  match state.find steps.opHandle with
  | none => (.invalidOperationHandle, state)
  | some _ =>
    match steps.authorized with
    | .error failure => (failure, state.delete steps.opHandle)
    | .ok () => (steps.result, state.delete steps.opHandle)

def State.abortOperation (opHandle : UInt64) (aborted : KeymasterError) :
    KeymasterError × State :=
  match state.find opHandle with
  | none => (.invalidOperationHandle, state)
  | some _ => (aborted, state.delete opHandle)

inductive GoOn where
  | update (steps : GoOnSteps)
  | finish (steps : GoOnSteps)
  | abort (opHandle : UInt64) (aborted : KeymasterError)

def GoOn.opHandle : GoOn → UInt64
  | .update steps => steps.opHandle
  | .finish steps => steps.opHandle
  | .abort opHandle _ => opHandle

def State.goOn : GoOn → KeymasterError × State
  | .update steps => state.updateOperation steps
  | .finish steps => state.finishOperation steps
  | .abort opHandle aborted => state.abortOperation opHandle aborted

def GoOn.ends (error : KeymasterError) : GoOn → Bool
  | .update _ => error ≠ .ok
  | .finish _ | .abort _ _ => true

inductive Request where
  | begin (steps : BeginSteps)
  | goOn (request : GoOn)

/-- The state, with the live operations and the issued handles as the replies tell them. -/
structure Session where
  state : State
  live : List (UInt64 × Nat)
  issued : List UInt64
  deriving DecidableEq, Repr

/-- `AndroidKeymaster::AndroidKeymaster`. -/
def Session.start (tableSize : Nat) : Session := ⟨⟨tableSize, none, 0, []⟩, [], []⟩

def Session.next (session : Session) : Request → Session
  | .begin steps =>
    let (reply, state) := session.state.beginOperation steps
    if reply.error = .ok then
      ⟨state, session.live ++ [(reply.opHandle, session.state.created)],
        session.issued ++ [reply.opHandle]⟩
    else { session with state }
  | .goOn request =>
    let (error, state) := session.state.goOn request
    if request.ends error then
      { session with state, live := session.live.filter (·.1 ≠ request.opHandle) }
    else { session with state }

def Session.run (session : Session) (requests : List Request) : Session :=
  requests.foldl Session.next session

/-- `RAND_bytes` returns no handle that was issued before. -/
def Session.Fresh (session : Session) : Request → Prop
  | .begin steps => ∀ handle, steps.random = .ok handle → handle ∉ session.issued
  | .goOn _ => True

def Session.HasTable (session : Session) : Request → Prop
  | .begin steps => (session.state.allocate steps.tableAllocated).isSome
  | .goOn _ => True

def Session.Throughout (condition : Session → Request → Prop) : Session → List Request → Prop
  | _, [] => True
  | session, request :: rest =>
    condition session request ∧ (session.next request).Throughout condition rest

/-- No step inside a Begin answers `KM_ERROR_TOO_MANY_OPERATIONS` itself. -/
def BeginSteps.Plain (steps : BeginSteps) : Prop :=
  ∀ failure : Failure, steps.created = .error failure ∨ steps.begun = .error failure ∨
    steps.random = .error failure → failure.val ≠ .tooManyOperations

structure LifeCycle (tableSize : Nat) (session : Session) : Prop where
  designates : ∀ handle object, session.state.find handle = some object ↔
    (handle, object) ∈ session.live
  single : (session.live.map Prod.fst).Nodup
  issued : ∀ operation ∈ session.live, operation.1 ≠ 0 ∧ operation.1 ∈ session.issued
  refused : ∀ request : GoOn, request.opHandle ∉ session.live.map Prod.fst →
    session.state.goOn request = (.invalidOperationHandle, session.state)
  bounded : session.live.length ≤ tableSize
  full : ∀ steps : BeginSteps, steps.Plain →
    (session.state.beginOperation steps).1.error = .tooManyOperations →
      session.live.length = tableSize
  deleted : (session.state.deleted ++ session.live.map Prod.snd).Perm
    (List.range session.state.created)

end Trusty.Keymaster.Life
