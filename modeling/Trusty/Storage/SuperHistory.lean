import Trusty.Storage.Super

/-!
# Super block histories

A history is any sequence of mounts, commits and crashes of one file system from a
blank device. The two slots and the mounted file system are the state of the code;
`latest` is bookkeeping.
-/

namespace Trusty.Storage.SuperHistory

structure Devices where
  dev : BlockDevice
  superDev : BlockDevice
  shared : Bool

inductive CrashWrite where
  | unwritten
  | written
  | torn (content : SuperBlock) (differ : content.flags ≠ content.flags2)

inductive Event where
  | mount (clear : Bool) (readable : Fin 2 → Bool)
  | commit (free files : BlockMac)
  | crash
  | crashCommit (free files : BlockMac) (outcome : CrashWrite)

/-- `latest` is the super block of the last completely written commit since
the last mount that cleared the file system, or since the device was blank. -/
structure State where
  slots : SuperSlots
  fs : Option Fs
  latest : Option SuperBlock

structure Blank where
  slots : SuperSlots
  unmarked : ∀ index, (slots index).magic ≠ superBlockMagic

def Blank.state (blank : Blank) : State := ⟨blank.slots, none, none⟩

/-- `fs->super_block[index]`. -/
def slotOf (index : UInt32) : Fin 2 := Fin.ofNat 2 index.toNat

def mountStep (devices : Devices) (state : State) (clear : Bool) (readable : Fin 2 → Bool) :
    State :=
  match fsInit devices.dev devices.superDev devices.shared state.slots readable clear with
  | .mounted fs =>
    { state with fs := some fs, latest := if clear then none else state.latest }
  | .failed => { state with fs := none }
  | .assertFailed => { state with fs := none }

def writeSlot (state : State) (index : UInt32) (super : SuperBlock) : State :=
  { state with
    slots := Function.update state.slots (slotOf index) super
    latest := some super }

/-- The end of `transaction_complete`: the write completes, then the roots and
the version become the committed ones. -/
def commitStep (state : State) (fs : Fs) (free files : BlockMac) : State :=
  let (index, super, written) := updateSuperBlock fs free files
  { writeSlot state index super with
    fs := some { written with
      freeRoot := free
      freeInitialRange := .clear
      filesRoot := files
      superBlockVersion := written.writtenSuperBlockVersion } }

def crashCommitStep (state : State) (fs : Fs) (free files : BlockMac) : CrashWrite → State
  | .unwritten => { state with fs := none }
  | .written =>
    let (index, super, _) := updateSuperBlock fs free files
    { writeSlot state index super with fs := none }
  | .torn content _ =>
    let (index, _, _) := updateSuperBlock fs free files
    { state with slots := Function.update state.slots (slotOf index) content, fs := none }

def step (devices : Devices) (state : State) : Event → State
  | .mount clear readable => mountStep devices state clear readable
  | .commit free files =>
    match state.fs with
    | some fs => commitStep state fs free files
    | none => state
  | .crash => { state with fs := none }
  | .crashCommit free files outcome =>
    match state.fs with
    | some fs => crashCommitStep state fs free files outcome
    | none => state

def run (devices : Devices) (blank : Blank) (history : List Event) : State :=
  history.foldl (step devices) blank.state

/-- The next load without clear selects the latest completely written commit. -/
def SelectsLatest (devices : Devices) (state : State) : Prop :=
  ∀ super, state.latest = some super → selectSuper devices.dev state.slots = some super

def Event.WritesSlot : Event → Prop
  | .commit _ _ => True
  | .crashCommit _ _ .written => True
  | _ => False

/-- A file system of version zero is mounted while slot zero still holds a
valid super block of version two. -/
def StaleSlotZero (devices : Devices) (state : State) : Prop :=
  ∃ fs, state.fs = some fs ∧ fs.superBlockVersion = 0 ∧
    superBlockValid devices.dev (state.slots 0) = true ∧ (state.slots 0).flags = 2

end Trusty.Storage.SuperHistory
