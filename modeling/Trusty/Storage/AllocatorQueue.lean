import Mathlib

/-!
# The queue of the block allocator

`block_allocator.c`: calls that allocate or free a block are queued and applied to the
block sets later. Applying an entry may itself allocate and free blocks.
-/

namespace Trusty.Storage.AllocatorQueue

/-- The arguments of `block_allocator_queue_add`. -/
structure Call where
  block : Nat
  tmp : Bool
  free : Bool
  deriving DecidableEq, Repr

structure Entry where
  call : Call
  removed : Bool
  deriving DecidableEq, Repr

abbrev queueLen : Nat := 324

structure Queue where
  entry : Nat → Entry
  head : Nat
  tail : Nat
  updating : Bool

/-- The assertion on `is_tmp` in `block_allocator_queue_add` and the one on `loop_limit` have
stops of their own. -/
inductive Stop where
  | full
  | otherTmp
  | loopLimit
  | assertFailed
  | disabled
  deriving DecidableEq, Repr

def Queue.indices (queue : Queue) : List Nat :=
  (List.range ((queue.tail + queueLen - queue.head) % queueLen)).map fun offset =>
    (queue.head + offset) % queueLen

def Queue.find (queue : Queue) (block : Nat) : Option Nat :=
  queue.indices.find? fun index =>
    !(queue.entry index).removed && (queue.entry index).call.block == block

def Queue.live (queue : Queue) (indices : List Nat) : List Call :=
  ((indices.map queue.entry).filter (!·.removed)).map Entry.call

def Queue.append (queue : Queue) (entry : Entry) : Except Stop Queue :=
  let newTail := (queue.tail + 1) % queueLen
  if newTail = queue.head then .error .full
  else .ok { queue with entry := Function.update queue.entry queue.tail entry, tail := newTail }

def Queue.markRemoved (queue : Queue) (index : Nat) : Queue :=
  { queue with
    entry := Function.update queue.entry index { queue.entry index with removed := true } }

def Queue.add (queue : Queue) (call : Call) : Except Stop Queue :=
  match queue.find call.block with
  | none => queue.append ⟨call, false⟩
  | some index =>
    let queued := (queue.entry index).call
    if queued.tmp ≠ call.tmp then .error .otherTmp
    else if queued.free = call.free then .error .assertFailed
    else if index ≠ queue.head ∨ queue.updating = false then .ok (queue.markRemoved index)
    else (queue.markRemoved index).append ⟨call, false⟩

structure Member where
  tmpAllocated : Bool
  allocated : Bool
  freed : Bool
  newFree : Bool
  deriving DecidableEq, Repr

/-- `block_set_add_block` takes no block that is in the set. -/
def setAdd (inSet : Bool) : Option Bool := if inSet then none else some true

/-- `block_set_remove_block` takes a block of the set. -/
def setRemove (inSet : Bool) : Option Bool := if inSet then some false else none

/-- `block_allocator_add_allocated`, where `below` is `block < min_free_block`. -/
def addAllocated (below tmp : Bool) (member : Member) : Option Member :=
  if tmp then (setAdd member.tmpAllocated).map ({ member with tmpAllocated := · })
  else
    (setAdd member.allocated).bind fun allocated =>
      if below then (setRemove member.newFree).map ({ member with allocated, newFree := · })
      else some { member with allocated }

def addFree (below tmp : Bool) (member : Member) : Option Member :=
  if tmp then
    if member.allocated || member.freed then none
    else (setRemove member.tmpAllocated).map ({ member with tmpAllocated := · })
  else if member.tmpAllocated then none
  else if member.allocated then
    (setRemove member.allocated).bind fun allocated =>
      if below then (setAdd member.newFree).map ({ member with allocated, newFree := · })
      else some { member with allocated }
  else if below then (setAdd member.newFree).map ({ member with newFree := · })
  else (setAdd member.freed).map ({ member with freed := · })

abbrev Sets := Nat → Member

/-- A call, applied to the sets; `none` is an assertion that fails. -/
def Call.apply (minFreeBlock : Nat) (call : Call) (sets : Sets) : Option Sets := do
  let below := decide (call.block < minFreeBlock)
  let change := if call.free then addFree else addAllocated
  return Function.update sets call.block (← change below call.tmp (sets call.block))

/-- `applying` is the copy of the head that `block_allocator_process_queue` works on, and
`loopLimit` its counter. -/
structure System where
  queue : Queue
  applying : Option Entry
  sets : Sets
  blockCount : Nat
  loopLimit : Int

def blockSetMaxDepth : Nat := 9

/-- The first value of `loop_limit`, an `int`. -/
def firstLoopLimit (blockCount : Nat) : Int :=
  (BitVec.ofNat 32 (blockSetMaxDepth * blockSetMaxDepth * blockSetMaxDepth + blockCount)).toInt

/-- Calls come from outside, or from inside the application of the head. The other events
are the steps of `block_allocator_process_queue`. -/
inductive Event where
  | call (call : Call)
  | start
  | peek
  | finish
  | stop

def System.finish (minFreeBlock : Nat) (system : System) (entry : Entry) : Except Stop System :=
  let applied :=
    if entry.removed then some system.sets else entry.call.apply minFreeBlock system.sets
  match applied with
  | none => .error .assertFailed
  | some sets =>
    if (system.queue.entry system.queue.head).call.block = entry.call.block then
      .ok { system with
        queue := { system.queue with head := (system.queue.head + 1) % queueLen }
        applying := none
        sets }
    else .error .assertFailed

def step (minFreeBlock : Nat) (system : System) : Event → Except Stop System
  | .call call =>
    if system.queue.updating = true ∧ system.applying = none then .error .disabled
    else (system.queue.add call).map fun queue => { system with queue }
  | .start =>
    if system.queue.updating then .error .disabled
    else .ok { system with
      queue := { system.queue with updating := true }
      loopLimit := firstLoopLimit system.blockCount }
  | .peek =>
    if system.queue.updating = true ∧ system.applying = none ∧
        system.queue.head ≠ system.queue.tail then
      -- assert(loop_limit-- > 0)
      if 0 < system.loopLimit then
        .ok { system with
          applying := some (system.queue.entry system.queue.head)
          loopLimit := system.loopLimit - 1 }
      else .error .loopLimit
    else .error .disabled
  | .finish =>
    match system.applying with
    | none => .error .disabled
    | some entry => system.finish minFreeBlock entry
  | .stop =>
    if system.queue.updating = true ∧ system.applying = none ∧
        system.queue.head = system.queue.tail then
      .ok { system with queue := { system.queue with updating := false } }
    else .error .disabled

def run (minFreeBlock : Nat) (system : System) (events : List Event) : Except Stop System :=
  events.foldlM (step minFreeBlock) system

def System.waiting (system : System) : List Nat :=
  match system.applying with
  | none => system.queue.indices
  | some _ => system.queue.indices.tail

def System.applied (system : System) : List Call :=
  match system.applying with
  | none => []
  | some entry => if entry.removed then [] else [entry.call]

/-- The calls that wait. The copy of the head counts until it has been applied, whatever
becomes of the entry in the ring. -/
def System.pending (system : System) : List Call :=
  system.applied ++ system.queue.live system.waiting

/-- What the calls so far say of a block. A block in use by the committed file system can
only be freed, and is not free again before the transaction ends. -/
inductive Status where
  | inUse
  | freed
  | free
  | tmp
  | allocated
  deriving DecidableEq, Repr

/-- The status after a call; `none` if the call is not legal. -/
def Call.next (call : Call) : Status → Option Status
  | .free => if call.free then none else some (if call.tmp then .tmp else .allocated)
  | .tmp => if call.free && call.tmp then some .free else none
  | .allocated => if call.free && !call.tmp then some .free else none
  | .inUse => if call.free && !call.tmp then some .freed else none
  | .freed => none

def trace (status : Status) (calls : List Call) : Option Status :=
  calls.foldlM (fun status call => call.next status) status

def ofBlock (block : Nat) (calls : List Call) : List Call :=
  calls.filter (·.block = block)

def Event.calls : List Event → List Call := List.filterMap fun
  | .call made => some made
  | _ => none

/-- The sets of a block with the status. The new free set covers the blocks below
`min_free_block`. -/
def Status.member (below : Bool) : Status → Member
  | .inUse => ⟨false, false, false, false⟩
  | .freed => ⟨false, false, !below, below⟩
  | .free => ⟨false, false, false, below⟩
  | .tmp => ⟨true, false, false, below⟩
  | .allocated => ⟨false, true, false, false⟩

def firstStatus (free : Nat → Bool) (block : Nat) : Status := if free block then .free else .inUse

def setsOf (minFreeBlock : Nat) (status : Nat → Status) : Sets := fun block =>
  (status block).member (decide (block < minFreeBlock))

def System.start (minFreeBlock blockCount : Nat) (free : Nat → Bool) : System where
  queue := ⟨fun _ => ⟨⟨0, false, false⟩, true⟩, 0, 0, false⟩
  applying := none
  sets := setsOf minFreeBlock (firstStatus free)
  blockCount := blockCount
  loopLimit := 0

end Trusty.Storage.AllocatorQueue
