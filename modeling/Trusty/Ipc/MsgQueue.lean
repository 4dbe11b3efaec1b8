import Trusty.Ipc.Iovec

/-!
# Message queues

The queue of received messages of a channel (`ipc_msg.c`). Its items are in one of
three lists, and item `id` has the bytes from `id * itemSz` on.
-/

namespace Trusty.Ipc

inductive ItemState where
  | free
  | filled
  | read
  deriving DecidableEq, Repr

/-- `msg_item_t`. Its id is the index into the array of items. -/
structure MsgItem where
  state : ItemState
  numHandles : Nat
  len : Nat

structure MsgQueue where
  numItems : Nat
  itemSz : Nat
  items : Nat → MsgItem
  freeList : List Nat
  filledList : List Nat
  readList : List Nat
  buf : Buffer

structure MsgInfo where
  len : Nat
  id : Nat
  deriving DecidableEq

namespace MsgQueue

/-- The queue that `ipc_msg_queue_create` returns when memory can be had. -/
def create (numItems itemSz : Nat) : MsgQueue where
  numItems := numItems
  itemSz := itemSz
  items := fun _ => ⟨.free, 0, 0⟩
  freeList := List.range numItems
  filledList := []
  readList := []
  buf := fun _ => 0

variable (mq : MsgQueue)

/-- `msg_queue_get_buf`, as an offset into the buffer of the queue -/
def getBuf (id : Nat) : Nat :=
  id * mq.itemSz

def setItem (id : Nat) (item : MsgItem) : MsgQueue :=
  { mq with items := Function.update mq.items id item }

/-- `list_delete` of the node of an item -/
def listDelete (id : Nat) : MsgQueue :=
  { mq with
    freeList := mq.freeList.erase id
    filledList := mq.filledList.erase id
    readList := mq.readList.erase id }

/-- `list_add_tail` to the filled list -/
def listAddFilled (id : Nat) : MsgQueue :=
  { mq with filledList := mq.filledList ++ [id] }

/-- `list_add_tail` to the read list -/
def listAddRead (id : Nat) : MsgQueue :=
  { mq with readList := mq.readList ++ [id] }

/-- `list_add_head` to the free list -/
def listAddFree (id : Nat) : MsgQueue :=
  { mq with freeList := id :: mq.freeList }

def setBuf (buf : Buffer) : MsgQueue :=
  { mq with buf := buf }

/-- The part of `msg_write_locked` behind the choice of a free item. -/
def writeItem (id : Nat) (msg : MsgDesc) : Except IpcError Nat × MsgQueue :=
  let item := mq.items id
  let mq := mq.setItem id { item with numHandles := 0, len := 0 }
  if msg.numHandles ≠ 0 then
    (.error .notSupported, mq)
  else
    match msg.gather mq.buf (mq.getBuf id) mq.itemSz with
    | (buf, .error reason) => (.error reason, mq.setBuf buf)
    | (buf, .ok len) =>
      let mq := ((mq.setBuf buf).listDelete id).listAddFilled id
      (.ok len, mq.setItem id ⟨.filled, 0, len⟩)

/-- `msg_read_locked`: what has been written to the caller, and the result -/
def readLocked (msgId offset : Nat) (msg : MsgDesc) :
    List (List UInt8) × Except IpcError Nat :=
  if ¬msgId < mq.numItems then
    ([], .error .invalidArgs)
  else
    let item := mq.items msgId
    if item.state ≠ .read then
      ([], .error .invalidArgs)
    else if item.numHandles ≠ 0 then
      ([], .error .notSupported)
    else if offset > item.len then
      ([], .error .invalidArgs)
    else if msg.numHandles ≠ 0 then
      ([], .error .notSupported)
    else
      msg.scatter mq.buf (mq.getBuf msgId + offset) (item.len - offset)

def peekNextFilledLocked : Except IpcError MsgInfo :=
  match mq.filledList.head? with
  | none => .error .noMsg
  | some id => .ok ⟨(mq.items id).len, id⟩

/-- `msg_get_filled_locked`. There is no item to take if the list is empty. -/
def getFilledLocked : Option MsgQueue :=
  match mq.filledList.head? with
  | none => none
  | some id =>
    let item := mq.items id
    some (((mq.listDelete id).listAddRead id).setItem id { item with state := .read })

/-- The part of `msg_put_read_locked` that is about the queue. -/
def putReadLocked (msgId : Nat) : Except IpcError Unit × MsgQueue :=
  if ¬msgId < mq.numItems ∨ (mq.items msgId).state ≠ .read then
    (.error .invalidArgs, mq)
  else
    let item := mq.items msgId
    (.ok (), ((mq.listDelete msgId).listAddFree msgId).setItem msgId { item with state := .free })

end MsgQueue

end Trusty.Ipc
