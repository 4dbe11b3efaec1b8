import Mathlib

/-!
# I/O vectors

`iovec.c`: the copy loops between a message buffer and the I/O vectors of a caller, in
the kernel or in user space.
-/

namespace Trusty.Ipc

inductive IpcError where
  | invalidArgs
  | noMemory
  | tooBig
  | alreadyExists
  | accessDenied
  | notReady
  | notFound
  | channelClosed
  | noMsg
  | notEnoughBuffer
  | notSupported
  | fault
  deriving DecidableEq, Repr

abbrev Buffer := Nat → UInt8

/-- `memcpy` into the buffer. -/
def Buffer.store (buf : Buffer) (offset : Nat) (bytes : List UInt8) : Buffer :=
  fun index => if index < offset then buf index else (bytes[index - offset]?).getD (buf index)

/-- The bytes from `offset` on. -/
def Buffer.load (buf : Buffer) (offset len : Nat) : List UInt8 :=
  (List.range len).map fun index => buf (offset + index)

/-- One `iovec_kern_t`: a null base, or the memory it points to. -/
inductive KernVec where
  | null (len : Nat)
  | memory (bytes : List UInt8)

def KernVec.len : KernVec → Nat
  | .null len => len
  | .memory bytes => bytes.length

/-- The memory of one `iovec_user_t`. An access to a byte that is `none` faults. -/
abbrev UserVec := List (Option UInt8)

/-- `ipc_msg_kern_t`; `iov` is `none` for a null pointer. -/
structure KernMsg where
  numIov : Nat
  iov : Option (Nat → KernVec)
  numHandles : Nat

/-- `ipc_msg_user_t`; `iov` is `none` where the copy of the descriptor faults. -/
structure UserMsg where
  numIov : Nat
  iov : Nat → Option UserVec
  numHandles : Nat

inductive MsgDesc where
  | kern (msg : KernMsg)
  | user (msg : UserMsg)

/-- What `copy_from_user` leaves in the destination, and whether it has come to
the end. The rest of the destination is zeroed after a fault. -/
def copyFromUser : UserVec → List UInt8 × Bool
  | [] => ([], true)
  | some byte :: rest =>
    let (bytes, done) := copyFromUser rest
    (byte :: bytes, done)
  | none :: rest => (0 :: rest.map fun _ => 0, false)

/-- What `copy_to_user` writes, and whether it has come to the end. -/
def copyToUser : UserVec → List UInt8 → List UInt8 × Bool
  | some _ :: vec, byte :: rest =>
    let (bytes, done) := copyToUser vec rest
    (byte :: bytes, done)
  | _, [] => ([], true)
  | _, _ :: _ => ([], false)

/-- The loop of `kern_iovec_to_membuf`. -/
def kernIovecToMembufLoop (buf : Buffer) (offset len copied : Nat) :
    List KernVec → Buffer × Except IpcError Nat
  | [] => (buf, .ok copied)
  | vec :: rest =>
    let toCopy := min len vec.len
    if toCopy = 0 then
      kernIovecToMembufLoop buf offset len copied rest
    else
      match vec with
      | .null _ => (buf, .error .invalidArgs)
      | .memory bytes =>
        let buf := buf.store offset (bytes.take toCopy)
        if len - toCopy = 0 then
          (buf, .ok (copied + toCopy))
        else
          kernIovecToMembufLoop buf (offset + toCopy) (len - toCopy) (copied + toCopy) rest

def kernIovecToMembuf (buf : Buffer) (offset len : Nat) (msg : KernMsg) :
    Buffer × Except IpcError Nat :=
  if msg.numIov = 0 ∨ len = 0 then
    (buf, .ok 0)
  else
    match msg.iov with
    | none => (buf, .error .invalidArgs)
    | some iov => kernIovecToMembufLoop buf offset len 0 ((List.range msg.numIov).map iov)

/-- The loop of `user_iovec_to_membuf`. Unlike the one for the kernel it does
not skip empty entries. -/
def userIovecToMembufLoop (buf : Buffer) (offset len copied : Nat) :
    List (Option UserVec) → Buffer × Except IpcError Nat
  | [] => (buf, .ok copied)
  | none :: _ => (buf, .error .fault)
  | some uiov :: rest =>
    let toCopy := min len uiov.length
    let (bytes, done) := copyFromUser (uiov.take toCopy)
    let buf := buf.store offset bytes
    if !done then
      (buf, .error .fault)
    else if len - toCopy = 0 then
      (buf, .ok (copied + toCopy))
    else
      userIovecToMembufLoop buf (offset + toCopy) (len - toCopy) (copied + toCopy) rest

def userIovecToMembuf (buf : Buffer) (offset len : Nat) (msg : UserMsg) :
    Buffer × Except IpcError Nat :=
  if msg.numIov = 0 ∨ len = 0 then
    (buf, .ok 0)
  else
    userIovecToMembufLoop buf offset len 0 ((List.range msg.numIov).map msg.iov)

/-!
## From the buffer to the caller

The result comes with the bytes that were written to each entry.
-/

/-- The loop of `membuf_to_kern_iovec`. -/
def membufToKernIovecLoop (buf : Buffer) (offset len copied : Nat) (written : List (List UInt8)) :
    List KernVec → List (List UInt8) × Except IpcError Nat
  | [] => (written, .ok copied)
  | vec :: rest =>
    let toCopy := min len vec.len
    if toCopy = 0 then
      membufToKernIovecLoop buf offset len copied (written ++ [[]]) rest
    else
      match vec with
      | .null _ => (written, .error .invalidArgs)
      | .memory _ =>
        let written := written ++ [buf.load offset toCopy]
        if len - toCopy = 0 then
          (written, .ok (copied + toCopy))
        else
          membufToKernIovecLoop buf (offset + toCopy) (len - toCopy) (copied + toCopy)
            written rest

def membufToKernIovec (msg : KernMsg) (buf : Buffer) (offset len : Nat) :
    List (List UInt8) × Except IpcError Nat :=
  if msg.numIov = 0 ∨ len = 0 then
    ([], .ok 0)
  else
    match msg.iov with
    | none => ([], .error .invalidArgs)
    | some iov => membufToKernIovecLoop buf offset len 0 [] ((List.range msg.numIov).map iov)

/-- The loop of `membuf_to_user_iovec`. -/
def membufToUserIovecLoop (buf : Buffer) (offset len copied : Nat) (written : List (List UInt8)) :
    List (Option UserVec) → List (List UInt8) × Except IpcError Nat
  | [] => (written, .ok copied)
  | none :: _ => (written, .error .fault)
  | some uiov :: rest =>
    let toCopy := min len uiov.length
    let (bytes, done) := copyToUser uiov (buf.load offset toCopy)
    let written := written ++ [bytes]
    if !done then
      (written, .error .fault)
    else if len - toCopy = 0 then
      (written, .ok (copied + toCopy))
    else
      membufToUserIovecLoop buf (offset + toCopy) (len - toCopy) (copied + toCopy) written rest

def membufToUserIovec (msg : UserMsg) (buf : Buffer) (offset len : Nat) :
    List (List UInt8) × Except IpcError Nat :=
  if msg.numIov = 0 ∨ len = 0 then
    ([], .ok 0)
  else
    membufToUserIovecLoop buf offset len 0 [] ((List.range msg.numIov).map msg.iov)

namespace MsgDesc

def numHandles : MsgDesc → Nat
  | .kern msg => msg.numHandles
  | .user msg => msg.numHandles

/-- The copy of `msg_write_locked` into the buffer of an item. -/
def gather (msg : MsgDesc) (buf : Buffer) (offset len : Nat) : Buffer × Except IpcError Nat :=
  match msg with
  | .kern msg => kernIovecToMembuf buf offset len msg
  | .user msg => userIovecToMembuf buf offset len msg

/-- The copy of `msg_read_locked` out of the buffer of an item. -/
def scatter (msg : MsgDesc) (buf : Buffer) (offset len : Nat) :
    List (List UInt8) × Except IpcError Nat :=
  match msg with
  | .kern msg => membufToKernIovec msg buf offset len
  | .user msg => membufToUserIovec msg buf offset len

end MsgDesc

end Trusty.Ipc
