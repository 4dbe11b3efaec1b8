import Trusty.Lib.Align
import Trusty.Lib.Interaction

/-!
# Virtqueues

`vqueue.c`, and the layout of a ring from `virtio_ring.h`. The normal world may change
the ring at any moment: each access is a question to the environment.
-/

namespace Trusty.Virtio

variable {width : Nat}

/-- `struct vring`: the number of entries, and where the three tables are. -/
structure Vring (width : Nat) where
  num : UInt32
  desc : BitVec width
  avail : BitVec width
  used : BitVec width

/-- An `unsigned int` as `unsigned long`. -/
def ulong (width : Nat) (value : UInt32) : BitVec width := value.toBitVec.setWidth width

def vringSize (num : UInt32) (align : BitVec width) : UInt32 :=
  let tables := 16 * ulong width num + 2 * ulong width (3 + num)
  .ofBitVec ((Align.up tables align + 2 * 3 + 8 * ulong width num).setWidth 32)

def vringInit (num : UInt32) (ptr align : BitVec width) : Vring width :=
  let avail := ptr + ulong width num * 16
  { num := num
    desc := ptr
    avail := avail
    used := Align.up (avail + 4 + 2 * ulong width num + 2) align }

def pageSize : Nat := 4096

/-- `ROUNDUP(size, PAGE_SIZE)`. -/
def roundUpPage (size : BitVec width) : BitVec width := Align.up size (.ofNat width pageSize)

/-- `struct vqueue`, without its events and callbacks. -/
structure Vqueue (width : Nat) where
  vring : Vring width
  vringAddr : BitVec width
  vringSz : BitVec width
  lastAvailIdx : UInt16

/-- `vmm_alloc_physical` in the kernel address space, where `spot` is the place
it finds. For size zero it succeeds, and leaves the pointer as it is. -/
def vmmAllocPhysical (size ptr paddr : BitVec width) (spot : Option (BitVec width)) :
    Option (BitVec width) :=
  if size = 0 then some ptr
  else if paddr.toNat % pageSize = 0 then spot
  else none

/-- `vqueue_init`. It does not assign `last_avail_idx`. -/
def vqueueInit (vq : Vqueue width) (paddr : BitVec width) (num align : UInt32)
    (spot : Option (BitVec width)) : Option (Vqueue width) :=
  let vringSz := ulong width (vringSize num (ulong width align))
  match vmmAllocPhysical (roundUpPage vringSz) 0 paddr spot with
  | none => none
  | some vptr =>
    some
      { vq with
        vring := vringInit num vptr (ulong width align)
        vringAddr := vptr
        vringSz := vringSz }

def vqueueDestroy (vq : Vqueue width) : Vqueue width := { vq with vringAddr := 0, vringSz := 0 }

/-- The calls of `panic`. -/
inductive Panic where
  | availIdxOutOfRange
  | headOutOfRange
  deriving DecidableEq, Repr

inductive RingOp where
  | availIdx
  | availRing (slot : UInt32)
  | descAddr (index : UInt16)
  | descLen (index : UInt16)
  | descFlags (index : UInt16)
  | descNext (index : UInt16)
  | usedFlags
  | setUsedFlags (flags : UInt16)
  | usedIdx
  | setUsedIdx (idx : UInt16)
  | setUsedId (slot id : UInt32)
  | setUsedLen (slot len : UInt32)
  | panic (reason : Panic)
  | divideByZero
  deriving DecidableEq, Repr

@[reducible] def RingOp.Reply : RingOp → Type
  | .availIdx | .availRing _ | .descFlags _ | .descNext _ | .usedFlags | .usedIdx => UInt16
  | .descLen _ => UInt32
  | .descAddr _ => UInt64
  | .setUsedFlags _ | .setUsedIdx _ | .setUsedId _ _ | .setUsedLen _ _ => Unit
  | .panic _ | .divideByZero => Empty

abbrev RingM := Interaction RingOp RingOp.Reply

def availIdx : RingM UInt16 := .ask .availIdx .done

def availRing (slot : UInt32) : RingM UInt16 := .ask (.availRing slot) .done

def descAddr (index : UInt16) : RingM UInt64 := .ask (.descAddr index) .done

def descLen (index : UInt16) : RingM UInt32 := .ask (.descLen index) .done

def descFlags (index : UInt16) : RingM UInt16 := .ask (.descFlags index) .done

def descNext (index : UInt16) : RingM UInt16 := .ask (.descNext index) .done

def usedFlags : RingM UInt16 := .ask .usedFlags .done

def setUsedFlags (flags : UInt16) : RingM Unit := .ask (.setUsedFlags flags) .done

def usedIdx : RingM UInt16 := .ask .usedIdx .done

def setUsedIdx (idx : UInt16) : RingM Unit := .ask (.setUsedIdx idx) .done

def setUsedId (slot id : UInt32) : RingM Unit := .ask (.setUsedId slot id) .done

def setUsedLen (slot len : UInt32) : RingM Unit := .ask (.setUsedLen slot len) .done

def panic {α : Type} (reason : Panic) : RingM α := .ask (.panic reason) fun never => nomatch never

/-- `value % num`. -/
def modulo (value : UInt16) (num : UInt32) : RingM UInt32 :=
  if num = 0 then .ask .divideByZero fun never => nomatch never
  else return value.toUInt32 % num

/-- The value as `paddr_t` or `size_t`. -/
def truncate (width : Nat) (value : UInt64) : UInt64 :=
  .ofBitVec ((value.toBitVec.setWidth width).setWidth 64)

/-- One buffer of a chain: `phys` and the length of `iovs`. -/
structure Iov where
  phys : UInt64
  len : UInt32
  deriving DecidableEq, Repr

/-- `struct vqueue_iovs`. The buffers in use are the first ones. -/
structure VqueueIovs where
  cnt : Nat
  iovs : List Iov
  len : UInt64
  deriving DecidableEq, Repr

structure VqueueBuf where
  head : UInt16
  inIovs : VqueueIovs
  outIovs : VqueueIovs
  deriving DecidableEq, Repr

def VqueueIovs.clear (iovs : VqueueIovs) : VqueueIovs := { iovs with iovs := [], len := 0 }

def VqueueIovs.room (iovs : VqueueIovs) : Nat := iovs.cnt - iovs.iovs.length

def VqueueIovs.add (width : Nat) (iovs : VqueueIovs) (iov : Iov) (len : UInt32) : VqueueIovs :=
  { iovs with iovs := iovs.iovs ++ [iov], len := truncate width (iovs.len + len.toUInt64) }

/-- `VRING_DESC_F_WRITE`. -/
def writes (flags : UInt16) : Bool := flags &&& 2 != 0

/-- `VRING_DESC_F_NEXT`. -/
def hasNext (flags : UInt16) : Bool := flags &&& 1 != 0

def VqueueBuf.iovsFor (buf : VqueueBuf) (flags : UInt16) : VqueueIovs :=
  if writes flags then buf.outIovs else buf.inIovs

def VqueueBuf.setIovsFor (buf : VqueueBuf) (flags : UInt16) (iovs : VqueueIovs) : VqueueBuf :=
  if writes flags then { buf with outIovs := iovs } else { buf with inIovs := iovs }

/-- The number of unused entries. -/
def VqueueBuf.room (buf : VqueueBuf) : Nat := buf.inIovs.room + buf.outIovs.room

theorem VqueueBuf.room_add {buf : VqueueBuf} {flags : UInt16} {iov : Iov} {len : UInt32}
    (free : (buf.iovsFor flags).iovs.length < (buf.iovsFor flags).cnt) :
    (buf.setIovsFor flags ((buf.iovsFor flags).add width iov len)).room < buf.room := by
  unfold VqueueBuf.setIovsFor VqueueBuf.iovsFor at *
  split <;> rename_i kind <;> simp only [kind, if_true, Bool.false_eq_true, if_false] at free ⊢ <;>
    simp only [VqueueBuf.room, VqueueIovs.room, VqueueIovs.add, List.length_append, List.length_singleton] <;> omega

inductive VqueueStatus where
  | noError
  | channelClosed
  | notEnoughBuffer
  | notValid
  | tooBig
  deriving DecidableEq, Repr

/-- The walk along a chain of descriptors. Each round needs an unused entry. -/
def walkChain (width : Nat) (num : UInt32) (index : UInt16) (buf : VqueueBuf) :
    RingM (VqueueStatus × VqueueBuf) :=
  if num ≤ index.toUInt32 then
    return (.notValid, buf)
  else do
    let flags ← descFlags index
    if _ : (buf.iovsFor flags).iovs.length < (buf.iovsFor flags).cnt then
      let len ← descLen index
      let addr ← descAddr index
      let more ← descLen index
      let filled :=
        buf.setIovsFor flags ((buf.iovsFor flags).add width ⟨truncate width addr, len⟩ more)
      let next ← descNext index
      let again ← descFlags index
      if hasNext again then walkChain width num next filled else return (.noError, filled)
    else
      return (.tooBig, buf)
termination_by buf.room
decreasing_by exact buf.room_add ‹_›

def availEmpty (lastAvailIdx : UInt16) : RingM Bool := do
  let idx ← availIdx
  if lastAvailIdx = idx then
    let flags ← usedFlags
    setUsedFlags (flags &&& ~~~1)
    let idx ← availIdx
    if lastAvailIdx = idx then
      return true
    else
      let flags ← usedFlags
      setUsedFlags (flags ||| 1)
      return false
  else
    return false

/-- The part of `_vqueue_get_avail_buf_locked` that takes the next head. -/
def takeAvailBuf (vq : Vqueue width) (buf : VqueueBuf) :
    RingM (VqueueStatus × Vqueue width × VqueueBuf) := do
  let slot ← modulo vq.lastAvailIdx vq.vring.num
  let head ← availRing slot
  let vq := { vq with lastAvailIdx := vq.lastAvailIdx + 1 }
  if vq.vring.num ≤ head.toUInt32 then
    panic .headOutOfRange
  else
    let buf := ⟨head, buf.inIovs.clear, buf.outIovs.clear⟩
    let (status, buf) ← walkChain width vq.vring.num head buf
    return (status, vq, buf)

def vqueueGetAvailBufLocked (vq : Vqueue width) (buf : VqueueBuf) :
    RingM (VqueueStatus × Vqueue width × VqueueBuf) := do
  if vq.vringAddr = 0 then
    return (.channelClosed, vq, buf)
  else
    let idx ← availIdx
    let availCnt := idx - vq.lastAvailIdx
    if vq.vring.num.toUInt16 < availCnt then
      let _ ← availIdx
      panic .availIdxOutOfRange
    else if ← availEmpty vq.lastAvailIdx then
      return (.notEnoughBuffer, vq, buf)
    else
      takeAvailBuf vq buf

def vqueueAddBufLocked (vq : Vqueue width) (head : UInt16) (len : UInt32) :
    RingM VqueueStatus := do
  if vq.vringAddr = 0 then
    return .channelClosed
  else if vq.vring.num ≤ head.toUInt32 then
    return .notValid
  else
    let idx ← usedIdx
    let slot ← modulo idx vq.vring.num
    setUsedId slot head.toUInt32
    setUsedLen slot len
    let idx ← usedIdx
    setUsedIdx (idx + 1)
    return .noError

/-- `struct fw_rsc_vdev_vring`, without its notify id. -/
structure FwRscVdevVring where
  da : UInt32
  align : UInt32
  num : UInt32
  reserved : UInt32
  deriving DecidableEq, Repr

/-- `struct tipc_vdev_descr`: what is checked of it, and the rings. -/
structure TipcVdevDescr where
  type : UInt32
  id : UInt32
  status : UInt8
  numOfVrings : UInt8
  vrings : Fin 2 → FwRscVdevVring

def rscVdev : UInt32 := 3

def virtioIdTipc : UInt32 := 13

def tipcVqNum : UInt8 := 2

/-- `VIRTIO_CONFIG_S_ACKNOWLEDGE | VIRTIO_CONFIG_S_DRIVER | VIRTIO_CONFIG_S_DRIVER_OK`. -/
def driverReady : UInt8 := 1 ||| 2 ||| 4

def validateDescr (descr : TipcVdevDescr) : Bool :=
  descr.type == rscVdev && descr.id == virtioIdTipc && descr.numOfVrings == tipcVqNum &&
    descr.status == driverReady

/-- The set-up of one ring in `tipc_dev_probe`. -/
def probeVring (vq : Vqueue width) (vring : FwRscVdevVring) (spot : Option (BitVec width)) :
    Option (Vqueue width) :=
  let pa64 := vring.reserved.toUInt64 <<< 32 ||| vring.da.toUInt64
  let paddr : BitVec width := pa64.toBitVec.setWidth width
  if pa64.toBitVec = paddr.setWidth 64 then vqueueInit vq paddr vring.num vring.align spot
  else none

end Trusty.Virtio
