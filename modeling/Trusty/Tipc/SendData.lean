import Trusty.Tipc.Device
import Trusty.Virtio.Vqueue

/-!
# Frames for the normal world

`tipc_send_data` puts a header and a message into one buffer of the driver, and
`_handle_rxbuf` of the driver checks its length.
-/

namespace Trusty.Tipc

open List

open Virtio (VqueueBuf Iov)

structure TipcHdr where
  src : UInt32
  dst : UInt32
  reserved : UInt32
  len : UInt16
  flags : UInt16
  deriving DecidableEq, Repr

def sizeofTipcHdr : Nat := 16

def errInvalidArgs : Int := -8

def errNotEnoughBuffer : Int := -9

def errChannelClosed : Int := -15

/-- A round of the loop that gets a buffer. `mapped` is what `vqueue_map_iovs` returns for the
buffer, and `txStop` what is read after the wait. -/
inductive Round where
  | got (buf : VqueueBuf) (mapped : Int)
  | failed (ret : Int) (txStop : Bool)

inductive SendEnd where
  | waiting
  | failed (ret : Int)
  /-- The buffer is returned with a length. `frame` is what has been written to it. -/
  | added (frame : Option (TipcHdr × List UInt8)) (len : UInt32)
  deriving DecidableEq, Repr

/-- A data callback: what it returns for a number of bytes, and what it writes. -/
abbrev DataCb := UInt16 → Int × List UInt8

def fillBuf (src dst : UInt32) (cb : DataCb) (dataLen : UInt16) (buf : VqueueBuf) (mapped : Int) :
    SendEnd :=
  match buf.outIovs.iovs with
  | [] => .added none (.ofInt errNotEnoughBuffer)
  | iov :: _ =>
    if sizeofTipcHdr > iov.len.toNat then .added none (.ofInt errNotEnoughBuffer)
    else if mapped ≠ 0 then .added none (.ofInt mapped)
    else
      let hdr : TipcHdr := ⟨src, dst, 0, dataLen, 0⟩
      let ttlLen := sizeofTipcHdr + dataLen.toNat
      -- The header keeps the length that it has got.
      let space :=
        if ttlLen > iov.len.toNat then .ofNat (iov.len.toNat - sizeofTipcHdr) else dataLen
      let (ret, data) := cb space
      .added (some (hdr, data)) (.ofInt (if ret ≥ 0 then ret + sizeofTipcHdr else ret))

def sendRounds (fill : VqueueBuf → Int → SendEnd) (wait : Bool) : List Round → SendEnd
  | [] => .waiting
  | .got buf mapped :: _ => fill buf mapped
  | .failed ret txStop :: rest =>
    if ret ≠ errNotEnoughBuffer ∨ !wait then .failed ret
    else if txStop then .failed errChannelClosed
    else sendRounds fill wait rest

def tipcSendData (src dst : UInt32) (cb : Option DataCb) (dataLen : UInt16) (wait : Bool)
    (rounds : List Round) : SendEnd :=
  match cb with
  | none => .failed errInvalidArgs
  | some cb => sendRounds (fillBuf src dst cb dataLen) wait rounds

/-- `tx_data_cb`: `ipc_read_msg` copies what fits. -/
def txDataCb (message : List UInt8) : DataCb := fun bufLen =>
  ((message.take bufLen.toNat).length, message.take bufLen.toNat)

/-- The check of `_handle_rxbuf`. -/
def handleRxbuf (bufSz rxlen : Nat) (msg : TipcHdr) : Bool :=
  !(bufSz < rxlen) && !(rxlen < sizeofTipcHdr) && rxlen - sizeofTipcHdr == msg.len.toNat

/-- The check of `handle_rx_msg`. -/
def handleRxMsg (len : Nat) (nsHdr : TipcHdr) : Bool :=
  !(len < sizeofTipcHdr) && nsHdr.len.toNat + sizeofTipcHdr == len

variable {src dst : UInt32} {message : List UInt8} {buf : VqueueBuf} {iov : Iov} {others : List Iov}

theorem ofInt_natCast {value : Nat} (small : value < 2 ^ 32) : UInt32.ofInt value = .ofNat value := by
  unfold UInt32.ofInt
  congr 1
  omega

theorem fillBuf_message (short : message.length ≤ ipcChanMaxBufSize.toNat) (is : buf.outIovs.iovs = iov :: others)
    (room : sizeofTipcHdr ≤ iov.len.toNat) :
    fillBuf src dst (txDataCb message) (.ofNat message.length) buf 0 =
      .added (some (⟨src, dst, 0, .ofNat message.length, 0⟩, message.take (iov.len.toNat - sizeofTipcHdr)))
        (.ofNat (min (sizeofTipcHdr + message.length) iov.len.toNat)) := by
  have narrow : (UInt16.ofNat message.length).toNat = message.length :=
    UInt16.toNat_ofNat_of_lt' (lt_of_le_of_lt short (by decide))
  have header : sizeofTipcHdr = 16 := rfl
  have limit : ipcChanMaxBufSize.toNat = 4096 := rfl
  have space : message.take (if sizeofTipcHdr + (UInt16.ofNat message.length).toNat > iov.len.toNat
      then UInt16.ofNat (iov.len.toNat - sizeofTipcHdr) else .ofNat message.length).toNat =
      message.take (iov.len.toNat - sizeofTipcHdr) := by
    split
    · rw [UInt16.toNat_ofNat_of_lt' (by simp only [UInt16.size]; omega)]
    · rw [narrow, take_of_length_le le_rfl, take_of_length_le (by omega)]
  have length : ((message.take (iov.len.toNat - sizeofTipcHdr)).length : Int) + sizeofTipcHdr =
      (min (sizeofTipcHdr + message.length) iov.len.toNat : Nat) := by
    rw [length_take]
    omega
  unfold fillBuf txDataCb
  rw [is]
  dsimp only
  rw [if_neg (Nat.not_lt.mpr room), if_neg (not_not_intro rfl), space,
    if_pos (Int.natCast_nonneg _), length, ofInt_natCast (by omega)]

/-- A message of any size that a channel takes passes the checks of the receivers
exactly if the buffer of the driver has room for it and its header. -/
theorem frame_passes_iff (src dst : UInt32) (message : List UInt8) (short : message.length ≤ ipcChanMaxBufSize.toNat)
    (buf : VqueueBuf) (iov : Iov) (others : List Iov) (is : buf.outIovs.iovs = iov :: others)
    (room : sizeofTipcHdr ≤ iov.len.toNat) (wait : Bool) (rounds : List Round) :
    ∃ hdr data used, tipcSendData src dst (some (txDataCb message)) (.ofNat message.length) wait
        (.got buf 0 :: rounds) = .added (some (hdr, data)) used ∧
      data = message.take (used.toNat - sizeofTipcHdr) ∧
      (hdr.len.toNat + sizeofTipcHdr = used.toNat ∧ data = message.take hdr.len.toNat ∧
        handleRxbuf iov.len.toNat used.toNat hdr = true ∧ handleRxMsg used.toNat hdr = true ↔
        sizeofTipcHdr + message.length ≤ iov.len.toNat) := by
  refine ⟨_, _, _, fillBuf_message short is room, ?_⟩
  have narrow : (UInt16.ofNat message.length).toNat = message.length :=
    UInt16.toNat_ofNat_of_lt' (lt_of_le_of_lt short (by decide))
  have used : (UInt32.ofNat (min (sizeofTipcHdr + message.length) iov.len.toNat)).toNat =
      min (sizeofTipcHdr + message.length) iov.len.toNat := by
    have below := iov.len.toNat_lt
    exact UInt32.toNat_ofNat_of_lt' (by simp only [UInt32.size]; omega)
  unfold handleRxbuf handleRxMsg sizeofTipcHdr at *
  refine ⟨?_, ?_⟩
  · rw [take_eq_take_iff]
    omega
  · simp only [Bool.and_eq_true, Bool.not_eq_true', decide_eq_false_iff_not, beq_iff_eq, take_eq_take_iff]
    omega

theorem short_frame_passes : ∃ hdr data used,
    tipcSendData 1 2 (some (txDataCb [7])) 1 true [.got ⟨0, ⟨0, [], 0⟩, ⟨1, [⟨0, 17⟩], 17⟩⟩ 0] =
      .added (some (hdr, data)) used ∧ handleRxbuf 17 used.toNat hdr = true := by
  obtain ⟨hdr, data, used, sent, _, passes⟩ := frame_passes_iff 1 2 [7] (by decide)
    ⟨0, ⟨0, [], 0⟩, ⟨1, [⟨0, 17⟩], 17⟩⟩ ⟨0, 17⟩ [] rfl (by decide) true []
  exact ⟨hdr, data, used, sent, (passes.mpr (by decide)).2.2.1⟩

/-- A message of the greatest size in a buffer of one page. -/
theorem page_frame_dropped : ∃ message : List UInt8, message.length = ipcChanMaxBufSize.toNat ∧
    ∃ hdr data, tipcSendData 1 2 (some (txDataCb message)) (.ofNat message.length) true
        [.got ⟨0, ⟨0, [], 0⟩, ⟨1, [⟨0, 4096⟩], 4096⟩⟩ 0] = .added (some (hdr, data)) 4096 ∧
      hdr.len = 4096 ∧ data.length = 4080 ∧ handleRxbuf 4096 4096 hdr = false := by
  obtain ⟨message, full⟩ : ∃ message : List UInt8, message.length = ipcChanMaxBufSize.toNat :=
    ⟨.replicate _ 0, length_replicate⟩
  have sent := @fillBuf_message 1 2 message ⟨0, ⟨0, [], 0⟩, ⟨1, [⟨0, 4096⟩], 4096⟩⟩ ⟨0, 4096⟩ []
    (le_of_eq full) rfl (by decide)
  have size : (message.take 4080).length = 4080 := by
    rw [length_take, full]
    rfl
  refine ⟨message, full, ?_⟩
  rw [full] at sent ⊢
  exact ⟨_, _, sent, rfl, size, by decide⟩

end Trusty.Tipc
