import Trusty.Lib.Interaction

/-!
# Replay protected memory

The client of the replay protected memory block of an eMMC device. The functions are
programs: what they send, what the non-secure transport hands back, the nonces and
the outcome of the HMAC library are questions to the environment.
-/

namespace Trusty.Storage

open BitVec

abbrev RpmbKey := BitVec 256
abbrev RpmbNonce := BitVec 128
abbrev RpmbData := BitVec 2048

structure RpmbU16 where
  byte0 : UInt8
  byte1 : UInt8
  deriving DecidableEq, Repr

structure RpmbU32 where
  byte0 : UInt8
  byte1 : UInt8
  byte2 : UInt8
  byte3 : UInt8
  deriving DecidableEq, Repr

def rpmbU16 (value : UInt16) : RpmbU16 := ⟨(value >>> 8).toUInt8, value.toUInt8⟩

def rpmbU32 (value : UInt32) : RpmbU32 :=
  ⟨(value >>> 24).toUInt8, (value >>> 16).toUInt8, (value >>> 8).toUInt8, value.toUInt8⟩

def rpmbGetU16 (bytes : RpmbU16) : UInt16 :=
  [bytes.byte0, bytes.byte1].foldl (fun value byte => value <<< 8 ||| byte.toUInt16) 0

def rpmbGetU32 (bytes : RpmbU32) : UInt32 :=
  [bytes.byte0, bytes.byte1, bytes.byte2, bytes.byte3].foldl
    (fun value byte => value <<< 8 ||| byte.toUInt32) 0

inductive RpmbRequest where
  | programKey
  | getCounter
  | dataWrite
  | dataRead
  | resultRead
  deriving DecidableEq, Repr

def RpmbRequest.code : RpmbRequest → UInt16
  | .programKey => 0x0001
  | .getCounter => 0x0002
  | .dataWrite => 0x0003
  | .dataRead => 0x0004
  | .resultRead => 0x0005

inductive RpmbResponse where
  | programKey
  | getCounter
  | dataWrite
  | dataRead
  deriving DecidableEq, Repr

def RpmbResponse.code : RpmbResponse → UInt16
  | .programKey => 0x0100
  | .getCounter => 0x0200
  | .dataWrite => 0x0300
  | .dataRead => 0x0400

inductive RpmbResult where
  | ok
  | generalFailure
  | authFailure
  | countFailure
  | addrFailure
  | writeFailure
  | readFailure
  | noAuthKey
  | writeCounterExpired
  deriving DecidableEq, Repr

def RpmbResult.code : RpmbResult → UInt16
  | .ok => 0x0000
  | .generalFailure => 0x0001
  | .authFailure => 0x0002
  | .countFailure => 0x0003
  | .addrFailure => 0x0004
  | .writeFailure => 0x0005
  | .readFailure => 0x0006
  | .noAuthKey => 0x0007
  | .writeCounterExpired => 0x0080

structure RpmbBody where
  data : RpmbData := 0
  nonce : RpmbNonce := 0
  writeCounter : RpmbU32 := ⟨0, 0, 0, 0⟩
  address : RpmbU16 := ⟨0, 0⟩
  blockCount : RpmbU16 := ⟨0, 0⟩
  result : RpmbU16 := ⟨0, 0⟩
  reqResp : RpmbU16 := ⟨0, 0⟩
  deriving DecidableEq, Repr

structure RpmbPacket where
  keyMac : RpmbKey := 0
  body : RpmbBody
  deriving DecidableEq, Repr

/-- What `rpmb_mac` feeds to the HMAC, packet by packet. -/
def rpmbMessage (packets : List RpmbPacket) : List RpmbBody := packets.map RpmbPacket.body

abbrev RpmbError := { code : Int // code < 0 }

inductive RpmbOp where
  | nonce
  | mac (key : RpmbKey) (message : List RpmbBody)
  | transmit (reliableWrite write : List RpmbPacket) (sync : Bool)
  | receive (count : Nat)

abbrev RpmbOp.Reply : RpmbOp → Type
  | .nonce => RpmbNonce
  | .mac _ _ => Option RpmbKey
  | .transmit _ _ _ => Unit
  | .receive count => Except RpmbError (Vector RpmbPacket count)

abbrev RpmbProgram := Interaction RpmbOp RpmbOp.Reply

def rpmbNonceInit : RpmbProgram RpmbNonce := Interaction.perform RpmbOp.nonce

def rpmbMac (key : RpmbKey) (packets : List RpmbPacket) : RpmbProgram (Option RpmbKey) :=
  Interaction.perform (RpmbOp.mac key (rpmbMessage packets))

/-- `rpmb_send`: the transport sees the packets before it has to answer. -/
def rpmbSend (reliableWrite write : List RpmbPacket) (count : Nat) (sync : Bool) :
    RpmbProgram (Except RpmbError (Vector RpmbPacket count)) :=
  .ask (.transmit reliableWrite write sync) fun _ => .ask (.receive count) .done

def enoent : Int := 2

structure RpmbState where
  key : RpmbKey
  writeCounter : UInt32
  deriving DecidableEq, Repr

def rpmbInit (key : RpmbKey) : RpmbState := ⟨key, 0⟩

def rpmbCheckResponse (responseType : RpmbResponse) (res : List RpmbPacket)
    (mac : Option RpmbKey) (nonce : Option RpmbNonce) (addr : Option UInt16) : Int :=
  match res with
  | [] => 0
  | packet :: rest =>
    if rpmbGetU16 packet.body.reqResp ≠ responseType.code then -1
    else if rpmbGetU16 packet.body.result ≠ RpmbResult.ok.code then
      if rpmbGetU16 packet.body.result = RpmbResult.addrFailure.code then -enoent else -1
    else if rest = [] ∧ mac.any (packet.keyMac ≠ ·) then -1
    else if nonce.any (packet.body.nonce ≠ ·) then -1
    else if addr.any (· ≠ rpmbGetU16 packet.body.address) then -1
    else rpmbCheckResponse responseType rest mac nonce addr

def getCounterCmd (nonce : RpmbNonce) : RpmbPacket :=
  { body := { nonce, reqResp := rpmbU16 RpmbRequest.getCounter.code } }

def rpmbReadCounter (state : RpmbState) : RpmbProgram (Int × RpmbState) := do
  let nonce ← rpmbNonceInit
  match ← rpmbSend [] [getCounterCmd nonce] 1 false with
  | .error ret => return (ret.val, state)
  | .ok res =>
    match ← rpmbMac state.key res.toList with
    | none => return (-1, state)
    | some mac =>
      let state := { state with writeCounter := rpmbGetU32 res[0].body.writeCounter }
      return (rpmbCheckResponse .getCounter res.toList mac nonce none, state)

def dataReadCmd (nonce : RpmbNonce) (addr : UInt16) : RpmbPacket :=
  { body :=
      { nonce, address := rpmbU16 addr, reqResp := rpmbU16 RpmbRequest.dataRead.code } }

/-- On success the second component is what was copied to the caller's buffer. -/
def rpmbRead (state : RpmbState) (addr count : UInt16) : RpmbProgram (Int × Option (List RpmbData)) := do
  let nonce ← rpmbNonceInit
  match ← rpmbSend [] [dataReadCmd nonce addr] count.toNat false with
  | .error ret => return (ret.val, none)
  | .ok res =>
    match ← rpmbMac state.key res.toList with
    | none => return (-1, none)
    | some mac =>
      let ret := rpmbCheckResponse .dataRead res.toList mac nonce addr
      if ret < 0 then return (ret, none)
      else return (0, some (res.toList.map (·.body.data)))

/-- The caller's buffer. Its count is not zero: the MAC goes into `cmd[count - 1]`. -/
abbrev RpmbBuffer := { blocks : List RpmbData // blocks ≠ [] }

/-- `cmd[0] … cmd[count - 1]` before the MAC is set, where `count` is the length of `buf`. -/
def dataWriteCmd (writeCounter : UInt32) (addr : UInt16) (buf : List RpmbData) :
    List RpmbPacket :=
  buf.map fun data =>
    { body :=
        { data
          writeCounter := rpmbU32 writeCounter
          address := rpmbU16 addr
          blockCount := rpmbU16 (UInt16.ofNat buf.length)
          reqResp := rpmbU16 RpmbRequest.dataWrite.code } }

def setLastMac (mac : RpmbKey) : List RpmbPacket → List RpmbPacket
  | [] => []
  | [packet] => [{ packet with keyMac := mac }]
  | packet :: rest => packet :: setLastMac mac rest

def resultReadCmd : RpmbPacket :=
  { body := { reqResp := rpmbU16 RpmbRequest.resultRead.code } }

def rpmbWriteData (state : RpmbState) (buf : RpmbBuffer) (addr : UInt16) (sync : Bool) :
    RpmbProgram (Int × RpmbState) := do
  let cmd := dataWriteCmd state.writeCounter addr buf.val
  match ← rpmbMac state.key cmd with
  | none => return (-1, state)
  | some cmdMac =>
    match ← rpmbSend (setLastMac cmdMac cmd) [resultReadCmd] 1 sync with
    | .error ret => return (ret.val, state)
    | .ok res =>
      match ← rpmbMac state.key res.toList with
      | none => return (-1, state)
      | some mac =>
        let ret := rpmbCheckResponse .dataWrite res.toList mac none addr
        if ret < 0 then
          if rpmbGetU16 res[0].body.result = RpmbResult.countFailure.code then
            return (ret, { state with writeCounter := 0 })
          else return (ret, state)
        else return (0, { state with writeCounter := state.writeCounter + 1 })

def rpmbWrite (state : RpmbState) (buf : RpmbBuffer) (addr : UInt16) (sync : Bool) :
    RpmbProgram (Int × RpmbState) := do
  if state.writeCounter = 0 then
    let (ret, state) ← rpmbReadCounter state
    if ret < 0 then return (ret, state)
    else rpmbWriteData state buf addr sync
  else rpmbWriteData state buf addr sync

@[simp] theorem rpmbGetU16_rpmbU16 (value : UInt16) : rpmbGetU16 (rpmbU16 value) = value := by
  rw [← UInt16.toBitVec_inj]
  ext index bound
  simp only [rpmbGetU16, rpmbU16, List.foldl_cons, List.foldl_nil, UInt16.toBitVec_or,
    UInt16.toBitVec_shiftLeft, UInt16.toBitVec_shiftRight, UInt8.toBitVec_toUInt16,
    UInt16.toBitVec_toUInt8]
  simp [-setWidth_setWidth_of_le, getElem_shiftLeft, getElem_setWidth]
  grind

@[simp] theorem rpmbGetU32_rpmbU32 (value : UInt32) : rpmbGetU32 (rpmbU32 value) = value := by
  rw [← UInt32.toBitVec_inj]
  ext index bound
  simp only [rpmbGetU32, rpmbU32, List.foldl_cons, List.foldl_nil, UInt32.toBitVec_or,
    UInt32.toBitVec_shiftLeft, UInt32.toBitVec_shiftRight, UInt8.toBitVec_toUInt32,
    UInt32.toBitVec_toUInt8]
  simp [-setWidth_setWidth_of_le, getElem_shiftLeft, getElem_setWidth]
  grind

@[simp] theorem rpmbMessage_setLastMac (mac : RpmbKey) (packets : List RpmbPacket) :
    rpmbMessage (setLastMac mac packets) = rpmbMessage packets := by
  fun_induction setLastMac mac packets with
  | case1 | case2 packet => rfl
  | case3 packet rest _ same => simpa [rpmbMessage] using same

/-- What `rpmb_check_response` looks at in each packet besides the MAC. -/
structure ResponseFits (responseType : RpmbResponse) (nonce : Option RpmbNonce)
    (addr : Option UInt16) (body : RpmbBody) : Prop where
  type : rpmbGetU16 body.reqResp = responseType.code
  result : rpmbGetU16 body.result = RpmbResult.ok.code
  nonce : ∀ expected, nonce = some expected → body.nonce = expected
  addr : ∀ expected, addr = some expected → rpmbGetU16 body.address = expected

theorem rpmbCheckResponse_fits {responseType : RpmbResponse} {res : List RpmbPacket}
    {mac : RpmbKey} {nonce : Option RpmbNonce} {addr : Option UInt16}
    (accepted : ¬rpmbCheckResponse responseType res mac nonce addr < 0) :
    (∀ packet ∈ res, ResponseFits responseType nonce addr packet.body) ∧
      ∀ last, res.getLast? = some last → last.keyMac = mac := by
  fun_induction rpmbCheckResponse responseType res mac nonce addr with
  | case1 => simp
  | case2 | case3 | case4 | case5 | case6 | case7 => exact absurd (by decide) accepted
  | case8 packet rest typed ok tagged nonced addressed ih =>
  obtain ⟨fits, lastMac⟩ := ih accepted
  have first : ResponseFits responseType nonce addr packet.body :=
    ⟨not_not.mp typed, not_not.mp ok, fun expected same => by simpa [same] using nonced,
      fun expected same => (by simpa [same] using addressed : expected = _).symm⟩
  refine ⟨List.forall_mem_cons.mpr ⟨first, fits⟩, ?_⟩
  cases rest with
  | nil => simpa using tagged
  | cons second others => simpa using lastMac

end Trusty.Storage
