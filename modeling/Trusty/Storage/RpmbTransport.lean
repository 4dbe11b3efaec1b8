import Trusty.Storage.Rpmb

/-!
# The device and the transport

The eMMC device as the standard describes it, and the non-secure transport to the
client. It chooses every packet that either side receives, but cannot attach a valid
MAC to a message that neither of them has authenticated.
-/

namespace Trusty.Storage.RpmbTransport

abbrev Hmac := RpmbKey → List RpmbBody → RpmbKey

structure Device where
  counter : UInt32
  capacity : Nat
  memory : Nat → RpmbData

structure DeviceWrite where
  counter : UInt32
  address : UInt16
  data : List RpmbData
  deriving DecidableEq, Repr

def carriedMac (packets : List RpmbPacket) : Option RpmbKey :=
  packets.getLast?.map RpmbPacket.keyMac

def MacValid (hmac : Hmac) (key : RpmbKey) (packets : List RpmbPacket) : Prop :=
  carriedMac packets = some (hmac key (rpmbMessage packets))

instance (hmac : Hmac) (key : RpmbKey) (packets : List RpmbPacket) :
    Decidable (MacValid hmac key packets) :=
  inferInstanceAs (Decidable (_ = _))

def maxCounter : UInt32 := 0xffffffff

def writeResultMessage (counter : UInt32) (address : RpmbU16) (result : UInt16) :
    List RpmbBody :=
  [{ writeCounter := rpmbU32 counter
     address
     result := rpmbU16 result
     reqResp := rpmbU16 RpmbResponse.dataWrite.code }]

def Device.admits (device : Device) (first : RpmbBody) (count : Nat) : Bool :=
  (rpmbGetU16 first.blockCount).toNat = count ∧
    (rpmbGetU16 first.address).toNat + count ≤ device.capacity

def Device.store (device : Device) (address : Nat) (data : List RpmbData) : Device :=
  { device with
    counter := device.counter + 1
    memory := fun index =>
      if address ≤ index then (data[index - address]?).getD (device.memory index)
      else device.memory index }

/-- A data write request: the new device, the message of the result packet, and
the write if it was carried out. -/
def Device.dataWrite (hmac : Hmac) (key : RpmbKey) (device : Device) (first : RpmbBody)
    (packets : List RpmbPacket) : Device × List RpmbBody × Option DeviceWrite :=
  let refuse (result : UInt16) :=
    (device, writeResultMessage device.counter first.address result, none)
  if device.counter = maxCounter then
    refuse (RpmbResult.writeFailure.code ||| RpmbResult.writeCounterExpired.code)
  else if ¬device.admits first packets.length then
    refuse (if (rpmbGetU16 first.blockCount).toNat = packets.length then
      RpmbResult.addrFailure.code else RpmbResult.generalFailure.code)
  else if ¬MacValid hmac key packets then refuse RpmbResult.authFailure.code
  else if rpmbGetU32 first.writeCounter ≠ device.counter then
    refuse RpmbResult.countFailure.code
  else
    let data := (rpmbMessage packets).map RpmbBody.data
    let address := rpmbGetU16 first.address
    (device.store address.toNat data,
      writeResultMessage (device.counter + 1) first.address RpmbResult.ok.code,
      some ⟨device.counter, address, data⟩)

def counterMessage (counter : UInt32) (nonce : RpmbNonce) : List RpmbBody :=
  [{ nonce
     writeCounter := rpmbU32 counter
     reqResp := rpmbU16 RpmbResponse.getCounter.code }]

/-- The message of the response to a data read request for `count` blocks. -/
def Device.dataReadMessage (device : Device) (first : RpmbBody) (count : Nat) :
    List RpmbBody :=
  let address := (rpmbGetU16 first.address).toNat
  (List.range count).map fun index =>
    { data := device.memory (address + index)
      nonce := first.nonce
      address := first.address
      blockCount := rpmbU16 (UInt16.ofNat count)
      result := rpmbU16 (if address + count ≤ device.capacity then RpmbResult.ok.code
        else RpmbResult.addrFailure.code)
      reqResp := rpmbU16 RpmbResponse.dataRead.code }

structure Request where
  reliableWrite : List RpmbPacket
  write : List RpmbPacket
  deriving DecidableEq, Repr

/-- A request of the client and the response that it handed to
`rpmb_check_response`. -/
structure Exchange where
  request : Request
  response : List RpmbPacket
  deriving DecidableEq, Repr

/-- `signed` lists the messages that went out with a valid MAC; the transport may read a
result packet as soon as there is one. The other lists are bookkeeping. -/
structure World where
  key : RpmbKey
  device : Device
  signed : List (List RpmbBody)
  performed : List DeviceWrite
  sent : Option Request
  received : Option (List RpmbPacket)
  exchanges : List Exchange

/-- Nobody else can compute a MAC. -/
def Unforged (hmac : Hmac) (world : World) (packets : List RpmbPacket) : Prop :=
  MacValid hmac world.key packets → rpmbMessage packets ∈ world.signed

instance (hmac : Hmac) (world : World) (packets : List RpmbPacket) :
    Decidable (Unforged hmac world packets) :=
  inferInstanceAs (Decidable (_ → _))

def World.sign (world : World) (message : List RpmbBody) : World :=
  { world with signed := world.signed ++ [message] }

/-- The transport passes packets of its choice to the device, with room for
`count` packets of response. -/
def World.deliver (hmac : Hmac) (world : World) (packets : List RpmbPacket) (count : Nat) :
    Option World :=
  match packets with
  | [] => none
  | packet :: _ =>
    let first := packet.body
    if ¬Unforged hmac world packets then none
    else if rpmbGetU16 first.reqResp = RpmbRequest.dataWrite.code then
      let (device, message, write) := world.device.dataWrite hmac world.key first packets
      some { world.sign message with device, performed := world.performed ++ write.toList }
    else if rpmbGetU16 first.reqResp = RpmbRequest.getCounter.code then
      some (world.sign (counterMessage world.device.counter first.nonce))
    else if rpmbGetU16 first.reqResp = RpmbRequest.dataRead.code then
      some (world.sign (world.device.dataReadMessage first count))
    else some world

def World.emit (hmac : Hmac) (world : World) (packets : List RpmbPacket) : World :=
  if MacValid hmac world.key packets then world.sign (rpmbMessage packets) else world

def World.checkReceived (world : World) : World :=
  match world.sent, world.received with
  | some request, some response =>
    { world with
      sent := none
      received := none
      exchanges := world.exchanges ++ [⟨request, response⟩] }
  | _, _ => world

inductive Call where
  | write (buf : RpmbBuffer) (addr : UInt16) (sync : Bool)
  | read (addr count : UInt16)
  deriving DecidableEq, Repr

inductive Action where
  | call (call : Call)
  | nonce (value : RpmbNonce)
  | mac (computed : Bool)
  | transmit
  | receive (reply : Except RpmbError (List RpmbPacket))
  | deliver (packets : List RpmbPacket) (count : Nat)
  | finish
  | restart

def World.answer (hmac : Hmac) (world : World) : (op : RpmbOp) → Action → Option (op.Reply × World)
  | .nonce, .nonce value => some (value, world)
  | .mac key message, .mac true => some (some (hmac key message), world.checkReceived)
  | .mac _ _, .mac false => some (none, world)
  | .transmit reliableWrite write _, .transmit =>
    some ((), { (world.emit hmac reliableWrite).emit hmac write with
      sent := some ⟨reliableWrite, write⟩ })
  | .receive _, .receive (.error ret) => some (.error ret, world)
  | .receive count, .receive (.ok packets) =>
    if length : packets.length = count then
      if Unforged hmac world packets then
        some (.ok ⟨packets.toArray, by simpa using length⟩,
          { world with received := some packets })
      else none
    else none
  | _, _ => none

structure Outcome where
  ret : Int
  state : RpmbState
  data : Option (List RpmbData)

def Call.program (state : RpmbState) : Call → RpmbProgram Outcome
  | .write buf addr sync =>
    (fun (ret, state) => ⟨ret, state, none⟩) <$> rpmbWrite state buf addr sync
  | .read addr count => (fun (ret, data) => ⟨ret, state, data⟩) <$> rpmbRead state addr count

/-- A call in progress; `start` counts the device writes before it began. -/
structure Running where
  call : Call
  start : Nat
  program : RpmbProgram Outcome

structure System where
  state : RpmbState
  world : World
  running : Option Running

/-- The client after `rpmb_init`, in any world. -/
def System.boot (world : World) : System := ⟨rpmbInit world.key, world, none⟩

def System.begin (system : System) (call : Call) : System :=
  { system with
    world := { system.world with sent := none, received := none }
    running := some ⟨call, system.world.performed.length, call.program system.state⟩ }

def step (hmac : Hmac) (system : System) : Action → Option System
  | .call call =>
    match system.running with
    | none => some (system.begin call)
    | some _ => none
  | .deliver packets count =>
    (system.world.deliver hmac packets count).map fun world => { system with world }
  | .finish =>
    match system.running with
    | some ⟨_, _, .done outcome⟩ => some { system with state := outcome.state, running := none }
    | _ => none
  | .restart => some (.boot system.world)
  | action =>
    match system.running with
    | some ⟨call, start, .ask op next⟩ =>
      (system.world.answer hmac op action).map fun (reply, world) =>
        { system with world, running := some ⟨call, start, next reply⟩ }
    | _ => none

def run (hmac : Hmac) (system : System) (actions : List Action) : Option System :=
  actions.foldlM (step hmac) system

end Trusty.Storage.RpmbTransport
