import Trusty.Tipc.Device

/-!
# Linux channels and secure endpoints

The channels of `trusty-ipc.c` and the secure device, over two queues that keep the
order of messages. Beside what the code has, requests and messages carry the number
of the Linux channel that they go back to.
-/

namespace Trusty.Tipc

open Function (update)

inductive ChanState where
  | disconnected
  | connecting
  | connected
  | stale
  deriving DecidableEq, Repr

/-- How far `tipc_release` has come: `dn_shutdown`, `tipc_chan_shutdown` and
`tipc_chan_destroy` are done, in this order. -/
inductive Phase where
  | live
  | shut
  | stopped
  | destroyed
  deriving DecidableEq, Repr

/-- `struct tipc_chan` with its `struct tipc_dn_chan`. -/
structure LinuxChan where
  state : ChanState
  addr : UInt32
  remote : UInt32
  maxMsgSize : UInt32
  maxMsgCnt : UInt32
  dnState : ChanState
  rxMsgQueue : List (List UInt8)
  phase : Phase
  deriving DecidableEq, Repr

/-- A channel of `vds_create_channel`, with its address. -/
def LinuxChan.created (addr : UInt32) : LinuxChan :=
  ⟨.disconnected, addr, 0, 0, 0, .disconnected, [], .live⟩

/-- `_handle_conn_rsp`, for the channel that was found. -/
def LinuxChan.connRsp (chan : LinuxChan) (status : Int) (remote maxMsgSize maxMsgCnt : UInt32) :
    LinuxChan :=
  if chan.state = .connecting then
    if status = 0 then
      { chan with
        state := .connected
        remote := remote
        maxMsgCnt := maxMsgCnt
        maxMsgSize := maxMsgSize
        dnState := .connected }
    else
      { chan with state := .disconnected, remote := 0, dnState := .disconnected }
  else chan

/-- `_handle_disc_req`, for the channel that was found. -/
def LinuxChan.discReq (chan : LinuxChan) : LinuxChan :=
  if chan.state = .connected ∨ chan.state = .connecting then
    { chan with state := .disconnected, remote := 0, dnState := .disconnected }
  else chan

/-- `dn_handle_msg`, with a new buffer for the next message. -/
def LinuxChan.handleMsg (chan : LinuxChan) (payload : List UInt8) : LinuxChan :=
  if chan.dnState = .connected then
    { chan with rxMsgQueue := chan.rxMsgQueue ++ [payload] }
  else chan

def Message.target : Message → UInt32
  | .connRsp target _ _ _ _ => target
  | .discReq target => target
  | .data dst _ => dst

def LinuxChan.handle (chan : LinuxChan) : Message → LinuxChan
  | .connRsp _ status remote maxMsgSize maxMsgCnt =>
    chan.connRsp status remote maxMsgSize maxMsgCnt
  | .discReq _ => chan.discReq
  | .data _ payload => chan.handleMsg payload

def Request.src : Request → UInt32
  | .connReq src => src
  | .discReq src _ => src
  | .data src _ _ => src

structure Callback where
  message : Message
  owner : Nat
  chan : Nat
  deriving DecidableEq, Repr

/-- `addrs` is `addr_idr`. Channels, Linux or secure, go by the number of their
opening. The fields after `tx` are not in the code: the Linux channel that a secure
one was opened for, the one whose request the device received last, the addresses
given, and the changes of channels, each with the origin of its message. -/
structure Session where
  chans : Nat → LinuxChan
  count : Nat
  addrs : UInt32 → Option Nat
  callback : Option Callback
  toSecure : List (Request × Nat)
  toLinux : List (Message × Nat)
  core : Core
  rx : Rx
  tx : Tx
  creator : Chan → Nat
  serving : Nat
  given : Nat → UInt32
  changes : List (Nat × Nat)

def tipcMinLocalAddr : UInt32 := 1024

def tipcAnyAddr : UInt32 := 0xFFFFFFFF

def Session.start : Session where
  chans _ := .created 0
  count := 0
  addrs _ := none
  callback := none
  toSecure := []
  toLinux := []
  core := ⟨.start, 0, [], []⟩
  rx := .idle
  tx := .waiting
  creator _ := 0
  serving := 0
  given _ := 0
  changes := []

def Rx.asks : Rx → Option UInt32
  | .opened remote _ | .refusing _ remote => some remote
  | .idle | .placed _ _ | .tagged _ => none

def Tx.carries : Tx → Option (Chan × UInt32)
  | .forwarding chan remote | .responding chan _ remote | .disconnecting chan _ remote =>
    some (chan, remote)
  | .waiting | .woken _ _ => none

/-- Something of a Linux channel is under way, or the secure device has an
endpoint for it. -/
inductive Session.Leaves (session : Session) (owner : Nat) : Prop where
  | request {request : Request} (mem : (request, owner) ∈ session.toSecure)
  | asked {remote : UInt32} (is : session.rx.asks = some remote) (own : session.serving = owner)
  | endpoint {slot : Slot} {chan : Chan} (is : (session.core.dev.epts slot).chan = some chan)
      (own : session.creator chan = owner)
  | carried {chan : Chan} {remote : UInt32} (is : session.tx.carries = some (chan, remote))
      (own : session.creator chan = owner)
  | message {message : Message} (mem : (message, owner) ∈ session.toLinux)

def Session.Clear (session : Session) (addr : UInt32) : Prop :=
  ∀ owner, session.Leaves owner → session.given owner ≠ addr

def Session.setChan (session : Session) (id : Nat) (chan : LinuxChan) : Session :=
  { session with chans := update session.chans id chan }

def Session.send (session : Session) (id : Nat) (request : Request) : Session :=
  { session with toSecure := session.toSecure ++ [(request, id)] }

def Session.create (session : Session) (addr : UInt32) : Session :=
  { session with
    chans := update session.chans session.count (.created addr)
    count := session.count + 1
    addrs := update session.addrs addr (some session.count)
    given := update session.given session.count addr }

/-- `tipc_chan_shutdown` with a buffer. -/
def Session.shutdown (session : Session) (id : Nat) : Session :=
  let chan := session.chans id
  let stopped := session.setChan id { chan with state := .stale, phase := .stopped }
  if chan.state = .connected ∨ chan.state = .connecting then
    stopped.send id (.discReq chan.addr chan.remote)
  else stopped

def Session.destroy (session : Session) (id : Nat) : Session :=
  let chan := session.chans id
  { session with
    chans := update session.chans id { chan with addr := 0, remote := 0, phase := .destroyed }
    addrs := update session.addrs chan.addr none }

def Session.handle (session : Session) (callback : Callback) : Session :=
  let before := session.chans callback.chan
  let after := before.handle callback.message
  { session with
    chans := update session.chans callback.chan after
    callback := none
    changes :=
      if after = before then session.changes
      else (callback.chan, callback.owner) :: session.changes }

/-- The steps of both sides. In a `careful` run a new channel gets an address only when
nothing is left of those that had it before, and `tipc_chan_shutdown` always gets a
buffer for its request. -/
inductive Session.Step (careful : Bool) : Session → Session → Prop where
  | create {session} {addr : UInt32} (least : tipcMinLocalAddr ≤ addr)
      (most : addr < tipcAnyAddr - 1) (free : session.addrs addr = none)
      (clear : careful = true → session.Clear addr) :
      Session.Step careful session (session.create addr)
  | connect {session id} (open' : id < session.count) (live : (session.chans id).phase = .live)
      (state : (session.chans id).state = .disconnected) :
      Session.Step careful session
        ((session.setChan id { session.chans id with state := .connecting }).send id
          (.connReq (session.chans id).addr))
  | noReply {session id} (open' : id < session.count) (live : (session.chans id).phase = .live) :
      Session.Step careful session
        (session.setChan id { session.chans id with dnState := .stale })
  | write {session id} {payload : List UInt8} (open' : id < session.count)
      (live : (session.chans id).phase = .live)
      (state : (session.chans id).state = .connected) :
      Session.Step careful session
        (session.send id (.data (session.chans id).addr (session.chans id).remote payload))
  | read {session id} (open' : id < session.count) (live : (session.chans id).phase = .live) :
      Session.Step careful session
        (session.setChan id
          { session.chans id with rxMsgQueue := (session.chans id).rxMsgQueue.tail })
  | dnShutdown {session id} (open' : id < session.count)
      (live : (session.chans id).phase = .live) :
      Session.Step careful session
        (session.setChan id
          { session.chans id with dnState := .stale, rxMsgQueue := [], phase := .shut })
  | shutdown {session id} (open' : id < session.count) (phase : (session.chans id).phase = .shut) :
      Session.Step careful session (session.shutdown id)
  | noBuffer {session id} (allowed : careful = false) (open' : id < session.count)
      (phase : (session.chans id).phase = .shut) :
      Session.Step careful session
        (session.setChan id { session.chans id with phase := .stopped })
  | destroy {session id} (open' : id < session.count)
      (phase : (session.chans id).phase = .stopped) :
      Session.Step careful session (session.destroy id)
  | fetch {session message owner rest id} (idle : session.callback = none)
      (head : session.toLinux = (message, owner) :: rest)
      (found : session.addrs message.target = some id) :
      Session.Step careful session
        { session with toLinux := rest, callback := some ⟨message, owner, id⟩ }
  | drop {session message owner rest} (idle : session.callback = none)
      (head : session.toLinux = (message, owner) :: rest)
      (unknown : session.addrs message.target = none) :
      Session.Step careful session { session with toLinux := rest }
  | handle {session callback} (is : session.callback = some callback) :
      Session.Step careful session (session.handle callback)
  | discard {session dst payload owner id}
      (is : session.callback = some ⟨.data dst payload, owner, id⟩) :
      Session.Step careful session { session with callback := none }
  | receive {session request owner rest core rx}
      (head : session.toSecure = (request, owner) :: rest)
      (step : RxStep session.core session.rx (.receive request) core rx) :
      Session.Step careful session
        { session with
          toSecure := rest
          core := core
          rx := rx
          creator := update session.creator session.core.opened owner
          serving := owner }
  | rxInternal {session core rx} (step : RxStep session.core session.rx .internal core rx) :
      Session.Step careful session { session with core := core, rx := rx }
  | rxEmit {session message core rx}
      (step : RxStep session.core session.rx (.emit none message) core rx) :
      Session.Step careful session
        { session with
          core := core
          rx := rx
          toLinux := session.toLinux ++ [(message, session.serving)] }
  | txInternal {session core tx} (step : TxStep session.core session.tx .internal core tx) :
      Session.Step careful session { session with core := core, tx := tx }
  | txEmit {session chan message core tx}
      (step : TxStep session.core session.tx (.emit (some chan) message) core tx) :
      Session.Step careful session
        { session with
          core := core
          tx := tx
          toLinux := session.toLinux ++ [(message, session.creator chan)] }

abbrev Session.Reached (careful : Bool) (session : Session) : Prop :=
  Relation.ReflTransGen (Session.Step careful) .start session

end Trusty.Tipc
