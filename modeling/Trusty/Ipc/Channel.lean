import Trusty.Lib.References
import Trusty.Lib.StateLogic
import Trusty.Ipc.MsgQueue

/-!
# Ports and channels

Ports are published under a path, and a connection to a port is a pair of
channels (`ipc.c`). Everything here runs with `ipc_lock` held.
-/

namespace Trusty.Ipc

open Function (update)

abbrev ChanId := Nat

abbrev PortId := Nat

/-- What a `handle_t` pointer refers to. -/
inductive Handle where
  | port (port : PortId)
  | chan (chan : ChanId)
  deriving DecidableEq

/-- A path, without its terminating zero. -/
abbrev Path := List UInt8

/-- The address of a uuid. The non-secure world uses that of `zero_uuid`. -/
inductive Uuid where
  | zero
  | app (number : Nat)
  deriving DecidableEq, Repr

def isNsClient (uuid : Uuid) : Bool :=
  uuid = .zero

inductive PortState where
  | invalid
  | listening
  | closing
  deriving DecidableEq, Repr

structure PortFlags where
  allowTaConnect : Bool
  allowNsConnect : Bool
  deriving DecidableEq

/-- `ipc_port_t`. `node` says that it is linked into the list of ports, and
`refcnt` is the reference count of its handle. -/
structure Port where
  path : Path
  uuid : Option Uuid
  state : PortState
  flags : PortFlags
  numRecvBufs : Nat
  recvBufSize : Nat
  refcnt : Nat
  pendingList : List ChanId
  node : Bool
  deriving DecidableEq

inductive ChanState where
  | invalid
  | accepting
  | connecting
  | connected
  | disconnecting
  | waitingForPort
  deriving DecidableEq, Repr

structure AuxState where
  sendBlocked : Bool
  sendUnblocked : Bool
  connected : Bool
  deriving DecidableEq

inductive Place where
  | waitingForPort
  | pending (port : PortId)
  deriving DecidableEq

/-- `ipc_chan_t`. `refcnt` is the reference count of its handle, and zero if the
handle has not been initialised. -/
structure Chan where
  peer : Option ChanId
  uuid : Option Uuid
  state : ChanState
  server : Bool
  aux : AuxState
  refcnt : Nat
  node : Option Place
  msgQueue : Option MsgQueue
  path : Option Path

/-- The local references of the calls, `tmp_client_ref` and `tmp_server_ref`. -/
inductive Role where
  | client
  | server
  deriving DecidableEq

/-- The `obj_ref_t` that can be linked to a channel: the local variables of the
calls, and the three members of each channel. -/
inductive Ref where
  | tmp (role : Role)
  | peer (chan : ChanId)
  | node (chan : ChanId)
  | handle (chan : ChanId)
  deriving DecidableEq

structure Attachment where
  client : ChanId
  server : ChanId
  portId : PortId
  port : Port

/-- The memory of ports and channels. `memory` says which of the next allocations fail,
and `attached`, which is not in the code, what `port_attach_client` has done. -/
structure IpcState where
  chans : ChanId → Option Chan
  nextChan : ChanId
  ports : PortId → Option Port
  nextPort : PortId
  waitingForPortChanList : List ChanId
  ipcPortList : List PortId
  links : List (Ref × ChanId)
  memory : List Bool
  attached : List Attachment

namespace IpcState

def setChan (state : IpcState) (chan : ChanId) (data : Option Chan) : IpcState :=
  { state with chans := update state.chans chan data }

def setPort (state : IpcState) (port : PortId) (data : Option Port) : IpcState :=
  { state with ports := update state.ports port data }

def addLink (state : IpcState) (ref : Ref) (chan : ChanId) : IpcState :=
  { state with links := References.add state.links ref chan }

def dropLink (state : IpcState) (ref : Ref) : IpcState :=
  { state with links := References.drop state.links ref }

def setWaiting (state : IpcState) (chans : List ChanId) : IpcState :=
  { state with waitingForPortChanList := chans }

def addAttached (state : IpcState) (attachment : Attachment) : IpcState :=
  { state with attached := state.attached ++ [attachment] }

def setListed (state : IpcState) (ports : List PortId) : IpcState :=
  { state with ipcPortList := ports }

end IpcState

/-- The assertions that are also compiled into release builds. -/
inductive Assertion where
  /-- In `_chan_shutdown_locked`: a waiting channel is in a list. -/
  | waitingInList
  /-- In `__chan_destroy_refobj`: the channel has no peer. -/
  | noPeer
  /-- In `__chan_destroy_refobj`: the channel is in no list. -/
  | inNoList
  deriving DecidableEq

inductive Stop where
  | assertion (which : Assertion)
  | nullPointer
  | freedMemory
  | linkedTwice
  deriving DecidableEq

abbrev IpcM := EStateM Stop IpcState

/-!
## Memory
-/

def getChan (chan : ChanId) : IpcM Chan := do
  match (← get).chans chan with
  | some data => return data
  | none => throw .freedMemory

def setChan (chan : ChanId) (data : Option Chan) : IpcM Unit :=
  modify fun state => state.setChan chan data

def modifyChan (chan : ChanId) (change : Chan → Chan) : IpcM Unit := do
  let data ← getChan chan
  setChan chan (some (change data))

variable (port : PortId)

def getPort : IpcM Port := do
  match (← get).ports port with
  | some data => return data
  | none => throw .freedMemory

def setPort (data : Option Port) : IpcM Unit :=
  modify fun state => state.setPort port data

def modifyPort (change : Port → Port) : IpcM Unit := do
  let data ← getPort port
  setPort port (some (change data))

def alloc : IpcM Bool := do
  let state ← get
  set { state with memory := state.memory.tail }
  return state.memory.headD true

/-!
## Reference lists
-/

def chanDestroyRefobj (chan : ChanId) : IpcM Unit := do
  let data ← getChan chan
  if data.peer.isSome then
    throw (.assertion .noPeer)
  else if data.node.isSome then
    throw (.assertion .inNoList)
  else
    setChan chan none

def chanAddRef (chan : ChanId) (ref : Ref) : IpcM Unit := do
  let _ ← getChan chan
  let state ← get
  if References.linked state.links ref then
    throw .linkedTwice
  else
    set (state.addLink ref chan)

def chanDelRef (chan : ChanId) (ref : Ref) : IpcM Unit := do
  let _ ← getChan chan
  let state ← get
  if !References.linked state.links ref then
    throw .nullPointer
  else
    let state := state.dropLink ref
    set state
    if References.referenced state.links chan then
      return ()
    else
      chanDestroyRefobj chan

/-- The channel that `chan_alloc` initialises. -/
def newChan (server : Bool) (uuid : Option Uuid) : Chan where
  peer := none
  uuid := uuid
  state := .invalid
  server := server
  aux := ⟨false, false, false⟩
  refcnt := 0
  node := none
  msgQueue := none
  path := none

def IpcState.allocChan (state : IpcState) (data : Chan) (ref : Ref) : IpcState :=
  { state with
    chans := update state.chans state.nextChan (some data)
    nextChan := state.nextChan + 1
    links := References.add state.links ref state.nextChan }

def chanAlloc (server : Bool) (uuid : Option Uuid) (ref : Ref) : IpcM (Option ChanId) := do
  if ← alloc then
    let state ← get
    set (state.allocChan (newChan server uuid) ref)
    return some state.nextChan
  else
    return none

/-- `ipc_msg_queue_create`: the descriptors and the buffer are allocated. -/
def ipcMsgQueueCreate (numItems itemSz : Nat) : IpcM (Option MsgQueue) := do
  if ← alloc then
    if ← alloc then
      return some (.create numItems itemSz)
    else
      return none
  else
    return none

def chanHandleInit (chan : ChanId) : IpcM Unit := do
  modifyChan chan fun data => { data with refcnt := 1 }
  chanAddRef chan (.handle chan)

/-!
## Lists
-/

/-- `list_add_tail` to the list of channels that wait for a port -/
def listAddWaiting (chan : ChanId) : IpcM Unit := do
  modifyChan chan fun data => { data with node := some .waitingForPort }
  modify fun state => state.setWaiting (state.waitingForPortChanList ++ [chan])

/-- `list_add_tail` to the list of pending connections of a port -/
def listAddPending (chan : ChanId) : IpcM Unit := do
  modifyChan chan fun data => { data with node := some (.pending port) }
  modifyPort port fun data => { data with pendingList := data.pendingList ++ [chan] }

/-- `list_delete` of the node of a channel -/
def listDelete (chan : ChanId) : IpcM Unit := do
  let data ← getChan chan
  match data.node with
  | none => throw .nullPointer
  | some .waitingForPort =>
    modifyChan chan fun data => { data with node := none }
    modify fun state => state.setWaiting (state.waitingForPortChanList.erase chan)
  | some (.pending port) =>
    modifyChan chan fun data => { data with node := none }
    modifyPort port fun data => { data with pendingList := data.pendingList.erase chan }

/-!
## Handles
-/

/-- `handle_decref` of the handle of a port. The last one frees the port. -/
def portHandleDecref : IpcM Unit := do
  let data ← getPort port
  if data.refcnt = 1 then
    setPort port none
  else
    setPort port (some { data with refcnt := data.refcnt - 1 })

/-- `handle_incref` of the handle of a port -/
def portHandleIncref : IpcM Unit :=
  modifyPort port fun data => { data with refcnt := data.refcnt + 1 }

/-- `handle_incref` of the handle of a channel -/
def chanHandleIncref (chan : ChanId) : IpcM Unit :=
  modifyChan chan fun data => { data with refcnt := data.refcnt + 1 }

/-- `handle_decref` of the handle of a channel. The last one calls
`chan_handle_destroy`. -/
def chanHandleDecref (chan : ChanId) : IpcM Unit := do
  let data ← getChan chan
  setChan chan (some { data with refcnt := data.refcnt - 1 })
  if data.refcnt = 1 then
    chanDelRef chan (.handle chan)
  else
    return ()

/-!
## Closing channels
-/

/-- `_chan_shutdown_locked` -/
def chanShutdownState (chan : ChanId) : IpcM Unit := do
  let data ← getChan chan
  match data.state with
  | .connected | .connecting | .accepting =>
    modifyChan chan fun data => { data with state := .disconnecting }
  | .waitingForPort =>
    if data.node.isNone then
      throw (.assertion .waitingInList)
    else
      listDelete chan
      chanDelRef chan (.node chan)
      modifyChan chan fun data => { data with state := .disconnecting }
  | .invalid | .disconnecting => return ()

def chanShutdownLocked (chan : ChanId) : IpcM Unit := do
  chanShutdownState chan
  let data ← getChan chan
  match data.peer with
  | none => return ()
  | some peer =>
    chanShutdownState peer
    chanDelRef peer (.peer chan)
    modifyChan chan fun data => { data with peer := none }

def chanFinalizeEvent (chan : ChanId) (sendUnblocked ready : Bool) : IpcM Unit :=
  modifyChan chan fun data =>
    { data with aux :=
      { data.aux with
        sendUnblocked := data.aux.sendUnblocked && !sendUnblocked
        connected := data.aux.connected && !ready } }

/-!
## Connecting
-/

def checkAccess (port : Port) (uuid : Option Uuid) : Except IpcError Unit :=
  match uuid with
  | none => .error .accessDenied
  | some uuid =>
    if isNsClient uuid then
      if port.flags.allowNsConnect then .ok () else .error .accessDenied
    else
      if port.flags.allowTaConnect then .ok () else .error .accessDenied

/-- `port_find_locked` on the rest of the list -/
def portFindIn (path : Path) : List PortId → IpcM (Option PortId)
  | [] => return none
  | port :: rest => do
      let data ← getPort port
      if path = data.path then
        return some port
      else
        portFindIn path rest

def portFindLocked (path : Path) : IpcM (Option PortId) := do
  portFindIn path (← get).ipcPortList

/-- The end of `port_attach_client`, when all memory has been allocated. -/
def attachServer (client server : ChanId) : IpcM Unit := do
  modifyChan server fun data => { data with state := .accepting }
  modifyChan client fun data => { data with state := .connecting }
  chanAddRef server (.peer client)
  modifyChan client fun data => { data with peer := some server }
  chanAddRef client (.peer server)
  modifyChan server fun data => { data with peer := some client }
  chanAddRef server (.node server)
  listAddPending port server
  portHandleIncref port
  let data ← getPort port
  modify fun state => state.addAttached ⟨client, server, port, data⟩
  chanDelRef server (.tmp .server)

/-- The part of `port_attach_client` that begins with the queue of the client. -/
def attachQueues (data : Port) (client server : ChanId) :
    IpcM (Except IpcError Unit) := do
  match ← ipcMsgQueueCreate data.numRecvBufs data.recvBufSize with
  | none =>
    chanDelRef server (.tmp .server)
    return .error .noMemory
  | some clientQueue =>
    modifyChan client fun data => { data with msgQueue := some clientQueue }
    match ← ipcMsgQueueCreate data.numRecvBufs data.recvBufSize with
    | none =>
      modifyChan client fun data => { data with msgQueue := none }
      chanDelRef server (.tmp .server)
      return .error .noMemory
    | some serverQueue =>
      modifyChan server fun data => { data with msgQueue := some serverQueue }
      attachServer port client server
      return .ok ()

def portAttachClient (client : ChanId) : IpcM (Except IpcError Unit) := do
  let data ← getPort port
  if data.state ≠ .listening then
    return .error .notReady
  else
    let clientData ← getChan client
    match checkAccess data clientData.uuid with
    | .error reason => return .error reason
    | .ok _ =>
      match ← chanAlloc true data.uuid (.tmp .server) with
      | none => return .error .noMemory
      | some server => attachQueues port data client server

/-- The part of `ipc_port_connect_async` between the allocation of the client
and the release of the local reference to it. -/
def connectClient (client : ChanId) (path : Path) (waitForPort : Bool) :
    IpcM (Except IpcError ChanId) := do
  match ← portFindLocked path with
  | some port =>
    match ← portAttachClient port client with
    | .error reason => return .error reason
    | .ok _ =>
      chanHandleInit client
      return .ok client
  | none =>
    if !waitForPort then
      return .error .notFound
    else if ← alloc then
      modifyChan client fun data => { data with path := some path }
      modifyChan client fun data => { data with state := .waitingForPort }
      listAddWaiting client
      chanAddRef client (.node client)
      chanHandleInit client
      return .ok client
    else
      return .error .noMemory

/-- `ipc_port_connect_async`. A path that is not terminated within `maxPath`
bytes has at least that length here. -/
def ipcPortConnectAsync (cid : Option Uuid) (path : Path) (maxPath : Nat) (waitForPort : Bool) :
    IpcM (Except IpcError ChanId) := do
  match cid with
  | none => return .error .invalidArgs
  | some cid =>
    let len := min path.length maxPath
    if len = 0 ∨ len ≥ maxPath then
      return .error .invalidArgs
    else
      match ← chanAlloc false (some cid) (.tmp .client) with
      | none => return .error .noMemory
      | some client =>
        let result ← connectClient client path waitForPort
        chanDelRef client (.tmp .client)
        return result

/-- The part of `ipc_port_accept` between the two changes of the local
reference: the channel to return and the uuid of its client. -/
def acceptServer (server : ChanId) : IpcM (Except IpcError (ChanId × Option Uuid)) := do
  let data ← getChan server
  match data.peer with
  | none =>
    chanShutdownLocked server
    return .error .channelClosed
  | some client =>
    let clientData ← getChan client
    if data.state ≠ .accepting ∨ clientData.state ≠ .connecting then
      chanShutdownLocked server
      return .error .channelClosed
    else
      modifyChan server fun data => { data with state := .connected }
      modifyChan client fun data => { data with state := .connected }
      modifyChan client fun data => { data with aux := { data.aux with connected := true } }
      chanHandleInit server
      return .ok (server, clientData.uuid)

/-- `ipc_port_accept` on the handle of a port -/
def portAccept : IpcM (Except IpcError (ChanId × Option Uuid)) := do
  let data ← getPort port
  if data.state ≠ .listening then
    return .error .channelClosed
  else
    match data.pendingList with
    | [] => return .error .noMsg
    | server :: _ =>
      listDelete server
      chanAddRef server (.tmp .server)
      chanDelRef server (.node server)
      portHandleDecref port
      let result ← acceptServer server
      chanDelRef server (.tmp .server)
      return result

def ipcPortAccept : Option Handle → IpcM (Except IpcError (ChanId × Option Uuid))
  | none => return .error .invalidArgs
  | some (.chan _) => return .error .invalidArgs
  | some (.port port) => portAccept port

/-!
## Ports
-/

def ipcPortPathMax : Nat := 64

def ipcChanMaxBufs : Nat := 32

def ipcChanMaxBufSize : Nat := 4096

def IpcState.allocPort (state : IpcState) (data : Port) : IpcState :=
  { state with
    ports := update state.ports state.nextPort (some data)
    nextPort := state.nextPort + 1 }

def ipcPortCreate (sid : Option Uuid) (path : Path) (numRecvBufs recvBufSize : Nat)
    (flags : PortFlags) : IpcM (Except IpcError PortId) := do
  if sid.isNone then
    return .error .invalidArgs
  else if numRecvBufs = 0 ∨ numRecvBufs > ipcChanMaxBufs ∨
      recvBufSize = 0 ∨ recvBufSize > ipcChanMaxBufSize then
    return .error .invalidArgs
  else if ← alloc then
    if path.length = 0 then
      return .error .invalidArgs
    else if path.length ≥ ipcPortPathMax then
      return .error .tooBig
    else
      let state ← get
      set (state.allocPort ⟨path, sid, .invalid, flags, numRecvBufs, recvBufSize, 1, [], false⟩)
      return .ok state.nextPort
  else
    return .error .noMemory

def closeRefused (client : ChanId) : Except IpcError Unit → IpcM Unit
  | .error _ => chanShutdownLocked client
  | .ok _ => return ()

/-- The body of the loop of `ipc_port_publish` over the waiting clients. -/
def publishTo (client : ChanId) : IpcM Unit := do
  let data ← getPort port
  let clientData ← getChan client
  match clientData.path with
  | none => throw .nullPointer
  | some path =>
    if path ≠ data.path then
      return ()
    else
      modifyChan client fun data => { data with path := none }
      chanAddRef client (.tmp .client)
      listDelete client
      chanDelRef client (.node client)
      let result ← portAttachClient port client
      closeRefused client result
      chanDelRef client (.tmp .client)

/-- `ipc_port_publish`. The loop may unlink the entry it is at; it appends none. -/
def ipcPortPublish : IpcM (Except IpcError Unit) := do
  let data ← getPort port
  match ← portFindLocked data.path with
  | some _ => return .error .alreadyExists
  | none =>
    modifyPort port fun data => { data with state := .listening, node := true }
    modify fun state => state.setListed (state.ipcPortList ++ [port])
    portHandleIncref port
    (← get).waitingForPortChanList.forM (publishTo port)
    return .ok ()

/-- The first part of `port_shutdown`: the port is taken out of the list. -/
def portUnlist : IpcM Unit := do
  modifyPort port fun data => { data with state := .closing }
  let data ← getPort port
  if data.node then
    modifyPort port fun data => { data with node := false }
    modify fun state => state.setListed (state.ipcPortList.erase port)
    portHandleDecref port
  else
    return ()

/-- The body of the loop of `port_shutdown` over the pending connections. -/
def dropPending (server : ChanId) : IpcM Unit := do
  chanShutdownLocked server
  listDelete server
  chanDelRef server (.node server)
  portHandleDecref port

def portShutdown : IpcM Unit := do
  portUnlist port
  let data ← getPort port
  data.pendingList.forM (dropPending port)

end Trusty.Ipc
