import Trusty.Ipc.Channel

/-!
# Message calls

Sending, getting, reading and retiring messages through a channel handle
(`ipc_msg.c`).
-/

namespace Trusty.Ipc

def checkChannelLocked : Option Handle → Except IpcError ChanId
  | none => .error .invalidArgs
  | some (.port _) => .error .invalidArgs
  | some (.chan chan) => .ok chan

def checkChannelConnectedLocked (handle : Option Handle) : IpcM (Except IpcError ChanId) := do
  match checkChannelLocked handle with
  | .error reason => return .error reason
  | .ok chan =>
    let data ← getChan chan
    match data.state with
    | .connected => return .ok chan
    | .disconnecting => return .error .channelClosed
    | _ => return .error .notReady

def deref {α : Type} : Option α → IpcM α
  | some value => return value
  | none => throw .nullPointer

def msgWriteLocked (chan : ChanId) (msg : MsgDesc) : IpcM (Except IpcError Nat) := do
  let data ← getChan chan
  let peer ← deref data.peer
  let peerData ← getChan peer
  let mq ← deref peerData.msgQueue
  match mq.freeList.head? with
  | none =>
    modifyChan chan fun data => { data with aux := { data.aux with sendBlocked := true } }
    return .error .notEnoughBuffer
  | some id =>
    let (result, mq) := mq.writeItem id msg
    modifyChan peer fun data => { data with msgQueue := some mq }
    return result

/-- `ipc_send_msg`, and `sys_send_msg` between its two changes of the reference
count -/
def ipcSendMsg (handle : Option Handle) (msg : MsgDesc) : IpcM (Except IpcError Nat) := do
  match ← checkChannelConnectedLocked handle with
  | .error reason => return .error reason
  | .ok chan => msgWriteLocked chan msg

/-- `ipc_get_msg`, and `sys_get_msg`, for which the copy of the information to
the caller can fault -/
def ipcGetMsg (handle : Option Handle) (copied : Bool) : IpcM (Except IpcError MsgInfo) := do
  match checkChannelLocked handle with
  | .error reason => return .error reason
  | .ok chan =>
    let data ← getChan chan
    let mq ← deref data.msgQueue
    match mq.peekNextFilledLocked with
    | .error reason => return .error reason
    | .ok info =>
      if copied then
        let mq ← deref mq.getFilledLocked
        modifyChan chan fun data => { data with msgQueue := some mq }
        return .ok info
      else
        return .error .fault

/-- `ipc_read_msg` and `sys_read_msg` -/
def ipcReadMsg (handle : Option Handle) (msgId offset : Nat) (msg : MsgDesc) :
    IpcM (List (List UInt8) × Except IpcError Nat) := do
  match checkChannelLocked handle with
  | .error reason => return ([], .error reason)
  | .ok chan =>
    let data ← getChan chan
    let mq ← deref data.msgQueue
    return mq.readLocked msgId offset msg

/-- `msg_put_read_locked` tells a sender that had found no free item. -/
def unblockSender (peer : Option ChanId) : IpcM Unit := do
  match peer with
  | none => return ()
  | some peer =>
    let data ← getChan peer
    if data.aux.sendBlocked then
      modifyChan peer fun data =>
        { data with aux := { data.aux with sendBlocked := false, sendUnblocked := true } }
    else
      return ()

def msgPutReadLocked (chan : ChanId) (msgId : Nat) : IpcM (Except IpcError Unit) := do
  let data ← getChan chan
  let mq ← deref data.msgQueue
  match mq.putReadLocked msgId with
  | (.error reason, _) => return .error reason
  | (.ok _, mq) =>
    modifyChan chan fun data => { data with msgQueue := some mq }
    unblockSender data.peer
    return .ok ()

def ipcPutMsg (handle : Option Handle) (msgId : Nat) : IpcM (Except IpcError Unit) := do
  match checkChannelLocked handle with
  | .error reason => return .error reason
  | .ok chan => msgPutReadLocked chan msgId

end Trusty.Ipc
