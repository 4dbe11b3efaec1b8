import Trusty.Ipc.WorldInvariant

/-!
# Message calls in a run

Sending, getting, reading and retiring messages keeps the invariant of a run.
Only a channel that has never been attached to a port has no queue.
-/

namespace Trusty.Ipc

open StateLogic Option

namespace World

variable {world : World}

def Goes (world : World) (event : Event) (answer : Answer) (kernel : IpcState) : Prop :=
  (world.record event answer kernel).Ok ∧ Evolves world.kernel kernel

theorem Ok.stays (ok : world.Ok) : world.Ok ∧ Evolves world.kernel world.kernel := ⟨ok, .refl _⟩

theorem Ok.peer_connected (ok : world.Ok) {chan : ChanId} {data : Chan} (found : world.kernel.chans chan = some data)
    (connected : data.state = .connected) :
    ∃ peer peerData, data.peer = some peer ∧ world.kernel.chans peer = some peerData ∧
      data.msgQueue.isSome ∧ peerData.state = .connected ∧ peerData.peer = some chan ∧
      peerData.server = !data.server ∧ peerData.msgQueue.isSome := by
  have shape := ok.resting.chans.shaped chan data found
  simp only [Chan.Shaped, connected] at shape
  obtain ⟨peer, samePeer⟩ := isSome_iff_exists.mp shape.1
  obtain ⟨peerData, peerFound, matched⟩ := ok.resting.chans.matched chan data peer found samePeer
  simp only [Chan.Matches, connected] at matched
  obtain ⟨peerConnected, back, opposite⟩ := matched
  have peerShape := ok.resting.chans.shaped peer peerData peerFound
  simp only [Chan.Shaped, peerConnected] at peerShape
  exact ⟨peer, peerData, samePeer, peerFound, shape.2.2.2, peerConnected, back, opposite, peerShape.2.2.2⟩

theorem wp_deref {α : Type} {post : α → IpcState → Prop} {stop : Stop → IpcState → Prop}
    {state : IpcState} {pointer : Option α} {value : α} (valid : pointer = some value) :
    wp (deref pointer) post stop state ↔ post value state := by
  rw [valid]
  rfl

/-- What `ipc_send_msg` says about the message: as much of it as the receiver
has room for was sent. -/
def SendTells (world : World) (chan : ChanId) (msg : MsgDesc) : Except IpcError Nat → Prop
  | .ok len => ∃ data peer peerData mq bytes, world.kernel.chans chan = some data ∧
      data.state = .connected ∧ data.peer = some peer ∧
      world.kernel.chans peer = some peerData ∧ peerData.msgQueue = some mq ∧
      msg.contents.take mq.itemSz = bytes.map some ∧ len = bytes.length ∧
      world.receive (some (.chan chan)) msg =
        Function.update world.pipe peer ((world.pipe peer).send bytes)
  | .error _ => True

theorem msgWrite_goes (ok : world.Ok) {chan : ChanId} {data : Chan} (found : world.kernel.chans chan = some data)
    (connected : data.state = .connected) (msg : MsgDesc) :
    wp (msgWriteLocked chan msg)
      (fun result kernel => world.Goes (.send (some (.chan chan)) msg) (.sent result) kernel ∧
        world.SendTells chan msg result)
      (fun _ _ => False) world.kernel := by
  obtain ⟨peer, peerData, samePeer, peerFound, -, -, -, -, made⟩ := ok.peer_connected found connected
  obtain ⟨mq, queue⟩ := isSome_iff_exists.mp made
  rw [msgWriteLocked, wp_bind, wp_getChan found, wp_bind, wp_deref samePeer, wp_bind,
    wp_getChan peerFound, wp_bind, wp_deref queue]
  cases free : mq.freeList.head? with
  | none =>
    rw [wp_bind, wp_modifyChan found]
    exact ⟨⟨ok.touchFlags found _, .setChan found rfl⟩, trivial⟩
  | some id =>
  rw [wp_bind, wp_modifyChan peerFound]
  have refines := ok.traced.pipes peer peerData mq peerFound queue
  obtain ⟨numItems, itemSz, written⟩ := refines.writeItem (List.mem_of_mem_head? free) msg
  cases result : mq.writeItem id msg with
  | mk outcome next =>
  rw [result] at numItems itemSz written
  cases outcome with
  | error reason =>
    have touched := ok.touchQueue peerFound queue numItems itemSz written
    rw [Function.update_eq_self] at touched
    exact ⟨⟨touched, .setChan peerFound rfl⟩, trivial⟩
  | ok len =>
  obtain ⟨bytes, contents, length, sent⟩ := written
  have received : world.receive (some (.chan chan)) msg =
      Function.update world.pipe peer ((world.pipe peer).send bytes) := by
    simp [receive, found, samePeer, peerFound, queue, contents, List.reduceOption]
  have touched := ok.touchQueue peerFound queue numItems itemSz sent
  rw [← received] at touched
  exact ⟨⟨touched, .setChan peerFound rfl⟩, data, peer, peerData, mq, bytes, found,
    connected, samePeer, peerFound, queue, contents, length, received⟩

theorem send_goes (ok : world.Ok) {handle : Option Handle} (holds : world.Holds handle) (msg : MsgDesc) :
    wp (ipcSendMsg handle msg) (fun result kernel =>
        world.Goes (.send handle msg) (.sent result) kernel ∧
          ∀ chan, handle = some (.chan chan) → world.SendTells chan msg result)
      (fun _ _ => False) world.kernel := by
  rw [ipcSendMsg, wp_bind, checkChannelConnectedLocked]
  cases handle with
  | none => exact ⟨ok.stays, nofun⟩
  | some handle =>
  cases handle with
  | port port => exact ⟨ok.stays, nofun⟩
  | chan chan =>
  obtain ⟨data, found, _⟩ := ok.alive holds
  dsimp only [checkChannelLocked]
  rw [wp_bind, wp_getChan found]
  cases state : data.state with
  | connected =>
    apply wp_mono (msgWrite_goes ok found state msg) _ fun _ _ stops => stops
    rintro result kernel ⟨goes, tells⟩
    refine ⟨goes, ?_⟩
    rintro _ ⟨⟩
    exact tells
  | _ => exact ⟨ok.stays, fun _ _ => trivial⟩

/-- What `ipc_get_msg` says about the messages of the channel. -/
def GetTells (pipe : Pipe (List UInt8)) (copied : Bool) : Except IpcError MsgInfo → Prop
  | .ok info => ∃ message, pipe.next = some message ∧ info.len = message.length ∧
      pipe.reading info.id = none
  | .error _ => copied = true → pipe.next = none

/-- What `ipc_read_msg` says about the messages of the channel. -/
def ReadTells (pipe : Pipe (List UInt8)) (msgId offset : Nat) (msg : MsgDesc)
    (written : List (List UInt8)) : Except IpcError Nat → Prop
  | .ok total => ∃ message, pipe.message msgId = some message ∧ offset ≤ message.length ∧
      written.flatten = (message.drop offset).take msg.contents.length ∧
      total = ((message.drop offset).take msg.contents.length).length
  | .error _ => msg.numHandles = 0 → none ∉ msg.contents →
      ∀ message, pipe.message msgId = some message → message.length < offset

/-- What `ipc_put_msg` says about the messages of the channel. -/
def PutTells (pipe : Pipe (List UInt8)) (msgId : Nat) : Except IpcError Unit → Prop
  | .ok _ => (pipe.message msgId).isSome
  | .error _ => pipe.message msgId = none

section Receive

variable {chan : ChanId} {data : Chan}

section

variable (ok : world.Ok) (found : world.kernel.chans chan = some data)
include ok found

theorem get_goes (copied : Bool) :
    wp (ipcGetMsg (some (.chan chan)) copied) (fun result kernel => data.msgQueue.isSome ∧
        world.Goes (.get (some (.chan chan)) copied) (.got result) kernel ∧
        GetTells (world.pipe chan) copied result)
      (fun reason _ => data.msgQueue = none ∧ reason = .nullPointer) world.kernel := by
  rw [ipcGetMsg, checkChannelLocked]
  rw [wp_bind, wp_getChan found, wp_bind]
  cases queue : data.msgQueue with
  | none => exact ⟨rfl, rfl⟩
  | some mq =>
  have refines := ok.traced.pipes chan data mq found queue
  have next := refines.next
  rw [wp_deref rfl, MsgQueue.peekNextFilledLocked]
  cases head : mq.filledList.head? with
  | none =>
    rw [head] at next
    exact ⟨rfl, ok.stays, fun _ => next⟩
  | some id =>
  rw [head] at next
  cases copied with
  | false => exact ⟨rfl, ok.stays, nofun⟩
  | true =>
  obtain ⟨got, taken, numItems, itemSz, refined, unused⟩ := refines.getFilled head
  dsimp only
  rw [if_pos rfl, wp_bind, wp_deref taken, wp_bind, wp_modifyChan found]
  refine ⟨rfl, ⟨ok.touchQueue found queue numItems itemSz refined, .setChan found rfl⟩, mq.content id, next, ?_, unused⟩
  rw [MsgQueue.content, Buffer.length_load]

theorem read_goes (msgId offset : Nat) (msg : MsgDesc) : wp (ipcReadMsg (some (.chan chan)) msgId offset msg)
      (fun result kernel => data.msgQueue.isSome ∧ kernel = world.kernel ∧
        ReadTells (world.pipe chan) msgId offset msg result.1 result.2)
      (fun reason _ => data.msgQueue = none ∧ reason = .nullPointer) world.kernel := by
  rw [ipcReadMsg, checkChannelLocked]
  rw [wp_bind, wp_getChan found, wp_bind]
  cases queue : data.msgQueue with
  | none => exact ⟨rfl, rfl⟩
  | some mq =>
  have refines := ok.traced.pipes chan data mq found queue
  refine ⟨rfl, rfl, ?_⟩
  cases result : (mq.readLocked msgId offset msg).2 with
  | ok total => exact refines.read result
  | error reason =>
  intro plain valid message known
  apply Nat.lt_of_not_le
  intro within
  obtain ⟨total, done⟩ := refines.read_ok known within plain valid
  rw [result] at done
  cases done

end

theorem unblockSender_ok {peer : Option ChanId} (ok : world.Ok)
    (alive : ∀ chan, peer = some chan → (world.kernel.chans chan).isSome) :
    wp (unblockSender peer) (fun _ kernel => Ok { world with kernel := kernel } ∧ Evolves world.kernel kernel)
      (fun _ _ => False) world.kernel := by
  cases peer with
  | none => exact ok.stays
  | some peer =>
  obtain ⟨data, found⟩ := isSome_iff_exists.mp (alive peer rfl)
  rw [unblockSender]
  rw [wp_bind, wp_getChan found]
  split
  · rw [wp_modifyChan found]
    exact ⟨ok.touchFlags found _, .setChan found rfl⟩
  · exact ok.stays

theorem put_goes (ok : world.Ok) (found : world.kernel.chans chan = some data) (msgId : Nat) :
    wp (ipcPutMsg (some (.chan chan)) msgId) (fun result kernel => data.msgQueue.isSome ∧
        world.Goes (.put (some (.chan chan)) msgId) (.put result) kernel ∧
        PutTells (world.pipe chan) msgId result)
      (fun reason _ => data.msgQueue = none ∧ reason = .nullPointer) world.kernel := by
  rw [ipcPutMsg, checkChannelLocked]
  dsimp only
  rw [msgPutReadLocked, wp_bind, wp_getChan found, wp_bind]
  cases queue : data.msgQueue with
  | none => exact ⟨rfl, rfl⟩
  | some mq =>
  have refines := ok.traced.pipes chan data mq found queue
  obtain ⟨numItems, itemSz, retired⟩ := refines.putRead msgId
  rw [wp_deref rfl]
  cases result : mq.putReadLocked msgId with
  | mk outcome next =>
  rw [result] at numItems itemSz retired
  cases outcome with
  | error reason =>
    exact ⟨rfl, ok.stays, retired.2⟩
  | ok _ =>
  have touched := ok.touchQueue found queue numItems itemSz retired.2
  dsimp only
  rw [wp_bind, wp_modifyChan found, wp_bind]
  have alive : ∀ peer, data.peer = some peer → ((world.kernel.setChan chan
      (some { data with msgQueue := some next })).chans peer).isSome := by
    intro peer connected
    obtain ⟨peerData, peerFound, _⟩ := ok.resting.chans.matched chan data peer found connected
    rw [IpcState.setChan_chans]
    split
    · rfl
    · rw [peerFound]
      rfl
  apply wp_mono (unblockSender_ok touched alive) _ fun _ _ stops => stops.elim
  intro _ kernel unblocked
  refine ⟨rfl, ⟨unblocked.1, Evolves.trans ?_ unblocked.2⟩, retired.1⟩
  exact .setChan found rfl

end Receive

end World

end Trusty.Ipc
