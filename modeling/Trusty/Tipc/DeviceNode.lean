import Trusty.Tipc.SendData
import Trusty.Tipc.Session

/-!
# Device nodes of the Linux driver

`tipc_read_iter` hands the messages of a node to its readers, and `_go_offline`
shuts down the channels of all nodes.
-/

namespace Trusty.Tipc

/-- `struct tipc_msg_buf`. Its functions are in a header that is not part of the tree. -/
structure MsgBuf where
  data : List UInt8
  rpos : Nat
  wpos : Nat
  deriving DecidableEq, Repr

def MsgBuf.availData (mb : MsgBuf) : Nat := mb.wpos - mb.rpos

def MsgBuf.getData (mb : MsgBuf) (len : Nat) : List UInt8 × MsgBuf :=
  ((mb.data.drop mb.rpos).take len, { mb with rpos := mb.rpos + len })

structure DnChan where
  state : ChanState
  rxMsgQueue : List MsgBuf
  deriving DecidableEq, Repr

/-- `dn_handle_msg`. Without a new buffer in its place the message is discarded. -/
def DnChan.handleMsg (dn : DnChan) (rxbuf : MsgBuf) (newbuf : Bool) : Option DnChan :=
  if dn.state = .connected ∧ newbuf then
    some { dn with rxMsgQueue := dn.rxMsgQueue ++ [rxbuf] }
  else none

/-- The channel of a session is the node without the buffers. -/
structure LinuxChan.Shows (chan : LinuxChan) (dn : DnChan) : Prop where
  state : dn.state = chan.dnState
  queue : dn.rxMsgQueue.map (fun mb => (mb.getData mb.availData).1) = chan.rxMsgQueue

theorem LinuxChan.Shows.handleMsg {chan : LinuxChan} {dn : DnChan} (shows : chan.Shows dn) (rxbuf : MsgBuf) :
    (chan.handleMsg (rxbuf.getData rxbuf.availData).1).Shows ((dn.handleMsg rxbuf true).getD dn) := by
  obtain ⟨state, queue⟩ := shows
  unfold LinuxChan.handleMsg DnChan.handleMsg
  by_cases connected : chan.dnState = .connected
  · rw [if_pos connected, if_pos ⟨state.trans connected, rfl⟩]
    exact ⟨state, by simp [queue]⟩
  · rw [if_neg connected, if_neg fun both => connected (state.symm.trans both.1)]
    exact ⟨state, queue⟩

inductive ReadError where
  | enotconn | eshutdown | eagain | erestartsys | emsgsize | efault
  deriving DecidableEq, Repr

/-- `tipc_read_iter` for an iterator of `room` bytes, of which the first `writable` can be written.
A call that waits is one that comes later, or is interrupted. -/
def DnChan.readIter (dn : DnChan) (room writable : Nat) (nonblock : Bool) :
    Except ReadError (Nat × List UInt8) × DnChan :=
  match dn.rxMsgQueue with
  | [] =>
    match dn.state with
    | .connecting | .disconnected => (.error .enotconn, dn)
    | .stale => (.error .eshutdown, dn)
    | .connected => (.error (if nonblock then .eagain else .erestartsys), dn)
  | mb :: rest =>
    let len := mb.availData
    if len > room then (.error .emsgsize, dn)
    else
      -- The read position goes on whether the bytes can be copied or not.
      let (data, mb) := mb.getData len
      if min writable len ≠ len then (.error .efault, { dn with rxMsgQueue := mb :: rest })
      else (.ok (len, data), { dn with rxMsgQueue := rest })

inductive NodeStep where
  /-- `_handle_rxbuf` gets a buffer with the header `msg`. -/
  | receive (msg : TipcHdr) (bytes : List UInt8) (rxlen : Nat) (newbuf : Bool)
  | read (room writable : Nat) (nonblock : Bool)
  | change (state : ChanState)

/-- A message that fits into the room can be written to it. -/
def DnChan.Writable (dn : DnChan) (room writable : Nat) : Prop :=
  ∀ mb ∈ dn.rxMsgQueue.head?, mb.availData ≤ room → mb.availData ≤ writable

def NodeStep.Writable (dn : DnChan) : NodeStep → Prop
  | .read room writable _ => dn.Writable room writable
  | _ => True

/-- A node with the messages that were queued and what the successful reads returned. -/
structure NodeRun where
  dn : DnChan
  queued : List (List UInt8)
  returned : List (Nat × List UInt8)
  deriving DecidableEq, Repr

def NodeRun.step (run : NodeRun) : NodeStep → NodeRun
  | .receive msg bytes rxlen newbuf =>
    if handleRxbuf bytes.length rxlen msg then
      match run.dn.handleMsg ⟨bytes, sizeofTipcHdr, rxlen⟩ newbuf with
      | some dn => { run with dn, queued := run.queued ++ [(bytes.take rxlen).drop sizeofTipcHdr] }
      | none => run
    else run
  | .read room writable nonblock =>
    match run.dn.readIter room writable nonblock with
    | (.ok result, dn) => { run with dn, returned := run.returned ++ [result] }
    | (.error _, dn) => { run with dn }
  | .change state => { run with dn := { run.dn with state } }

def NodeRun.start : NodeRun := ⟨⟨.disconnected, []⟩, [], []⟩

def MsgBuf.content (mb : MsgBuf) : Nat × List UInt8 :=
  (mb.availData, (mb.getData mb.availData).1)

def NodeRun.Whole (run : NodeRun) : Prop :=
  run.queued.map (fun message => (message.length, message)) =
    run.returned ++ run.dn.rxMsgQueue.map MsgBuf.content

theorem content_of_rxbuf {msg : TipcHdr} {bytes : List UInt8} {rxlen : Nat}
    (fits : handleRxbuf bytes.length rxlen msg) :
    MsgBuf.content ⟨bytes, sizeofTipcHdr, rxlen⟩ =
      (((bytes.take rxlen).drop sizeofTipcHdr).length, (bytes.take rxlen).drop sizeofTipcHdr) := by
  have inside : rxlen - sizeofTipcHdr ≤ bytes.length - sizeofTipcHdr := by
    simp only [handleRxbuf, Bool.and_eq_true, Bool.not_eq_true', decide_eq_false_iff_not] at fits
    omega
  simp only [MsgBuf.content, MsgBuf.availData, MsgBuf.getData, List.length_drop, List.length_take,
    min_eq_left inside, List.drop_take]

theorem readIter_cases {dn : DnChan} {room writable : Nat} (all : dn.Writable room writable) (nonblock : Bool) :
    (∃ error, dn.readIter room writable nonblock = (.error error, dn)) ∨ ∃ mb rest, dn.rxMsgQueue = mb :: rest ∧
        dn.readIter room writable nonblock = (.ok mb.content, { dn with rxMsgQueue := rest }) := by
  unfold DnChan.readIter
  split
  · left
    split <;> exact ⟨_, rfl⟩
  rename_i mb rest queue
  dsimp only
  split
  · exact .inl ⟨_, rfl⟩
  · rename_i small
    have fits := all mb (by rw [queue]; rfl) (by omega)
    rw [if_neg (not_not_intro (min_eq_right fits))]
    exact .inr ⟨mb, rest, queue, rfl⟩

theorem NodeRun.Whole.step {run : NodeRun} (whole : run.Whole) {action : NodeStep}
    (writable : action.Writable run.dn) : (run.step action).Whole := by
  cases action with
  | change state => exact whole
  | receive msg bytes rxlen newbuf =>
    dsimp only [NodeRun.step, DnChan.handleMsg]
    split
    · rename_i fits
      by_cases takes : run.dn.state = .connected ∧ newbuf = true
      · rw [if_pos takes]
        unfold NodeRun.Whole at whole ⊢
        simp [whole, content_of_rxbuf fits]
      · rw [if_neg takes]
        exact whole
    · exact whole
  | read room writable nonblock =>
  dsimp only [NodeRun.step]
  rcases readIter_cases writable nonblock with ⟨_, failed⟩ | ⟨mb, rest, queue, read⟩
  · simpa only [failed] using whole
  · unfold NodeRun.Whole at whole ⊢
    rw [queue] at whole
    simpa [read] using whole

def NodeRun.AllWritable : NodeRun → List NodeStep → Prop
  | _, [] => True
  | run, action :: rest => action.Writable run.dn ∧ (run.step action).AllWritable rest

theorem NodeRun.Whole.run {run : NodeRun} (whole : run.Whole) {actions : List NodeStep}
    (writable : run.AllWritable actions) : (actions.foldl NodeRun.step run).Whole := by
  induction actions generalizing run with
  | nil => exact whole
  | cons action rest ih => exact ih (whole.step writable.1) writable.2

/-- Without faults the messages are read whole and in order, and a read that fails leaves the
queue as it is. -/
theorem reads_deliver_queued (actions : List NodeStep) (writable : NodeRun.start.AllWritable actions) :
    (actions.foldl NodeRun.step .start).returned <+:
      (actions.foldl NodeRun.step .start).queued.map (fun message => (message.length, message)) ∧
    ∀ (dn : DnChan) room writable nonblock error after, dn.Writable room writable →
      dn.readIter room writable nonblock = (.error error, after) → after = dn := by
  have whole : (actions.foldl NodeRun.step .start).Whole := @NodeRun.Whole.run .start rfl _ writable
  refine ⟨⟨_, whole.symm⟩, ?_⟩
  intro dn room writable nonblock error after fits failed
  rcases readIter_cases fits nonblock with ⟨_, same⟩ | ⟨_, _, _, read⟩
  · exact congrArg Prod.snd (failed.symm.trans same)
  · nomatch congrArg Prod.fst (failed.symm.trans read)

def oneByteSteps (reads : List NodeStep) : List NodeStep :=
  .change .connected :: .receive ⟨1, 2, 0, 1, 0⟩ (.replicate 16 0 ++ [7]) 17 true :: reads

def oneByte (reads : List NodeStep) : NodeRun := (oneByteSteps reads).foldl NodeRun.step .start

theorem one_byte_read : oneByte [.read 1 1 false] = ⟨⟨.connected, []⟩, [[7]], [(1, [7])]⟩ ∧
    (oneByte [.read 1 1 false]).returned <+: [(1, [7])] :=
  ⟨by decide, (reads_deliver_queued (oneByteSteps [.read 1 1 false]) ⟨trivial, trivial, fun _ _ => id, trivial⟩).1⟩

/-- After a fault the message is gone, and the next read returns an empty one. -/
theorem one_byte_lost : oneByte [.read 1 0 false, .read 1 1 false] =
      ⟨⟨.connected, []⟩, [[7]], [(0, [])]⟩ ∧ ¬[(0, [])] <+: [(1, [(7 : UInt8)])] := by
  decide

/-!
## Going offline
-/

inductive VdsState where
  | offline | online | dead
  deriving DecidableEq, Repr

/-- A channel of `addr_idr`, and how often it has got `TIPC_CHANNEL_SHUTDOWN`. -/
structure Registered where
  chan : LinuxChan
  shutdowns : Nat
  deriving DecidableEq, Repr

/-- `struct tipc_virtio_dev`, with the channels in the order of their addresses. -/
structure Vds where
  state : VdsState
  addrIdr : List Registered
  deriving DecidableEq, Repr

/-- The body of the loop of `_go_offline`. The event is handled by `dn_shutdown`. -/
def Registered.shutDown (entry : Registered) : Registered :=
  ⟨{ entry.chan with state := .stale, remote := 0, dnState := .stale }, entry.shutdowns + 1⟩

/-- At most `rounds` rounds of the loop, each for the first channel of `idr_for_each`, and whether
it has ended. -/
def shutdownRounds : Nat → List Registered → List Registered × Bool
  | 0, chans => (chans, false)
  | _ + 1, [] => ([], true)
  | rounds + 1, first :: rest => shutdownRounds rounds (first.shutDown :: rest)

def Vds.goOffline (vds : Vds) (rounds : Nat) : Vds × Bool :=
  if vds.state ≠ .online then (vds, true)
  else
    let result := shutdownRounds rounds vds.addrIdr
    (⟨.offline, result.1⟩, result.2)

theorem shutdownRounds_cons (rounds : Nat) (first : Registered) (rest : List Registered) :
    shutdownRounds rounds (first :: rest) = (Registered.shutDown^[rounds] first :: rest, false) := by
  induction rounds generalizing first with
  | zero => rfl
  | succ rounds ih => exact ih first.shutDown

/-- The loop ends only if no channel is registered. It never comes to the second channel. -/
theorem goOffline_ends_iff (vds : Vds) (online : vds.state = .online) :
    ((∃ rounds, (vds.goOffline rounds).2 = true ∧ ∀ entry ∈ (vds.goOffline rounds).1.addrIdr,
        entry.chan.state = .stale ∧ entry.chan.remote = 0 ∧ 0 < entry.shutdowns) ↔
      vds.addrIdr = []) ∧
    ∀ rounds, (vds.goOffline rounds).1.addrIdr.tail = vds.addrIdr.tail := by
  simp only [Vds.goOffline, online, ne_eq, not_true, if_false]
  cases vds.addrIdr with
  | nil =>
    refine ⟨⟨fun _ => rfl, fun _ => ⟨1, rfl, nofun⟩⟩, fun rounds => ?_⟩
    cases rounds with
    | zero | succ => rfl
  | cons first rest => simp [shutdownRounds_cons]

theorem unused_goes_offline : ∃ rounds, ((Vds.mk .online []).goOffline rounds).2 = true :=
  ((goOffline_ends_iff ⟨.online, []⟩ rfl).1.mpr rfl).imp fun _ ended => ended.1

theorem one_channel_stays : ¬∃ rounds,
    ((Vds.mk .online [⟨.created tipcMinLocalAddr, 0⟩]).goOffline rounds).2 = true := by
  rintro ⟨rounds, ended⟩
  nomatch (congrArg Prod.snd (shutdownRounds_cons rounds _ [])).symm.trans ended

end Trusty.Tipc
