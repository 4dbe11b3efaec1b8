import Trusty.Lib.Pipe
import Trusty.Ipc.IovecProperties
import Trusty.Ipc.Message

/-!
# Runs of the kernel

Clients and servers call the kernel in any order, with any outcome of allocations.
Beside the state of the kernel a run has what its callers know: their references,
what they have asked for, and what has gone through each channel.
-/

namespace Trusty.Ipc

open Function (update)

/-- The calls that take `ipc_lock`, and those that change the reference count of
a handle. Closing a handle is a shutdown and then a decrement. -/
inductive Event where
  | portCreate (sid : Option Uuid) (path : Path) (numRecvBufs recvBufSize : Nat)
      (flags : PortFlags)
  | portPublish (port : PortId)
  | portShutdown (port : PortId)
  | portIncref (port : PortId)
  | portDecref (port : PortId)
  | connect (cid : Option Uuid) (path : Path) (maxPath : Nat) (waitForPort : Bool)
  | accept (handle : Option Handle)
  | chanShutdown (chan : ChanId)
  | chanIncref (chan : ChanId)
  | chanDecref (chan : ChanId)
  | finalizeEvent (chan : ChanId) (sendUnblocked ready : Bool)
  | send (handle : Option Handle) (msg : MsgDesc)
  | get (handle : Option Handle) (copied : Bool)
  | read (handle : Option Handle) (msgId offset : Nat) (msg : MsgDesc)
  | put (handle : Option Handle) (msgId : Nat)

inductive Answer where
  | done
  | port (result : Except IpcError PortId)
  | published (result : Except IpcError Unit)
  | chan (result : Except IpcError ChanId)
  | accepted (result : Except IpcError (ChanId × Option Uuid))
  | sent (result : Except IpcError Nat)
  | got (result : Except IpcError MsgInfo)
  | read (written : List (List UInt8)) (result : Except IpcError Nat)
  | put (result : Except IpcError Unit)

def Event.run : Event → IpcM Answer
  | .portCreate sid path numRecvBufs recvBufSize flags =>
    .port <$> ipcPortCreate sid path numRecvBufs recvBufSize flags
  | .portPublish port => .published <$> ipcPortPublish port
  | .portShutdown port => (fun _ => .done) <$> Ipc.portShutdown port
  | .portIncref port => (fun _ => .done) <$> portHandleIncref port
  | .portDecref port => (fun _ => .done) <$> portHandleDecref port
  | .connect cid path maxPath waitForPort =>
    .chan <$> ipcPortConnectAsync cid path maxPath waitForPort
  | .accept handle => .accepted <$> ipcPortAccept handle
  | .chanShutdown chan => (fun _ => .done) <$> chanShutdownLocked chan
  | .chanIncref chan => (fun _ => .done) <$> chanHandleIncref chan
  | .chanDecref chan => (fun _ => .done) <$> chanHandleDecref chan
  | .finalizeEvent chan sendUnblocked ready =>
    (fun _ => .done) <$> chanFinalizeEvent chan sendUnblocked ready
  | .send handle msg => .sent <$> ipcSendMsg handle msg
  | .get handle copied => .got <$> ipcGetMsg handle copied
  | .read handle msgId offset msg =>
    (fun out => .read out.1 out.2) <$> ipcReadMsg handle msgId offset msg
  | .put handle msgId => .put <$> ipcPutMsg handle msgId

/-- The kernel and its callers. They hold `held` references to the handle of a
channel, and have shut it down if it is in `shut`. A channel was `asked` for by
a client with a uuid and a path. -/
structure World where
  kernel : IpcState
  held : ChanId → Nat
  shut : ChanId → Bool
  portHeld : PortId → Nat
  asked : ChanId → Option (Uuid × Path)
  pipe : ChanId → Pipe (List UInt8)

namespace World

def boot : World where
  kernel := ⟨fun _ => none, 0, fun _ => none, 0, [], [], [], [], []⟩
  held := fun _ => 0
  shut := fun _ => false
  portHeld := fun _ => 0
  asked := fun _ => none
  pipe := fun _ => .empty

def Holds (world : World) : Option Handle → Prop
  | none => True
  | some (.port port) => 0 < world.portHeld port
  | some (.chan chan) => 0 < world.held chan

/-- Callers use handles only while they hold a reference, and drop the last
reference to a channel by closing it. -/
def Allows (world : World) : Event → Prop
  | .portCreate .. => True
  | .portPublish port => 0 < world.portHeld port
  | .portShutdown port => 0 < world.portHeld port
  | .portIncref port => 0 < world.portHeld port
  | .portDecref port => 0 < world.portHeld port
  | .connect .. => True
  | .accept handle => world.Holds handle
  | .chanShutdown chan => 0 < world.held chan
  | .chanIncref chan => 0 < world.held chan
  | .chanDecref chan => 0 < world.held chan ∧ (world.held chan = 1 → world.shut chan = true)
  | .finalizeEvent chan _ _ => 0 < world.held chan
  | .send handle _ => world.Holds handle
  | .get handle _ => world.Holds handle
  | .read handle _ _ _ => world.Holds handle
  | .put handle _ => world.Holds handle

instance (world : World) (handle : Option Handle) : Decidable (world.Holds handle) := by
  cases handle with
  | none => exact .isTrue trivial
  | some handle =>
  cases handle with
  | port port => exact inferInstanceAs (Decidable (0 < world.portHeld port))
  | chan chan => exact inferInstanceAs (Decidable (0 < world.held chan))

instance (world : World) (event : Event) : Decidable (world.Allows event) := by
  cases event <;> unfold Allows <;> infer_instance

/-- The messages of the channel that a message sent through `handle` goes to. -/
def receive (world : World) (handle : Option Handle) (msg : MsgDesc) :
    ChanId → Pipe (List UInt8) :=
  match handle with
  | some (.chan chan) =>
    match (world.kernel.chans chan).bind fun data => data.peer with
    | none => world.pipe
    | some peer =>
      let itemSz := ((world.kernel.chans peer).bind fun data => data.msgQueue).elim 0
        fun mq => mq.itemSz
      update world.pipe peer
        ((world.pipe peer).send (msg.contents.take itemSz).reduceOption)
  | _ => world.pipe

/-- The messages of the channel of `handle` after a change. -/
def onPipe (world : World) (handle : Option Handle)
    (change : Pipe (List UInt8) → Pipe (List UInt8)) : ChanId → Pipe (List UInt8) :=
  match handle with
  | some (.chan chan) => update world.pipe chan (change (world.pipe chan))
  | _ => world.pipe

def record (world : World) (event : Event) (answer : Answer) (kernel : IpcState) : World :=
  let next := { world with kernel := kernel }
  match event, answer with
  | .portCreate .., .port (.ok port) =>
    { next with portHeld := update world.portHeld port 1 }
  | .portIncref port, _ =>
    { next with portHeld := update world.portHeld port (world.portHeld port + 1) }
  | .portDecref port, _ =>
    { next with portHeld := update world.portHeld port (world.portHeld port - 1) }
  | .connect (some cid) path _ _, .chan (.ok chan) =>
    { next with
      held := update world.held chan 1
      asked := update world.asked chan (some (cid, path)) }
  | .accept _, .accepted (.ok (chan, _)) =>
    { next with held := update world.held chan 1 }
  | .chanShutdown chan, _ => { next with shut := update world.shut chan true }
  | .chanIncref chan, _ =>
    { next with held := update world.held chan (world.held chan + 1) }
  | .chanDecref chan, _ =>
    { next with held := update world.held chan (world.held chan - 1) }
  | .send handle msg, .sent (.ok _) => { next with pipe := world.receive handle msg }
  | .get handle _, .got (.ok info) =>
    { next with pipe := world.onPipe handle fun pipe => pipe.get info.id }
  | .put handle msgId, .put (.ok _) =>
    { next with pipe := world.onPipe handle fun pipe => pipe.put msgId }
  | _, _ => next

/-- A call in which the allocations succeed or fail as `memory` says. -/
def call (world : World) (event : Event) (memory : List Bool) :
    EStateM.Result Stop IpcState Answer :=
  event.run { world.kernel with memory := memory }

/-- The worlds between the calls of a run. The kernel does not go on after a
call that stops it. -/
inductive Reached : World → Prop where
  | boot : Reached .boot
  | call {world : World} (reached : Reached world) (event : Event) (memory : List Bool)
      (allowed : world.Allows event) {answer : Answer} {kernel : IpcState}
      (returned : world.call event memory = .ok answer kernel) :
      Reached (world.record event answer kernel)

inductive Leads (world : World) : World → Prop where
  | refl : Leads world world
  | call {middle : World} (leads : Leads world middle) (event : Event) (memory : List Bool)
      (allowed : middle.Allows event) {answer : Answer} {kernel : IpcState}
      (returned : middle.call event memory = .ok answer kernel) :
      Leads world (middle.record event answer kernel)

theorem Leads.reached {world later : World} (leads : Leads world later) (reached : Reached world) : Reached later := by
  induction leads with
  | refl => exact reached
  | call _ event memory allowed returned ih =>
  exact ih.call event memory allowed returned

/-- The world behind the last call of a run, if all of them are allowed and
return. -/
def exec : List (Event × List Bool) → World → Option World
  | [], world => some world
  | (event, memory) :: rest, world =>
    if world.Allows event then
      match world.call event memory with
      | .ok answer kernel => exec rest (world.record event answer kernel)
      | .error _ _ => none
    else
      none

theorem Reached.exec {world final : World} {calls : List (Event × List Bool)}
    (reached : Reached world) (executed : exec calls world = some final) : Reached final := by
  induction calls generalizing world with
  | nil =>
    cases executed
    exact reached
  | cons first rest ih =>
  obtain ⟨event, memory⟩ := first
  simp only [World.exec] at executed
  split at executed
  · rename_i allowed
    split at executed
    · rename_i answer kernel returned
      exact ih (reached.call event memory allowed returned) executed
    · cases executed
  · cases executed

theorem exists_reached (calls : List (Event × List Bool)) (check : World → Bool)
    (passes : (World.exec calls .boot).any check = true) : ∃ world, Reached world ∧ check world = true := by
  cases executed : World.exec calls .boot with
  | none => simp [executed] at passes
  | some world =>
  rw [executed] at passes
  exact ⟨world, Reached.boot.exec executed, passes⟩

def stops (world : World) (event : Event) (memory : List Bool) (reason : Stop) : Bool :=
  match world.call event memory with
  | .ok _ _ => false
  | .error actual _ => actual = reason

theorem exists_stopped (calls : List (Event × List Bool)) (event : Event) (memory : List Bool) (reason : Stop)
    (passes : (World.exec calls .boot).any (fun world =>
      decide (world.Allows event) && world.stops event memory reason) = true) :
    ∃ world, Reached world ∧ world.Allows event ∧ ∃ kernel, world.call event memory = .error reason kernel := by
  obtain ⟨world, reached, check⟩ := exists_reached calls _ passes
  rw [Bool.and_eq_true, decide_eq_true_eq] at check
  refine ⟨world, reached, check.1, ?_⟩
  have stopped := check.2
  unfold stops at stopped
  cases result : world.call event memory with
  | ok answer kernel => simp [result] at stopped
  | error actual kernel =>
  rw [result] at stopped
  exact ⟨kernel, by rw [of_decide_eq_true stopped]⟩

end World

end Trusty.Ipc
