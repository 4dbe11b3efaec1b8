import Trusty.Ipc.SafetyProperties

/-!
# Channels are pipes

Each end of a connection receives what the other has sent, in order and unchanged: a
channel is a reliable pipe, and every call answers as the pipe does.
-/

namespace Trusty.Ipc

open List

open Function (update update_self update_of_ne)

namespace World

variable {world : World} {event : Event} {memory : List Bool} {answer : Answer}
  {kernel : IpcState}

inductive Moves (event : Event) (chan : ChanId) (pipe : Pipe (List UInt8)) :
    Pipe (List UInt8) → Prop where
  | stay : Moves event chan pipe pipe
  | send (valid : pipe.Valid) (bytes : List UInt8) : Moves event chan pipe (pipe.send bytes)
  | get (id : Nat) (unused : pipe.reading id = none) : Moves event chan pipe (pipe.get id)
  | put (id : Nat) (own : event = .put (some (.chan chan)) id) :
      Moves event chan pipe (pipe.put id)

variable {chan : ChanId} {pipe next : Pipe (List UInt8)}

theorem Moves.ordered (moves : Moves event chan pipe next) : pipe.sent <+: next.sent ∧ pipe.got ≤ next.got := by
  cases moves with
  | stay => exact ⟨prefix_rfl, le_rfl⟩
  | send valid bytes => exact ⟨prefix_append _ _, le_rfl⟩
  | get id unused => exact ⟨prefix_rfl, Nat.le_succ _⟩
  | put id own => exact ⟨prefix_rfl, le_rfl⟩

theorem Moves.message (moves : Moves event chan pipe next) {id : Nat} {bytes : List UInt8}
    (message : pipe.message id = some bytes) (other : event ≠ .put (some (.chan chan)) id) :
    next.message id = some bytes := by
  cases moves with
  | stay => exact message
  | send valid more => rw [valid.message_send, message]
  | get number unused =>
    have ne : id ≠ number := by
      rintro rfl
      simp [Pipe.message, unused] at message
    rw [Pipe.message_get_ne ne, message]
  | put number own =>
  have ne : id ≠ number := by
    rintro rfl
    exact other own
  rw [Pipe.message_put_ne ne, message]

theorem Reached.moves (reached : Reached world) (allowed : world.Allows event)
    (returned : world.call event memory = .ok answer kernel) (chan : ChanId) :
    Moves event chan (world.pipe chan) ((world.record event answer kernel).pipe chan) := by
  have told := (reached.returned allowed returned).2.2
  unfold record
  split
  case h_9 handle msg len =>
    match handle with
    | none | some (.port _) => exact .stay
    | some (.chan sender) =>
    obtain ⟨_, peer, peerData, mq, bytes, _, _, _, found, queue, _, _, received⟩ := told (.ok len) rfl
    dsimp only
    rw [received]
    by_cases same : chan = peer
    · rw [same, update_self]
      exact .send (reached.ok.traced.pipes peer peerData mq found queue).valid bytes
    · rw [update_of_ne same]
      exact .stay
  case h_10 handle copied info =>
    match handle with
    | none | some (.port _) => exact .stay
    | some (.chan receiver) =>
    obtain ⟨_, _, _, unused⟩ := told (.ok info) rfl
    dsimp only [onPipe]
    by_cases same : chan = receiver
    · rw [same, update_self]
      exact .get info.id unused
    · rw [update_of_ne same]
      exact .stay
  case h_11 handle msgId _ =>
    match handle with
    | none | some (.port _) => exact .stay
    | some (.chan receiver) =>
    dsimp only [onPipe]
    by_cases same : chan = receiver
    · rw [same, update_self]
      exact .put msgId rfl
    · rw [update_of_ne same]
      exact .stay
  all_goals exact .stay

theorem Leads.ordered {later : World} (leads : Leads world later) (reached : Reached world) (chan : ChanId) :
    (world.pipe chan).sent <+: (later.pipe chan).sent ∧ (world.pipe chan).got ≤ (later.pipe chan).got := by
  induction leads with
  | refl => exact ⟨prefix_rfl, le_rfl⟩
  | call leads event memory allowed returned ih =>
  have step := ((leads.reached reached).moves allowed returned chan).ordered
  exact ⟨ih.1.trans step.1, le_trans ih.2 step.2⟩

def moved : Answer → Bool
  | .sent (.ok _) => true
  | .got (.ok _) => true
  | .put (.ok _) => true
  | _ => false

theorem record_pipe_of_not_moved (still : moved answer = false) :
    (world.record event answer kernel).pipe = world.pipe := by
  unfold record
  split <;> first | rfl | cases still

variable {handle : Option Handle}

theorem got_of_returned {copied : Bool} (returned : world.call (.get handle copied) memory = .ok answer kernel) :
    ∃ result, answer = .got result := by
  obtain ⟨result, _, same⟩ := StateLogic.map_eq_ok returned
  exact ⟨result, same⟩

theorem read_of_returned {msgId offset : Nat} {msg : MsgDesc}
    (returned : world.call (.read handle msgId offset msg) memory = .ok answer kernel) :
    ∃ written result, answer = .read written result := by
  obtain ⟨out, _, same⟩ := StateLogic.map_eq_ok returned
  exact ⟨out.1, out.2, same⟩

theorem Ok.hasQueue (ok : world.Ok) (spoken : world.pipe chan ≠ .empty) :
    (world.enter memory).HasQueue (some (.chan chan)) := by
  intro data found
  by_contra none
  rw [Bool.not_eq_true, Option.isSome_eq_false_iff, Option.isNone_iff_eq_none] at none
  exact spoken (ok.traced.silent chan (.inr ⟨data, found, none⟩))

theorem Reached.gettable (reached : Reached world) (held : 0 < world.held chan) {message : List UInt8}
    (next : (world.pipe chan).next = some message) (memory : List Bool) :
    ∃ info kernel, world.call (.get (some (.chan chan)) true) memory = .ok (.got (.ok info)) kernel ∧
      info.len = message.length := by
  have allowed : world.Allows (.get (some (.chan chan)) true) := held
  have spoken : world.pipe chan ≠ .empty := by
    intro empty
    rw [empty] at next
    cases next
  obtain ⟨answer, kernel, returned⟩ := (reached.returns_iff allowed memory).mpr (reached.ok.hasQueue spoken)
  obtain ⟨result, rfl⟩ := got_of_returned returned
  have told := (reached.returned allowed returned).2.2 result rfl
  cases result with
  | error reason =>
    rw [told rfl] at next
    cases next
  | ok info =>
  obtain ⟨sent, same, length, _⟩ := told
  rw [next] at same
  cases same
  exact ⟨info, kernel, returned, length⟩

/-- A message that has been got can be read from each offset in it, whatever the
state of the channel is. -/
theorem Reached.readable (reached : Reached world) (held : 0 < world.held chan) {id offset : Nat} {message : List UInt8}
    {msg : MsgDesc} (got : (world.pipe chan).message id = some message) (within : offset ≤ message.length)
    (plain : msg.numHandles = 0) (valid : none ∉ msg.contents) (memory : List Bool) :
    ∃ written total kernel, world.call (.read (some (.chan chan)) id offset msg) memory =
      .ok (.read written (.ok total)) kernel := by
  have allowed : world.Allows (.read (some (.chan chan)) id offset msg) := held
  have spoken : world.pipe chan ≠ .empty := by
    intro empty
    rw [empty] at got
    cases got
  obtain ⟨answer, kernel, returned⟩ := (reached.returns_iff allowed memory).mpr (reached.ok.hasQueue spoken)
  obtain ⟨written, result, rfl⟩ := read_of_returned returned
  have told := (reached.returned allowed returned).2.2 written result rfl
  cases result with
  | error reason => exact absurd (told plain valid message got) (Nat.not_lt_of_le within)
  | ok total => exact ⟨written, total, kernel, returned⟩

structure PipeLaw (world : World) : Prop where
  queues : ∀ chan data mq, world.kernel.chans chan = some data → data.msgQueue = some mq →
    mq.Partitioned ∧
    mq.filledList.map mq.content = (world.pipe chan).sent.drop (world.pipe chan).got ∧
    ∃ attachment ∈ world.kernel.attached,
      (chan = attachment.client ∨ chan = attachment.server) ∧
      mq.itemSz = attachment.port.recvBufSize ∧
      mq.filledList.length + mq.readList.length ≤ attachment.port.numRecvBufs
  sends : ∀ chan msg memory len kernel, 0 < world.held chan →
    world.call (.send (some (.chan chan)) msg) memory = .ok (.sent (.ok len)) kernel →
    ∃ data peer peerData mq bytes, world.kernel.chans chan = some data ∧
      data.state = .connected ∧ data.peer = some peer ∧
      world.kernel.chans peer = some peerData ∧ peerData.msgQueue = some mq ∧
      msg.contents.take mq.itemSz = bytes.map some ∧ len = bytes.length ∧
      (world.record (.send (some (.chan chan)) msg) (.sent (.ok len)) kernel).pipe =
        update world.pipe peer ((world.pipe peer).send bytes)
  gets : ∀ chan copied memory info kernel, 0 < world.held chan →
    world.call (.get (some (.chan chan)) copied) memory = .ok (.got (.ok info)) kernel →
    ∃ message, (world.pipe chan).next = some message ∧ info.len = message.length ∧
      (world.record (.get (some (.chan chan)) copied) (.got (.ok info)) kernel).pipe =
        update world.pipe chan ((world.pipe chan).get info.id)
  reads : ∀ chan id offset msg memory written total kernel, 0 < world.held chan →
    world.call (.read (some (.chan chan)) id offset msg) memory =
      .ok (.read written (.ok total)) kernel →
    ∃ message, (world.pipe chan).message id = some message ∧ offset ≤ message.length ∧
      written.flatten = (message.drop offset).take msg.contents.length ∧
      total = written.flatten.length
  puts : ∀ chan id memory kernel, 0 < world.held chan →
    world.call (.put (some (.chan chan)) id) memory = .ok (.put (.ok ())) kernel →
    ((world.pipe chan).message id).isSome ∧
      (world.record (.put (some (.chan chan)) id) (.put (.ok ())) kernel).pipe =
        update world.pipe chan ((world.pipe chan).put id)
  others : ∀ event memory answer kernel, world.Allows event →
    world.call event memory = .ok answer kernel → moved answer = false →
    (world.record event answer kernel).pipe = world.pipe
  kept : ∀ event memory answer kernel, world.Allows event →
    world.call event memory = .ok answer kernel → ∀ chan id message,
    (world.pipe chan).message id = some message → event ≠ .put (some (.chan chan)) id →
    ((world.record event answer kernel).pipe chan).message id = some message
  ordered : ∀ later, Leads world later → ∀ chan,
    (world.pipe chan).sent <+: (later.pipe chan).sent ∧
      (world.pipe chan).got ≤ (later.pipe chan).got
  gettable : ∀ chan message memory, 0 < world.held chan →
    (world.pipe chan).next = some message →
    ∃ info kernel, world.call (.get (some (.chan chan)) true) memory = .ok (.got (.ok info)) kernel ∧
      info.len = message.length
  readable : ∀ chan id offset message msg memory, 0 < world.held chan →
    (world.pipe chan).message id = some message → offset ≤ message.length →
    msg.numHandles = 0 → none ∉ msg.contents →
    ∃ written total kernel, world.call (.read (some (.chan chan)) id offset msg) memory =
      .ok (.read written (.ok total)) kernel

/-- In every run the messages of each channel are those of a reliable pipe. -/
theorem channels_are_pipes (reached : Reached world) : world.PipeLaw where
  queues := by
    intro chan data mq found queue
    have refines := reached.ok.traced.pipes chan data mq found queue
    obtain ⟨attachment, member, own, _, numItems, itemSz⟩ := reached.ok.resting.chans.logged chan data mq found queue
    refine ⟨refines.partitioned, refines.filled, attachment, member, ?_, itemSz, ?_⟩
    · split at own
      · exact .inr own.symm
      · exact .inl own.symm
    · exact numItems ▸ refines.partitioned.inFlight_le
  sends := by
    intro chan msg memory len kernel held returned
    have allowed : world.Allows (.send (some (.chan chan)) msg) := held
    exact (reached.returned allowed returned).2.2 (.ok len) rfl
  gets := by
    intro chan copied memory info kernel held returned
    have allowed : world.Allows (.get (some (.chan chan)) copied) := held
    obtain ⟨message, next, length, _⟩ := (reached.returned allowed returned).2.2 (.ok info) rfl
    exact ⟨message, next, length, rfl⟩
  reads := by
    intro chan id offset msg memory written total kernel held returned
    have allowed : world.Allows (.read (some (.chan chan)) id offset msg) := held
    obtain ⟨message, got, within, bytes, length⟩ := (reached.returned allowed returned).2.2 written (.ok total) rfl
    exact ⟨message, got, within, bytes, by rw [bytes, length]⟩
  puts := by
    intro chan id memory kernel held returned
    have allowed : world.Allows (.put (some (.chan chan)) id) := held
    exact ⟨(reached.returned allowed returned).2.2 (.ok ()) rfl, rfl⟩
  others := fun _ _ _ _ _ _ still => record_pipe_of_not_moved still
  kept := fun _ _ _ _ allowed returned chan _ _ message other =>
    (reached.moves allowed returned chan).message message other
  ordered := fun _ leads chan => leads.ordered reached chan
  gettable := fun _ _ memory held next => reached.gettable held next memory
  readable := fun _ _ _ _ _ memory held got within plain valid =>
    reached.readable held got within plain valid memory

def sentRun : List (Event × List Bool) :=
  connectedRun ++ [(.send (some (.chan 0)) (.kern ⟨1, some fun _ => .memory [7, 8, 9], 0⟩), []),
    (.chanShutdown 0, [])]

theorem sent_message_in_pipe : ∃ world, Reached world ∧ (world.pipe 1).next = some [7, 8, 9] ∧ 0 < world.held 1 ∧
      world.PipeLaw := by
  obtain ⟨world, reached, check⟩ := exists_reached sentRun
    (fun world : World => decide ((world.pipe 1).next = some [7, 8, 9]) && decide (0 < world.held 1)) (by decide)
  rw [Bool.and_eq_true, decide_eq_true_eq, decide_eq_true_eq] at check
  exact ⟨world, reached, check.1, check.2, channels_are_pipes reached⟩

end World

end Trusty.Ipc
