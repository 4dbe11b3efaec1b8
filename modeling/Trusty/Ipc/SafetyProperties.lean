import Trusty.Ipc.RunProperties

/-!
# Safety of the calls

Which calls of a run trip an assertion of the kernel, and which use a message
queue that does not exist.
-/

namespace Trusty.Ipc

namespace World

variable {world : World}

/-- The assertions hold in a call exactly if it does not publish a port for
which a refused client waits. -/
theorem assertions_hold_iff (reached : Reached world) {event : Event}
    (allowed : world.Allows event) (memory : List Bool) :
    (∀ which kernel, world.call event memory ≠ .error (.assertion which) kernel) ↔
      ∀ port data, event = .portPublish port → world.kernel.ports port = some data →
        (world.enter memory).CanPublish data := by
  have outcome := reached.ok.call allowed memory
  constructor
  · rintro holds port data rfl found
    rcases outcome with ⟨_, _, _, safe, _⟩ | ⟨kernel, stopped, _⟩
    · exact safe data found
    · exact absurd stopped (holds _ kernel)
  intro publishes which kernel stopped
  rcases outcome with ⟨_, _, returned, _⟩ | ⟨_, stops, unsafe_⟩
  · rw [stopped] at returned
    cases returned
  rw [stopped] at stops
  cases event with
  | portPublish port => exact unsafe_ fun data found => publishes port data rfl found
  | _ => cases stops

def waitFor (flags : PortFlags) : List (Event × List Bool) :=
  [(.connect (some .zero) [112] 64 true, []),
    (.portCreate (some (.app 1)) [112] 1 16 flags, [])]

theorem allowed_wait_trips_no_assertion : ∃ world, Reached world ∧ world.Allows (.portPublish 0) ∧
      ∀ which kernel, world.call (.portPublish 0) [] ≠ .error (.assertion which) kernel := by
  obtain ⟨world, reached, check⟩ := exists_reached (waitFor ⟨true, true⟩)
    (fun world : World => decide (world.Allows (.portPublish 0)) && (world.kernel.ports 0).all fun data : Port =>
        decide (data.AdmitsAll world.kernel.chans world.kernel.waitingForPortChanList []))
    (by decide)
  rw [Bool.and_eq_true, decide_eq_true_eq] at check
  refine ⟨world, reached, check.1, (assertions_hold_iff reached check.1 []).mpr ?_⟩
  rintro _ data ⟨⟩ found
  have admits := check.2
  rw [found] at admits
  exact .inr (of_decide_eq_true admits)

theorem refused_wait_trips_assertion : ∃ world, Reached world ∧ world.Allows (.portPublish 0) ∧
      ∃ kernel, world.call (.portPublish 0) [] = .error (.assertion .waitingInList) kernel :=
  exists_stopped (waitFor ⟨true, false⟩) (.portPublish 0) [] (.assertion .waitingInList) (by decide)

/-- Between two calls a channel has a queue exactly if it does not remember a
path to wait for. -/
theorem Ok.queue_iff (ok : world.Ok) {chan : ChanId} {data : Chan} (found : world.kernel.chans chan = some data) :
    data.msgQueue.isSome ↔ data.path = none := by
  have shape := ok.resting.chans.shaped chan data found
  simp only [Chan.Shaped, Tmp.rest, Tmp.Has] at shape
  split at shape <;> grind

end World

def Event.messageHandle : Event → Option Handle
  | .send handle _ => handle
  | .get handle _ => handle
  | .read handle _ _ _ => handle
  | .put handle _ => handle
  | _ => none

def Event.isSend : Event → Bool
  | .send _ _ => true
  | _ => false

namespace World

variable {world : World}

/-- A message call on the handle of a channel returns exactly if it sends, or if
the channel is no client that has never been attached to a port. -/
theorem message_call_returns_iff (reached : Reached world) {event : Event} {chan : ChanId}
    (message : event.messageHandle = some (.chan chan)) (held : 0 < world.held chan) {data : Chan}
    (found : world.kernel.chans chan = some data) (memory : List Bool) :
    (∃ answer kernel, world.call event memory = .ok answer kernel) ↔ event.isSend = true ∨ data.path = none := by
  have entered : (world.enter memory).chans chan = some data := found
  have queue := (hasQueue_iff entered).trans (reached.ok.queue_iff found)
  cases event with
  | send handle msg =>
    cases message
    have allowed : world.Allows (.send (some (.chan chan)) msg) := held
    simp [reached.returns_iff allowed, Event.Safe, Event.isSend]
  | get handle copied =>
    cases message
    have allowed : world.Allows (.get (some (.chan chan)) copied) := held
    simpa [reached.returns_iff allowed, Event.Safe, Event.isSend] using queue
  | read handle msgId offset msg =>
    cases message
    have allowed : world.Allows (.read (some (.chan chan)) msgId offset msg) := held
    simpa [reached.returns_iff allowed, Event.Safe, Event.isSend] using queue
  | put handle msgId =>
    cases message
    have allowed : world.Allows (.put (some (.chan chan)) msgId) := held
    simpa [reached.returns_iff allowed, Event.Safe, Event.isSend] using queue
  | _ => cases message

def connectedRun : List (Event × List Bool) :=
  [(.portCreate (some (.app 1)) [112] 2 16 ⟨true, true⟩, []), (.portPublish 0, []),
    (.connect (some .zero) [112] 64 false, []), (.accept (some (.port 0)), [])]

theorem connected_client_call_returns : ∃ world, Reached world ∧
      ∃ answer kernel, world.call (.get (some (.chan 0)) true) [] = .ok answer kernel := by
  obtain ⟨world, reached, check⟩ := exists_reached connectedRun (fun world : World => decide (0 < world.held 0) &&
      (world.kernel.chans 0).any fun data : Chan => decide (data.path = none)) (by decide)
  rw [Bool.and_eq_true, decide_eq_true_eq] at check
  obtain ⟨data, found, unnamed⟩ := (Option.any_eq_true _ _).mp check.2
  exact ⟨world, reached, (message_call_returns_iff reached rfl check.1 found []).mpr (.inr (of_decide_eq_true unnamed))⟩

/-- The client of a port that does not exist yet asks for a message. -/
theorem waiting_client_uses_null_queue : ∃ world, Reached world ∧ world.Allows (.get (some (.chan 0)) true) ∧
      ∃ kernel, world.call (.get (some (.chan 0)) true) [] = .error .nullPointer kernel :=
  exists_stopped [(.connect (some .zero) [112] 64 true, [])] (.get (some (.chan 0)) true) [] .nullPointer (by decide)

end World

end Trusty.Ipc
