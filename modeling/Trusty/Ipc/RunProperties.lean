import Trusty.Ipc.MessageProperties

/-!
# All calls of a run

Each call keeps the invariant of a run, and ends exactly if it is safe: publishing a
port can fail an assertion, and receiving can use a missing queue.
-/

namespace Trusty.Ipc

open StateLogic List Option Function

def IpcState.HasQueue (state : IpcState) : Option Handle → Prop
  | some (.chan chan) => ∀ data, state.chans chan = some data → data.msgQueue.isSome
  | _ => True

def Event.Safe (event : Event) (state : IpcState) : Prop :=
  match event with
  | .portPublish port => ∀ data, state.ports port = some data → state.CanPublish data
  | .get handle _ => state.HasQueue handle
  | .read handle _ _ _ => state.HasQueue handle
  | .put handle _ => state.HasQueue handle
  | _ => True

def Event.stop : Event → Stop
  | .portPublish _ => .assertion .waitingInList
  | _ => .nullPointer

namespace World

variable {world : World}

def Told (world : World) (event : Event) (answer : Answer) (kernel : IpcState) : Prop :=
  match event with
  | .accept _ => ∀ chan uuid, answer = .accepted (.ok (chan, uuid)) →
      ∃ data client clientData, kernel.chans chan = some data ∧ data.state = .connected ∧
        data.server = true ∧ data.peer = some client ∧
        kernel.chans client = some clientData ∧ clientData.uuid = uuid
  | .portShutdown port => ∀ data server, world.kernel.ports port = some data →
      server ∈ data.pendingList → kernel.Ended server
  | .chanShutdown chan => kernel.Ended chan
  | .send (some (.chan chan)) msg => ∀ result, answer = .sent result →
      world.SendTells chan msg result
  | .get (some (.chan chan)) copied => ∀ result, answer = .got result →
      GetTells (world.pipe chan) copied result
  | .read (some (.chan chan)) msgId offset msg => ∀ written result,
      answer = .read written result → ReadTells (world.pipe chan) msgId offset msg written result
  | .put (some (.chan chan)) msgId => ∀ result, answer = .put result →
      PutTells (world.pipe chan) msgId result
  | _ => True

structure Done (world : World) (event : Event) (answer : Answer) (kernel : IpcState) : Prop where
  safe : event.Safe world.kernel
  ok : (world.record event answer kernel).Ok
  evolves : Evolves world.kernel kernel
  told : world.Told event answer kernel

/-- The call ends in `Done`, or stops because it is not safe. -/
def Runs (world : World) (event : Event) : Prop :=
  wp event.run (world.Done event)
    (fun reason _ => ¬event.Safe world.kernel ∧ reason = event.stop) world.kernel

theorem Ok.frame {next : World} (ok : world.Ok) (resting : Resting next.portHeld next.kernel)
    (frame : Frame world.kernel next.kernel) (held : next.held = world.held) (shut : next.shut = world.shut)
    (asked : next.asked = world.asked) (pipe : next.pipe = world.pipe) : next.Ok := by
  refine ⟨resting, by rw [frame.refs, ok.held, held], ?_⟩
  refine ok.traced.later frame.later shut asked pipe (fun attachment member => .inl ?_)
    fun logged => logged.later frame.later frame.attached
  rwa [frame.attached] at member

theorem portCreate_runs (ok : world.Ok) (sid : Option Uuid) (path : Path) (numRecvBufs recvBufSize : Nat)
    (flags : PortFlags) : world.Runs (.portCreate sid path numRecvBufs recvBufSize flags) := by
  rw [Runs, Event.run, wp_map]
  apply wp_mono (ipcPortCreate_spec ok.resting sid path numRecvBufs recvBufSize flags) _ fun _ _ stops => stops.elim
  rintro result kernel ⟨frame, resting⟩
  refine ⟨trivial, ?_, .of_later frame.later, trivial⟩
  cases result with
  | error reason | ok port => exact ok.frame resting frame rfl rfl rfl rfl

variable {port : PortId}

section

variable (ok : world.Ok) (held : 0 < world.portHeld port)
include ok held

theorem portPublish_runs : world.Runs (.portPublish port) := by
  obtain ⟨data, found⟩ := isSome_iff_exists.mp (ok.resting.ports.alive port held)
  have only : Event.Safe (.portPublish port) world.kernel ↔ world.kernel.CanPublish data := by
    constructor
    · exact fun safe => safe data found
    intro safe other otherFound
    rw [found] at otherFound
    cases otherFound
    exact safe
  rw [Runs, Event.run, wp_map]
  apply wp_mono (ipcPortPublish_spec ok.resting found)
  · rintro result kernel ⟨safe, published⟩
    refine ⟨only.mpr safe, ⟨published.toResting, published.refs.trans ok.held, ?_⟩, .of_later published.later, trivial⟩
    obtain ⟨new, log, granted⟩ := published.attached
    refine ok.traced.later published.later rfl rfl rfl (fun attachment member => ?_) published.logged
    have member : attachment ∈ kernel.attached := member
    rw [log] at member
    refine (mem_append.mp member).imp id fun added => ?_
    obtain ⟨client, clientFound, isClient, named, allowed⟩ := granted attachment added
    obtain ⟨uuid, path, asked, sameUuid, samePath⟩ := ok.traced.clients attachment.client client clientFound isClient
    have own : path = data.path := by grind
    exact ⟨uuid, path, asked, own ▸ sameUuid ▸ allowed⟩
  · exact fun reason kernel stops => ⟨mt only.mp stops.1, stops.2⟩

theorem portShutdown_runs : world.Runs (.portShutdown port) := by
  rw [Runs, Event.run, wp_map]
  apply wp_mono (portShutdown_resting ok.resting held) _ fun _ _ stops => stops.elim
  rintro _ kernel ⟨resting, frame, ended⟩
  exact ⟨trivial, ok.frame resting frame rfl rfl rfl rfl, .of_later frame.later, ended⟩

theorem portIncref_runs : world.Runs (.portIncref port) := by
  obtain ⟨data, found⟩ := isSome_iff_exists.mp (ok.resting.ports.alive port held)
  have frame : Frame world.kernel (world.kernel.setPort port (some { data with refcnt := data.refcnt + 1 })) :=
    .of_eq rfl rfl rfl ok.resting.chans.fresh
  rw [Runs, Event.run, wp_map, portHandleIncref, wp_modifyPort found]
  refine ⟨trivial, ok.frame ⟨?_, ?_⟩ frame rfl rfl rfl rfl, .of_later frame.later, trivial⟩
  · exact ok.resting.chans.setPort found _ rfl
  · exact ok.resting.ports.incref found

theorem portDecref_runs : world.Runs (.portDecref port) := by
  obtain ⟨data, found⟩ := isSome_iff_exists.mp (ok.resting.ports.alive port held)
  have frame : Frame world.kernel (world.kernel.setPort port (if data.refcnt = 1 then none
      else some { data with refcnt := data.refcnt - 1 })) :=
    .of_eq rfl rfl rfl ok.resting.chans.fresh
  have bare : data.refcnt = 1 → data.pendingList = [] := by
    intro last
    have refcnt := ok.resting.ports.refcnt port data found
    exact length_eq_zero_iff.mp (by omega)
  rw [Runs, Event.run, wp_map, wp_portHandleDecref found]
  refine ⟨trivial, ok.frame ⟨?_, ?_⟩ frame rfl rfl rfl rfl, .of_later frame.later, trivial⟩
  · exact ok.resting.chans.decrefPort found bare
  · exact ok.resting.ports.decref found held

end

theorem connect_runs (ok : world.Ok) (cid : Option Uuid) (path : Path) (maxPath : Nat) (waitForPort : Bool) :
    world.Runs (.connect cid path maxPath waitForPort) := by
  rw [Runs, Event.run, wp_map]
  apply wp_mono (ipcPortConnectAsync_spec ok.resting cid maxPath waitForPort) _ fun _ _ stops => stops.elim
  intro result kernel outcome
  cases result with
  | error reason =>
    obtain ⟨resting, frame⟩ := outcome
    refine ⟨trivial, ?_, .of_later frame.later, trivial⟩
    cases cid with
    | none | some cid => exact ok.frame resting frame rfl rfl rfl rfl
  | ok chan =>
  obtain ⟨rfl, cid, rfl, opened⟩ := outcome
  obtain ⟨start, newClient, later⟩ := opened.later
  have traced := ok.traced.newClient ok.resting.chans.fresh newClient (update world.held world.kernel.nextChan 1)
  refine ⟨trivial, ⟨⟨opened.chans, opened.ports⟩, ?_, ?_⟩, (Evolves.allocChan start _).trans (.of_later later), trivial⟩
  · exact opened.refs.trans (congrArg (Function.update · _ 1) ok.held)
  refine traced.later later rfl rfl rfl (fun attachment member => ?_) fun _ => opened.logged ok.traced.logged
  have member : attachment ∈ kernel.attached := member
  rcases opened.attached with same | ⟨added, log, isClient, granted⟩
  · rw [same] at member
    exact .inl member
  rw [log] at member
  refine (mem_append.mp member).imp id fun own => ?_
  rw [mem_singleton.mp own]
  refine ⟨cid, path, ?_, granted⟩
  rw [isClient]
  exact update_self ..

variable {handle : Option Handle}

theorem accept_runs (ok : world.Ok) (holds : world.Holds handle) : world.Runs (.accept handle) := by
  rw [Runs, Event.run, wp_map]
  have unchanged : world.Done (.accept handle) (.accepted (.error .invalidArgs)) world.kernel :=
    ⟨trivial, ok, .refl _, nofun⟩
  cases handle with
  | none => exact unchanged
  | some handle =>
  cases handle with
  | chan chan => exact unchanged
  | port port =>
  apply wp_mono (portAccept_spec ok.resting holds) _ fun _ _ stops => stops.elim
  intro result kernel outcome
  cases result with
  | error reason =>
    obtain ⟨resting, frame⟩ := outcome
    exact ⟨trivial, ok.frame resting frame rfl rfl rfl rfl, .of_later frame.later, nofun⟩
  | ok value =>
  obtain ⟨chan, uuid⟩ := value
  refine ⟨trivial, ⟨⟨outcome.chans, outcome.ports⟩, ?_, ?_⟩, .of_later outcome.later, ?_⟩
  · exact outcome.refs.trans (congrArg (Function.update · _ 1) ok.held)
  · refine ok.traced.later outcome.later rfl rfl rfl (fun attachment member => .inl ?_)
      fun logged => logged.later outcome.later outcome.attached
    exact outcome.attached ▸ member
  · rintro _ _ ⟨⟩
    obtain ⟨data, client, clientData, found, _, _, others⟩ := outcome.server
    exact ⟨data, client, clientData, found, others⟩

variable {chan : ChanId} {data : Chan}

theorem Traced.close (traced : world.Traced) (closed : world.kernel.chans chan = some data.closed)
    (old : chan < world.kernel.nextChan) : Traced { world with shut := update world.shut chan true } := by
  refine { traced with shut := ?_, shutOld := ?_ }
  · intro other otherData alive shut
    by_cases same : other = chan
    · rw [same, closed] at alive
      cases alive
      exact ⟨rfl, rfl⟩
    · simp only [update_of_ne same] at shut
      exact traced.shut other otherData alive shut
  · intro other shut
    by_cases same : other = chan
    · exact same ▸ old
    · simp only [update_of_ne same] at shut
      exact traced.shutOld other shut

section

variable (ok : world.Ok) (held : 0 < world.held chan)
include ok held

theorem chanShutdown_runs : world.Runs (.chanShutdown chan) := by
  obtain ⟨data, found, refcnt⟩ := ok.alive held
  rw [Runs, Event.run, wp_map]
  apply wp_mono (chanShutdown_resting ok.resting found (refcnt ▸ held)) _ fun _ _ stops => stops.elim
  rintro _ kernel ⟨resting, frame, closed⟩
  refine ⟨trivial, ?_, .of_later frame.later, ?_⟩
  · have before : Ok { world with kernel := kernel } := ok.frame resting frame rfl rfl rfl rfl
    exact ⟨before.resting, before.held, before.traced.close closed (resting.chans.below closed)⟩
  intro next nextFound
  rw [closed] at nextFound
  cases nextFound
  rfl

theorem chanIncref_runs : world.Runs (.chanIncref chan) := by
  obtain ⟨data, found, refcnt⟩ := ok.alive held
  have onward : data.Onward { data with refcnt := data.refcnt + 1 } := { Chan.Onward.refl data with }
  have later := Later.setChan found ok.resting.chans.fresh onward
  have both : data.refcnt + 1 = 0 ↔ data.refcnt = 0 := by omega
  rw [Runs, Event.run, wp_map, chanHandleIncref, wp_modifyChan found]
  refine ⟨trivial, ⟨⟨?_, ok.resting.ports.congr rfl rfl rfl⟩, ?_, ?_⟩, .of_later later, trivial⟩
  · exact ok.resting.chans.retouch found rfl rfl rfl rfl both rfl (.of_eq rfl) rfl
  · refine (IpcState.refs_update _).trans ?_
    rw [ok.held, refcnt]
    rfl
  · exact ok.traced.later later rfl rfl rfl (fun attachment member => .inl member) fun logged => logged.later later rfl

theorem chanDecref_runs (last : world.held chan = 1 → world.shut chan = true) : world.Runs (.chanDecref chan) := by
  obtain ⟨data, found, refcnt⟩ := ok.alive held
  rw [Runs, Event.run, wp_map]
  apply wp_mono (chanHandleDecref_resting ok.resting found (refcnt ▸ held)
    fun one => ok.traced.shut chan data found (last (refcnt ▸ one))) _ fun _ _ stops => stops.elim
  rintro _ kernel ⟨resting, later, attached, refs⟩
  refine ⟨trivial, ⟨resting, ?_, ?_⟩, .of_later later, trivial⟩
  · rw [record, refs, ok.held]
  · refine ok.traced.later later rfl rfl rfl (fun attachment member => .inl ?_)
      fun logged => logged.later later attached
    exact attached ▸ member

theorem finalizeEvent_runs (sendUnblocked ready : Bool) : world.Runs (.finalizeEvent chan sendUnblocked ready) := by
  obtain ⟨data, found, _⟩ := ok.alive held
  rw [Runs, Event.run, wp_map, chanFinalizeEvent, wp_modifyChan found]
  exact ⟨trivial, ok.touchFlags found _, .setChan found rfl, trivial⟩

end

theorem send_runs (ok : world.Ok) (holds : world.Holds handle) (msg : MsgDesc) : world.Runs (.send handle msg) := by
  rw [Runs, Event.run, wp_map]
  apply wp_mono (send_goes ok holds msg) _ fun _ _ stops => stops.elim
  rintro result kernel ⟨goes, tells⟩
  refine ⟨trivial, goes.1, goes.2, ?_⟩
  match handle, tells with
  | none, _ => trivial
  | some (.port port), _ => trivial
  | some (.chan chan), tells =>
  rintro _ ⟨⟩
  exact tells chan rfl

theorem hasQueue_iff {state : IpcState} (found : state.chans chan = some data) :
    state.HasQueue (some (.chan chan)) ↔ data.msgQueue.isSome := by
  constructor
  · exact fun has => has data found
  intro made other otherFound
  rw [found] at otherFound
  cases otherFound
  exact made

theorem not_hasQueue {state : IpcState} (found : state.chans chan = some data) (none : data.msgQueue = none) :
    ¬state.HasQueue (some (.chan chan)) := by
  rw [hasQueue_iff found, none]
  exact Bool.false_ne_true

section

variable (ok : world.Ok) (holds : world.Holds handle)
include ok holds

theorem get_runs (copied : Bool) : world.Runs (.get handle copied) := by
  rw [Runs, Event.run, wp_map]
  match handle, holds with
  | none, _ | some (.port _), _ => exact ⟨trivial, ok, .refl _, trivial⟩
  | some (.chan chan), holds =>
  obtain ⟨data, found, _⟩ := ok.alive holds
  apply wp_mono (get_goes ok found copied)
  · rintro result kernel ⟨made, goes, tells⟩
    refine ⟨(hasQueue_iff found).mpr made, goes.1, goes.2, ?_⟩
    rintro _ ⟨⟩
    exact tells
  · exact fun reason kernel stops => ⟨not_hasQueue found stops.1, stops.2⟩

theorem read_runs (msgId offset : Nat) (msg : MsgDesc) : world.Runs (.read handle msgId offset msg) := by
  rw [Runs, Event.run, wp_map]
  match handle, holds with
  | none, _ | some (.port _), _ => exact ⟨trivial, ok, .refl _, trivial⟩
  | some (.chan chan), holds =>
  obtain ⟨data, found, _⟩ := ok.alive holds
  apply wp_mono (read_goes ok found msgId offset msg)
  · rintro result _ ⟨made, rfl, tells⟩
    refine ⟨(hasQueue_iff found).mpr made, ok, .refl _, ?_⟩
    rintro _ _ ⟨⟩
    exact tells
  · exact fun reason kernel stops => ⟨not_hasQueue found stops.1, stops.2⟩

theorem put_runs (msgId : Nat) : world.Runs (.put handle msgId) := by
  rw [Runs, Event.run, wp_map]
  match handle, holds with
  | none, _ | some (.port _), _ => exact ⟨trivial, ok, .refl _, trivial⟩
  | some (.chan chan), holds =>
  obtain ⟨data, found, _⟩ := ok.alive holds
  apply wp_mono (put_goes ok found msgId)
  · rintro result kernel ⟨made, goes, tells⟩
    refine ⟨(hasQueue_iff found).mpr made, goes.1, goes.2, ?_⟩
    rintro _ ⟨⟩
    exact tells
  · exact fun reason kernel stops => ⟨not_hasQueue found stops.1, stops.2⟩

end

variable {event : Event}

theorem Ok.runs (ok : world.Ok) (allowed : world.Allows event) : world.Runs event := by
  cases event with
  | portCreate sid path numRecvBufs recvBufSize flags =>
    exact portCreate_runs ok sid path numRecvBufs recvBufSize flags
  | portPublish port => exact portPublish_runs ok allowed
  | portShutdown port => exact portShutdown_runs ok allowed
  | portIncref port => exact portIncref_runs ok allowed
  | portDecref port => exact portDecref_runs ok allowed
  | connect cid path maxPath waitForPort => exact connect_runs ok cid path maxPath waitForPort
  | accept handle => exact accept_runs ok allowed
  | chanShutdown chan => exact chanShutdown_runs ok allowed
  | chanIncref chan => exact chanIncref_runs ok allowed
  | chanDecref chan => exact chanDecref_runs ok allowed.1 allowed.2
  | finalizeEvent chan sendUnblocked ready => exact finalizeEvent_runs ok allowed sendUnblocked ready
  | send handle msg => exact send_runs ok allowed msg
  | get handle copied => exact get_runs ok allowed copied
  | read handle msgId offset msg => exact read_runs ok allowed msgId offset msg
  | put handle msgId => exact put_runs ok allowed msgId

theorem Ok.remember (ok : world.Ok) (memory : List Bool) :
    Ok { world with kernel := { world.kernel with memory := memory } } := by
  have spent := ok.resting.spend le_rfl memory
  exact ok.frame spent.1 spent.2 rfl rfl rfl rfl

@[simp] theorem record_kernel (world : World) (event : Event) (answer : Answer)
    (kernel : IpcState) : (world.record event answer kernel).kernel = kernel := by
  unfold record
  split <;> rfl

theorem record_remember (world : World) (memory : List Bool) (event : Event) (answer : Answer) (kernel : IpcState) :
    World.record { world with kernel := { world.kernel with memory := memory } } event answer
      kernel = world.record event answer kernel := by
  unfold record
  split <;> rfl

def enter (world : World) (memory : List Bool) : IpcState :=
  { world.kernel with memory := memory }

theorem Ok.call (ok : world.Ok) (allowed : world.Allows event) (memory : List Bool) :
    (∃ answer kernel, world.call event memory = .ok answer kernel ∧
      event.Safe (world.enter memory) ∧ (world.record event answer kernel).Ok ∧
      Evolves world.kernel kernel ∧ world.Told event answer kernel) ∨
    (∃ kernel, world.call event memory = .error event.stop kernel ∧ ¬event.Safe (world.enter memory)) := by
  have allowed : World.Allows { world with kernel := world.enter memory } event := by
    cases event <;> exact allowed
  have runs : wp event.run _ _ (world.enter memory) := (ok.remember memory).runs allowed
  unfold wp at runs
  cases result : event.run (world.enter memory) with
  | ok answer kernel =>
    rw [result] at runs
    obtain ⟨safe, next, evolves, told⟩ := runs
    refine .inl ⟨answer, kernel, result, safe, ?_, ⟨evolves.nextChan, evolves.old⟩, ?_⟩
    · exact record_remember world memory event answer kernel ▸ next
    · cases event <;> exact told
  | error reason kernel =>
  rw [result] at runs
  obtain ⟨unsafe_, rfl⟩ := runs
  exact .inr ⟨kernel, result, unsafe_⟩

theorem Reached.ok (reached : Reached world) : world.Ok := by
  induction reached with
  | boot => exact boot_ok
  | call reached event memory allowed returned ih =>
  rcases ih.call allowed memory with
    ⟨answer, kernel, result, _, next, _⟩ | ⟨kernel, result, _⟩
  · rw [returned] at result
    cases result
    exact next
  · rw [returned] at result
    cases result

theorem Reached.returned (reached : Reached world) {memory : List Bool} (allowed : world.Allows event) {answer : Answer}
    {kernel : IpcState} (returned : world.call event memory = .ok answer kernel) :
    event.Safe (world.enter memory) ∧ Evolves world.kernel kernel ∧ world.Told event answer kernel := by
  rcases reached.ok.call allowed memory with
    ⟨_, _, result, safe, _, evolves, told⟩ | ⟨_, result, _⟩
  · rw [returned] at result
    cases result
    exact ⟨safe, evolves, told⟩
  · rw [returned] at result
    cases result

theorem Reached.returns_iff (reached : Reached world) (allowed : world.Allows event) (memory : List Bool) :
    (∃ answer kernel, world.call event memory = .ok answer kernel) ↔ event.Safe (world.enter memory) := by
  rcases reached.ok.call allowed memory with
    ⟨answer, kernel, result, safe, _⟩ | ⟨kernel, result, unsafe_⟩
  · exact ⟨fun _ => safe, fun _ => ⟨answer, kernel, result⟩⟩
  refine ⟨?_, fun safe => absurd safe unsafe_⟩
  rintro ⟨_, _, returned⟩
  rw [returned] at result
  cases result

end World

end Trusty.Ipc
