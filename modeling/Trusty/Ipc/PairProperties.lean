import Trusty.Ipc.SafetyProperties

/-!
# Pairs of channels

The two ends of a connection agree in every run, once a client is attached, until
both are gone.
-/

namespace Trusty.Ipc

open Option

namespace World

variable {world later : World}

def HasQueueOf (port : Port) (data : Chan) : Prop :=
  ∃ mq, data.msgQueue = some mq ∧ mq.numItems = port.numRecvBufs ∧ mq.itemSz = port.recvBufSize

def PendingAt (world : World) (chan : ChanId) (port : PortId) : Prop :=
  ∃ data, world.kernel.ports port = some data ∧ data.pendingList.count chan = 1

def Referenced (world : World) (chan : ChanId) : Prop :=
  0 < world.held chan ∨ chan ∈ world.kernel.waitingForPortChanList ∨
    (∃ port data, world.kernel.ports port = some data ∧ chan ∈ data.pendingList) ∨
    ∃ other data, world.kernel.chans other = some data ∧ data.peer = some chan

structure Paired (world : World) : Prop where
  connected : ∀ chan data, world.kernel.chans chan = some data → data.state = .connected →
    ∃ peer peerData, data.peer = some peer ∧ world.kernel.chans peer = some peerData ∧
      peerData.state = .connected ∧ peerData.peer = some chan ∧ peerData.server = !data.server ∧
      ∃ attachment ∈ world.kernel.attached, HasQueueOf attachment.port data ∧
        HasQueueOf attachment.port peerData ∧
        (attachment.client, attachment.server) =
          if data.server then (peer, chan) else (chan, peer)
  connecting : ∀ client data, world.kernel.chans client = some data → data.state = .connecting →
    ∃ server serverData, data.peer = some server ∧ world.kernel.chans server = some serverData ∧
      serverData.state = .accepting ∧ serverData.peer = some client ∧
      ∃! port, world.PendingAt server port
  alive : ∀ chan, (world.kernel.chans chan).isSome ↔ world.Referenced chan
  ended : ∀ attachment ∈ world.kernel.attached,
    world.kernel.Ended attachment.client ↔ world.kernel.Ended attachment.server

variable {data : Chan}

theorem Ok.attachment (ok : world.Ok) {chan peer : ChanId} (found : world.kernel.chans chan = some data)
    (connected : data.peer = some peer) (made : data.msgQueue.isSome) :
    ∃ attachment ∈ world.kernel.attached, HasQueueOf attachment.port data ∧ (attachment.client, attachment.server) =
        if data.server then (peer, chan) else (chan, peer) := by
  obtain ⟨mq, queue⟩ := isSome_iff_exists.mp made
  obtain ⟨attachment, member, own, other, numItems, itemSz⟩ := ok.resting.chans.logged chan data mq found queue
  refine ⟨attachment, member, ⟨mq, queue, numItems, itemSz⟩, ?_⟩
  split at own <;> simp_all

variable {chan : ChanId}

section

variable (ok : world.Ok)
include ok

theorem Ok.connected_pair (found : world.kernel.chans chan = some data) (connected : data.state = .connected) :
    ∃ peer peerData, data.peer = some peer ∧ world.kernel.chans peer = some peerData ∧
      peerData.state = .connected ∧ peerData.peer = some chan ∧ peerData.server = !data.server ∧
      ∃ attachment ∈ world.kernel.attached, HasQueueOf attachment.port data ∧ HasQueueOf attachment.port peerData ∧
        (attachment.client, attachment.server) = if data.server then (peer, chan) else (chan, peer) := by
  obtain ⟨peer, peerData, samePeer, peerFound, made, peerConnected, back, opposite, peerMade⟩ :=
    ok.peer_connected found connected
  obtain ⟨attachment, member, queue, ends⟩ := ok.attachment found samePeer made
  obtain ⟨second, secondMember, peerQueue, peerEnds⟩ := ok.attachment peerFound back peerMade
  -- Both ends were attached with the same server, hence at the same time.
  have same : attachment = second := by
    refine ok.traced.logged.eq_of_server member secondMember ?_
    cases server : data.server <;> simp_all
  exact ⟨peer, peerData, samePeer, peerFound, peerConnected, back, opposite, attachment, member,
    queue, same ▸ peerQueue, ends⟩

theorem Ok.pendingAt_iff (found : world.kernel.chans chan = some data) (port : PortId) :
    world.PendingAt chan port ↔ data.node = some (.pending port) := by
  constructor
  · rintro ⟨portData, portFound, once⟩
    have member : chan ∈ portData.pendingList := List.count_pos_iff.mp (once ▸ one_pos)
    obtain ⟨other, otherFound, node⟩ := (ok.resting.chans.pending port chan).mp ⟨portData, portFound, member⟩
    rw [found] at otherFound
    cases otherFound
    exact node
  · intro node
    obtain ⟨portData, portFound, member⟩ := (ok.resting.chans.pending port chan).mpr ⟨data, found, node⟩
    have nodup := ok.resting.chans.pendingNodup port portData portFound
    exact ⟨portData, portFound, List.count_eq_one_of_mem nodup member⟩

theorem Ok.connecting_pair {client : ChanId} (found : world.kernel.chans client = some data)
    (connecting : data.state = .connecting) :
    ∃ server serverData, data.peer = some server ∧ world.kernel.chans server = some serverData ∧
      serverData.state = .accepting ∧ serverData.peer = some client ∧
      ∃! port, world.PendingAt server port := by
  have shape := ok.resting.chans.shaped client data found
  simp only [Chan.Shaped, connecting] at shape
  obtain ⟨server, samePeer⟩ := isSome_iff_exists.mp shape.2.1
  obtain ⟨serverData, serverFound, matched⟩ := ok.resting.chans.matched client data server found samePeer
  simp only [Chan.Matches, connecting] at matched
  have serverShape := ok.resting.chans.shaped server serverData serverFound
  simp only [Chan.Shaped, matched.1, Tmp.rest] at serverShape
  obtain ⟨port, node⟩ : ∃ port, serverData.node = some (.pending port) := by grind
  refine ⟨server, serverData, samePeer, serverFound, matched.1, matched.2, port,
    (ok.pendingAt_iff serverFound port).mpr node, ?_⟩
  intro other pending
  have otherNode := (ok.pendingAt_iff serverFound other).mp pending
  rw [node] at otherNode
  cases otherNode
  rfl

theorem Ok.alive_iff (chan : ChanId) : (world.kernel.chans chan).isSome ↔ world.Referenced chan := by
  obtain ⟨⟨chans, ports⟩, held, traced⟩ := ok
  constructor
  · intro alive
    obtain ⟨data, found⟩ := isSome_iff_exists.mp alive
    obtain ⟨ref, referenced⟩ := chans.kept chan data found nofun
    cases ref with
    | tmp role => cases referenced
    | peer other =>
      obtain ⟨its, otherFound, peer⟩ := bind_eq_some_iff.mp referenced
      exact .inr (.inr (.inr ⟨other, its, otherFound, peer⟩))
    | node other =>
      obtain ⟨its, otherFound, own⟩ := bind_eq_some_iff.mp referenced
      obtain ⟨linked, ⟨⟩⟩ := ite_none_right_eq_some.mp own
      cases node : its.node with
      | none => simp [node] at linked
      | some place =>
      cases place with
      | waitingForPort =>
        exact .inr (.inl ((chans.waiting chan).mpr ⟨its, otherFound, node⟩))
      | pending port =>
      exact .inr (.inr (.inl ⟨port, (chans.pending port chan).mpr ⟨its, otherFound, node⟩⟩))
    | handle other =>
    obtain ⟨its, otherFound, own⟩ := bind_eq_some_iff.mp referenced
    obtain ⟨counted, ⟨⟩⟩ := ite_none_right_eq_some.mp own
    refine .inl ?_
    rw [← held, IpcState.refs_eq otherFound]
    exact counted
  · rintro (handle | waiting | ⟨port, pending⟩ | ⟨other, data, found, peer⟩)
    · obtain ⟨data, found, _⟩ := Ok.alive ⟨⟨chans, ports⟩, held, traced⟩ handle
      exact isSome_of_eq_some found
    · obtain ⟨data, found, _⟩ := (chans.waiting chan).mp waiting
      exact isSome_of_eq_some found
    · obtain ⟨data, found, _⟩ := (chans.pending port chan).mp pending
      exact isSome_of_eq_some found
    · obtain ⟨peerData, peerFound, _⟩ := chans.matched other data chan found peer
      exact isSome_of_eq_some peerFound

theorem Ok.ended_of_peer {peer : ChanId}
    (kept : ∀ data, world.kernel.chans chan = some data → data.state ≠ .disconnecting → data.peer = some peer)
    (ended : world.kernel.Ended peer) : world.kernel.Ended chan := by
  intro data found
  by_contra open_
  obtain ⟨peerData, peerFound, matched⟩ := ok.resting.chans.matched chan data peer found (kept data found open_)
  exact open_ (matched.disconnecting_iff.mpr (ended peerData peerFound))

theorem Ok.paired : world.Paired where
  connected := fun _ _ found connected => ok.connected_pair found connected
  connecting := fun _ _ found connecting => ok.connecting_pair found connecting
  alive := ok.alive_iff
  ended := fun attachment member =>
    have kept := ok.traced.logged.kept attachment member
    ⟨ok.ended_of_peer kept.server, ok.ended_of_peer kept.client⟩

end

theorem Leads.evolves (leads : Leads world later) (reached : Reached world) : Evolves world.kernel later.kernel := by
  induction leads with
  | refl => exact .refl _
  | call leads event memory allowed returned ih =>
  have step := (leads.reached reached).returned allowed returned
  rw [record_kernel]
  exact ih.trans step.2.1

/-- The call closes the channel. Closing a port closes the servers that are
pending at it. -/
def Closes (world : World) (event : Event) (chan : ChanId) : Prop :=
  match event with
  | .chanShutdown closed => closed = chan
  | .portShutdown port => ∃ data, world.kernel.ports port = some data ∧ chan ∈ data.pendingList
  | _ => False

theorem Reached.closed (reached : Reached world) {event : Event} {memory : List Bool} (allowed : world.Allows event)
    {answer : Answer} {kernel : IpcState} (returned : world.call event memory = .ok answer kernel)
    (closes : world.Closes event chan) : chan < world.kernel.nextChan ∧ kernel.Ended chan := by
  have chans := reached.ok.resting.chans
  have told := (reached.returned allowed returned).2.2
  cases event with
  | chanShutdown closed =>
    cases closes
    obtain ⟨data, found, _⟩ := reached.ok.alive allowed
    exact ⟨chans.below found, told⟩
  | portShutdown port =>
    obtain ⟨portData, portFound, member⟩ := closes
    obtain ⟨data, found, _⟩ := (chans.pending port chan).mp ⟨portData, portFound, member⟩
    exact ⟨chans.below found, told portData chan portFound member⟩
  | _ => cases closes

structure PairLaw (world : World) : Prop extends Paired world where
  stays : ∀ later, Leads world later → ∀ chan data, world.kernel.chans chan = some data →
    data.state = .disconnecting → later.kernel.Ended chan
  destroyed : ∀ later, Leads world later → ∀ chan, chan < world.kernel.nextChan →
    world.kernel.chans chan = none → later.kernel.chans chan = none
  unused : ∀ event memory kernel, world.Allows event →
    world.call event memory ≠ .error .freedMemory kernel
  closes : ∀ event memory answer kernel, world.Allows event →
    world.call event memory = .ok answer kernel → ∀ chan, world.Closes event chan →
    ∀ later, Leads (world.record event answer kernel) later →
      later.kernel.Ended chan ∧ ∀ attachment ∈ later.kernel.attached,
        chan = attachment.client ∨ chan = attachment.server →
          later.kernel.Ended attachment.client ∧ later.kernel.Ended attachment.server

/-- In every run the two ends of a connection keep to each other. -/
theorem pairs_kept (reached : Reached world) : world.PairLaw where
  toPaired := reached.ok.paired
  stays := by
    intro later leads chan data found disconnecting
    refine (leads.evolves reached).ended (reached.ok.resting.chans.below found) ?_
    intro other otherFound
    rw [found] at otherFound
    cases otherFound
    exact disconnecting
  destroyed := by
    intro later leads chan old gone
    rw [eq_none_iff_forall_ne_some]
    intro next found
    obtain ⟨data, before, _⟩ := (leads.evolves reached).old chan next old found
    rw [gone] at before
    cases before
  unused := by
    intro event memory kernel allowed stopped
    rcases reached.ok.call allowed memory with ⟨_, _, returned, _⟩ | ⟨_, stops, _⟩
    · rw [stopped] at returned
      cases returned
    · rw [stopped] at stops
      cases event <;> cases stops
  closes := by
    intro event memory answer kernel allowed returned chan closes later leads
    obtain ⟨old, ended⟩ := reached.closed allowed returned closes
    have next : Reached (world.record event answer kernel) := reached.call event memory allowed returned
    have evolves := leads.evolves next
    rw [record_kernel] at evolves
    have old := lt_of_lt_of_le old (reached.returned allowed returned).2.1.nextChan
    have still : later.kernel.Ended chan := evolves.ended old ended
    refine ⟨still, fun attachment member end_ => ?_⟩
    have both := (leads.reached next).ok.paired.ended attachment member
    rcases end_ with same | same
    · exact ⟨same ▸ still, both.mp (same ▸ still)⟩
    · exact ⟨both.mpr (same ▸ still), same ▸ still⟩

theorem connected_pair_kept : ∃ world, Reached world ∧ (∃ data, world.kernel.chans 0 = some data ∧
      data.state = .connected) ∧ world.PairLaw := by
  obtain ⟨world, reached, check⟩ := exists_reached connectedRun
    (fun world : World => (world.kernel.chans 0).any fun data : Chan =>
      decide (data.state = .connected)) (by decide)
  obtain ⟨data, found, connected⟩ := (any_eq_true _ _).mp check
  exact ⟨world, reached, ⟨data, found, of_decide_eq_true connected⟩, pairs_kept reached⟩

def Lets (port : Port) (uuid : Uuid) : Prop :=
  if isNsClient uuid then port.flags.allowNsConnect = true else port.flags.allowTaConnect = true

theorem lets_of_checkAccess {port : Port} {uuid : Uuid}
    (allowed : checkAccess port (some uuid) = .ok ()) : Lets port uuid := by
  unfold checkAccess at allowed
  unfold Lets
  grind

structure AccessLaw (world : World) : Prop where
  logged : ∀ client data server, world.kernel.chans client = some data → data.server = false →
    data.peer = some server →
    ∃ attachment ∈ world.kernel.attached, attachment.client = client ∧ attachment.server = server
  granted : ∀ attachment ∈ world.kernel.attached, ∃ uuid path,
    world.asked attachment.client = some (uuid, path) ∧ attachment.port.state = .listening ∧
      attachment.port.path = path ∧ Lets attachment.port uuid
  paths : ∀ port other data otherData, port ∈ world.kernel.ipcPortList →
    other ∈ world.kernel.ipcPortList → world.kernel.ports port = some data →
    world.kernel.ports other = some otherData → data.path = otherData.path → port = other
  accepted : ∀ handle memory chan uuid kernel, world.Allows (.accept handle) →
    world.call (.accept handle) memory = .ok (.accepted (.ok (chan, uuid))) kernel →
    ∃ data client own path, kernel.chans chan = some data ∧ data.peer = some client ∧
      world.asked client = some (own, path) ∧ uuid = some own

theorem Ok.queue_of_peer (ok : world.Ok) (found : world.kernel.chans chan = some data) (connected : data.peer.isSome) :
    data.msgQueue.isSome := by
  have shape := ok.resting.chans.shaped chan data found
  rw [ok.queue_iff found]
  by_contra named
  have named := isSome_iff_ne_none.mpr named
  simp only [Chan.Shaped, Tmp.rest, Tmp.Has] at shape
  split at shape <;> grind

theorem Reached.accepted (reached : Reached world) {handle : Option Handle} {memory : List Bool} {uuid : Option Uuid}
    {kernel : IpcState} (allowed : world.Allows (.accept handle))
    (returned : world.call (.accept handle) memory = .ok (.accepted (.ok (chan, uuid))) kernel) :
    ∃ data client own path, kernel.chans chan = some data ∧ data.peer = some client ∧
      world.asked client = some (own, path) ∧ uuid = some own := by
  obtain ⟨data, client, clientData, found, connected, server, peer, clientFound, named⟩ :=
    (reached.returned allowed returned).2.2 chan uuid rfl
  have next : Ok (world.record (.accept handle) (.accepted (.ok (chan, uuid))) kernel) :=
    (reached.call (.accept handle) memory allowed returned).ok
  obtain ⟨other, otherFound, matched⟩ := next.resting.chans.matched chan data client found peer
  have same : clientData = other := some_inj.mp (clientFound.symm.trans otherFound)
  simp only [Chan.Matches, connected, server] at matched
  obtain ⟨own, path, asked, sameUuid, _⟩ := next.traced.clients client clientData clientFound (same ▸ matched.2.2)
  exact ⟨data, client, own, path, found, peer, asked, named.symm.trans sameUuid⟩

/-- In every run clients get connected only to ports that let them in. -/
theorem access_controlled (reached : Reached world) : world.AccessLaw where
  logged := by
    intro client data server found isClient connected
    have queue := reached.ok.queue_of_peer found (connected ▸ rfl)
    obtain ⟨attachment, member, _, ends⟩ := reached.ok.attachment found connected queue
    rw [isClient] at ends
    cases ends
    exact ⟨attachment, member, rfl, rfl⟩
  granted := by
    intro attachment member
    obtain ⟨uuid, path, asked, listening, samePath, allowed⟩ := reached.ok.traced.granted attachment member
    exact ⟨uuid, path, asked, listening, samePath, lets_of_checkAccess allowed⟩
  paths := by
    intro port other data otherData listed otherListed found otherFound samePath
    have ports := reached.ok.resting.ports
    refine ports.paths port other data otherData found otherFound ?_ ?_ samePath
    · obtain ⟨same, sameFound, node⟩ := (ports.listed port).mp listed
      rw [found] at sameFound
      cases sameFound
      exact node
    · obtain ⟨same, sameFound, node⟩ := (ports.listed other).mp otherListed
      rw [otherFound] at sameFound
      cases sameFound
      exact node
  accepted := fun _ _ _ _ _ allowed returned => reached.accepted allowed returned

theorem connected_client_let_in : ∃ world, Reached world ∧ world.kernel.attached ≠ [] ∧ world.AccessLaw := by
  obtain ⟨world, reached, check⟩ := exists_reached connectedRun
    (fun world : World => !world.kernel.attached.isEmpty) (by decide)
  refine ⟨world, reached, ?_, access_controlled reached⟩
  simpa using check

/-- In every run a port counts all that refer to it. -/
theorem ports_counted (reached : Reached world) : PortsOk world.portHeld world.kernel := reached.ok.resting.ports

theorem listed_port_counted : ∃ world, Reached world ∧ world.kernel.ipcPortList = [0] ∧
    PortsOk world.portHeld world.kernel := by
  obtain ⟨world, reached, check⟩ := exists_reached connectedRun
    (fun world => world.kernel.ipcPortList = [0]) (by decide)
  exact ⟨world, reached, of_decide_eq_true check, ports_counted reached⟩

end World

end Trusty.Ipc
