import Trusty.Ipc.PublishProperties

/-!
# Accepting a connection

The server takes the first pending connection of its port. If the client has
gone, it is closed and nothing is left of it.
-/

namespace Trusty.Ipc

open StateLogic IpcState

/-- The local reference of `ipc_port_accept`. -/
def Tmp.server (chan : ChanId) : Tmp := Tmp.rest.set .server (some chan)

theorem Tmp.server_clear (chan : ChanId) : (Tmp.server chan).set .server none = .rest := by
  funext role
  simp [Tmp.server, Tmp.set_apply, Tmp.rest]

def IpcState.take (state : IpcState) (server : ChanId) (data : Chan) (port : PortId)
    (portData : Port) : IpcState :=
  ((state.addLink (.tmp .server) server).unpend server data port portData).setPort port
    (some { portData with
      pendingList := portData.pendingList.erase server, refcnt := portData.refcnt - 1 })

variable {stop : Stop → IpcState → Prop}

section Take

variable {callers : PortId → Nat} {state : IpcState} {port : PortId} {portData : Port}
  {server : ChanId} {data : Chan}

structure Takeable (callers : PortId → Nat) (state : IpcState) (port : PortId) (portData : Port)
    (server : ChanId) (data : Chan) : Prop extends Resting callers state where
  held : 0 < callers port
  portFound : state.ports port = some portData
  found : state.chans server = some data
  node : data.node = some (.pending port)

namespace Takeable

section

variable (takeable : Takeable callers state port portData server data)

include takeable

theorem pending : server ∈ portData.pendingList := by
  obtain ⟨other, found, member⟩ := (takeable.chans.pending port server).mpr ⟨data, takeable.found, takeable.node⟩
  rw [takeable.portFound] at found
  cases found
  exact member

theorem notLast : portData.refcnt ≠ 1 := by
  have refcnt := takeable.ports.refcnt port portData takeable.portFound
  have length := List.length_pos_of_mem takeable.pending
  have held := takeable.held
  omega

theorem valid : data.state = .accepting ∨ data.state = .disconnecting := by
  have shape := takeable.chans.shaped server data takeable.found
  have node := takeable.node
  simp only [Chan.Shaped] at shape
  split at shape <;> grind

theorem chans_take : ChansOk (.server server) none (state.take server data port portData) := by
  have shape := takeable.chans.shaped server data takeable.found
  have shaped : Chan.Shaped { data with node := none } (.server server) server := by
    rcases takeable.valid with same | same
    · simp only [Chan.Shaped, same] at shape ⊢
      exact ⟨shape.1, shape.2.1, shape.2.2.1, shape.2.2.2.1, shape.2.2.2.2.1, .inr ⟨rfl, trivial⟩⟩
    · simp only [Chan.Shaped, same] at shape ⊢
      exact ⟨by simp, shape.2⟩
  have added : ChansOk (.server server) none (state.addLink (.tmp .server) server) :=
    takeable.chans.addTmp rfl takeable.found
  have alive : (state.addLink (.tmp .server) server).chans server = some data := takeable.found
  have loose : ChansOk (.server server) (some server)
      ((state.addLink (.tmp .server) server).unpend server data port portData) :=
    added.unlinkPending alive takeable.node takeable.portFound shaped fun free => absurd ⟨.server, rfl⟩ free
  have tight := loose.tighten ⟨.tmp .server, rfl⟩
  exact tight.setPort (setPort_ports_self ..) _ rfl

theorem ports_take : PortsOk callers (state.take server data port portData) := by
  have owned := takeable.ports.erasePending takeable.portFound takeable.pending
  have dropped := owned.decrefOwned (setPort_ports_self ..)
  rw [if_neg takeable.notLast] at dropped
  exact dropped.congr rfl rfl rfl

theorem frame_take : Frame state (state.take server data port portData) := by
  have unlinked := Frame.setChan takeable.found takeable.chans.fresh (Chan.onward_unlinked data) rfl
  exact unlinked.trans (.of_eq rfl rfl rfl takeable.chans_take.fresh)

theorem wp_take {α : Type} {post : α → IpcState → Prop} (rest : IpcM α) : wp (do
        listDelete server
        chanAddRef server (.tmp .server)
        chanDelRef server (.node server)
        portHandleDecref port
        rest) post stop state ↔
      wp rest post stop (state.take server data port portData) := by
  have unlinked : References.linked state.links (.tmp .server) = false := takeable.chans.unlinked rfl
  have nodeHeld : state.holder .rest (.node server) = some server := by
    simp [IpcState.holder, takeable.found, takeable.node]
  have linked : References.linked (References.add state.links (.tmp .server) server) (.node server) = true := by
    rw [References.linked_add, takeable.chans.linked nodeHeld, Bool.true_or]
  have added : ChansOk (.server server) none (state.addLink (.tmp .server) server) :=
    takeable.chans.addTmp rfl takeable.found
  have ne : Ref.tmp .server ≠ .node server := by simp
  have referenced : References.referenced (References.drop (References.add state.links
      (.tmp .server) server) (.node server)) server = true :=
    added.still_referenced ne rfl
  have alive : ((state.setChan server (some { data with node := none })).setPort port
      (some { portData with pendingList := portData.pendingList.erase server })).chans server =
        some { data with node := none } := by
    simp
  have stillAlive : (((state.setChan server (some { data with node := none })).setPort port
      (some { portData with pendingList := portData.pendingList.erase server })).addLink
        (.tmp .server) server).chans server = some { data with node := none } :=
    alive
  have stays : ((state.addLink (.tmp .server) server).unpend server data port portData).settle
      server = (state.addLink (.tmp .server) server).unpend server data port portData :=
    if_pos referenced
  have there : ((state.addLink (.tmp .server) server).unpend server data port portData).ports
      port = some { portData with pendingList := portData.pendingList.erase server } := by
    simp [IpcState.unpend]
  rw [wp_bind, wp_listDelete_pending takeable.found takeable.node takeable.portFound, wp_bind,
    wp_chanAddRef alive unlinked, wp_bind]
  refine (wp_chanDelRef stillAlive linked (absurd · (ne_false_of_eq_true referenced))).trans ?_
  refine (iff_of_eq (congrArg (wp _ _ _) stays)).trans ?_
  rw [wp_bind, wp_portHandleDecref there, if_neg takeable.notLast]
  rfl

end

end Takeable

end Take

structure Accepted (tmp : Tmp) (callers : PortId → Nat) (state : IpcState) (server : ChanId)
    (uuid : Option Uuid) (final : IpcState) : Prop where
  chans : ChansOk tmp none final
  ports : PortsOk callers final
  later : Later state final
  refs : final.refs = Function.update state.refs server 1
  attached : final.attached = state.attached
  server : ∃ data client clientData, final.chans server = some data ∧ data.refcnt = 1 ∧
    data.Shaped .rest server ∧ data.state = .connected ∧ data.server = true ∧
    data.peer = some client ∧
    final.chans client = some clientData ∧ clientData.uuid = uuid

structure Rejected (tmp : Tmp) (callers : PortId → Nat) (state : IpcState) (server : ChanId)
    (final : IpcState) : Prop where
  chans : ChansOk tmp none final
  ports : PortsOk callers final
  frame : Frame state final
  server : ∃ data, final.chans server = some data ∧ data.state = .disconnecting ∧ data.peer = none

section Accept

variable {callers : PortId → Nat} {state : IpcState} {server : ChanId} {data : Chan}

theorem reject (chans : ChansOk (.server server) none state) (ports : PortsOk callers state)
    (found : state.chans server = some data) (valid : data.state = .accepting ∨ data.state = .disconnecting) :
    wp (chanShutdownLocked server) (fun _ => Rejected (.server server) callers state server)
      (fun _ _ => False) state := by
  have open_ : data.state ≠ .invalid ∧ data.state ≠ .waitingForPort := by grind
  apply wp_mono (chanShutdownLocked_shutDown chans found open_.1
    fun waiting => absurd waiting open_.2) _ fun _ _ stops => stops
  intro _ final shutDown
  exact ⟨shutDown.chans, ports.congr shutDown.ports shutDown.list shutDown.nextPort,
    shutDown.frame, data.closed, shutDown.closed, rfl, rfl⟩

def IpcState.connectPair (state : IpcState) (server : ChanId) (data : Chan) (client : ChanId)
    (clientData : Chan) : IpcState :=
  (state.setChan server (some { data with state := .connected })).setChan client
    (some { clientData with
      state := .connected, aux := { clientData.aux with connected := true } })

section Pair

variable {client : ChanId} {clientData : Chan}

theorem Frame.connectPair (chans : ChansOk (.server server) none state) (found : state.chans server = some data)
    (accepting : data.state = .accepting) (clientFound : state.chans client = some clientData)
    (connecting : clientData.state = .connecting) (ne : client ≠ server) :
    Frame state (state.connectPair server data client clientData) := by
  have onward : data.Onward { data with state := .connected } := { Chan.Onward.refl data with
      disconnecting := fun same => nomatch accepting.symm.trans same
      peer := fun _ _ => rfl }
  have clientOnward : clientData.Onward { clientData with
      state := .connected, aux := { clientData.aux with connected := true } } :=
    { Chan.Onward.refl clientData with
      disconnecting := fun same => nomatch connecting.symm.trans same
      peer := fun _ _ => rfl }
  have clientThere : (state.setChan server (some { data with state := .connected })).chans client =
      some clientData := by
    rw [setChan_chans_ne _ _ _ _ ne, clientFound]
  have first := Frame.setChan found chans.fresh onward rfl
  refine first.trans (.setChan clientThere ?_ clientOnward rfl)
  intro other above
  have absent := chans.fresh other above
  grind

theorem wp_connectPair {α : Type} {post : α → IpcState → Prop} (found : state.chans server = some data)
    (clientFound : state.chans client = some clientData) (ne : client ≠ server) (rest : IpcM α) :
    wp (do
        modifyChan server fun data => { data with state := .connected }
        modifyChan client fun data => { data with state := .connected }
        modifyChan client fun data => { data with aux := { data.aux with connected := true } }
        rest) post stop state ↔
      wp rest post stop (state.connectPair server data client clientData) := by
  simp only [modifyChan, getChan, setChan, wp_bind, wp_get, wp_pure, wp_modify, found, clientFound,
    setChan_chans_ne _ _ _ _ ne, setChan_chans_self]
  refine iff_of_eq (congrArg (wp _ _ _) ?_)
  simp only [IpcState.connectPair, IpcState.setChan, Function.update_idem]

theorem acceptPair_spec (chans : ChansOk (.server server) none state) (ports : PortsOk callers state)
    (found : state.chans server = some data) (accepting : data.state = .accepting) (unqueued : data.node = none)
    (unheld : data.refcnt = 0) (connected : data.peer = some client)
    (clientFound : state.chans client = some clientData) (connecting : clientData.state = .connecting) :
    wp (chanHandleInit server) (fun _ => Accepted (.server server) callers state server clientData.uuid)
      (fun _ _ => False) (state.connectPair server data client clientData) := by
  have ne : client ≠ server := fun same => chans.apart server data found (same ▸ connected)
  have paired : ChansOk (.server server) none (state.connectPair server data client clientData) :=
    chans.accept clientFound found connected connecting accepting unqueued
  have alive : (state.connectPair server data client clientData).chans server =
      some { data with state := .connected } := by
    simp [IpcState.connectPair, ne.symm]
  have unlinked : References.linked (state.connectPair server data client clientData).links (.handle server) = false :=
    paired.unlinked (by simp [IpcState.holder, alive, unheld])
  have frame := Frame.connectPair chans found accepting clientFound connecting ne
  have opened := paired.initHandle alive unheld (by simp) (by simp) (by simp [unqueued])
  have shape := chans.shaped server data found
  simp only [Chan.Shaped, accepting] at shape
  rw [wp_chanHandleInit alive unlinked]
  constructor
  · exact opened
  · exact ports.congr rfl rfl rfl
  · have onward : Chan.Onward { data with state := .connected } { data with state := .connected, refcnt := 1 } :=
      { Chan.Onward.refl _ with }
    have started := frame.later.trans (.setChan alive paired.fresh onward)
    exact started.trans (.of_eq rfl rfl opened.fresh)
  · change ((state.connectPair server data client clientData).setChan server
      (some { data with state := .connected, refcnt := 1 })).refs = _
    rw [refs_update, frame.refs]
  · exact frame.attached
  · refine ⟨_, client, { clientData with
      state := .connected, aux := { clientData.aux with connected := true } },
      setChan_chans_self .., rfl, ?_, rfl, shape.1, connected, ?_, rfl⟩
    · exact ⟨shape.2.1, unqueued, shape.2.2.1, shape.2.2.2.1⟩
    · simp [IpcState.connectPair, ne]

end Pair

theorem acceptServer_spec (chans : ChansOk (.server server) none state) (ports : PortsOk callers state)
    (found : state.chans server = some data) (valid : data.state = .accepting ∨ data.state = .disconnecting)
    (unqueued : data.node = none) (unheld : data.refcnt = 0) :
    wp (acceptServer server) (fun result final => match result with
        | .ok (chan, uuid) => chan = server ∧
            Accepted (.server server) callers state server uuid final
        | .error _ => Rejected (.server server) callers state server final)
      (fun _ _ => False) state := by
  have rejected := reject chans ports found valid
  rw [acceptServer, wp_bind, wp_getChan found]
  cases connected : data.peer with
  | none =>
    rw [wp_bind]
    exact wp_mono rejected (fun _ _ closed => closed) fun _ _ stops => stops
  | some client =>
  obtain ⟨clientData, clientFound, matched⟩ := chans.matched server data client found connected
  rw [wp_bind, wp_getChan clientFound]
  by_cases ready : data.state ≠ .accepting ∨ clientData.state ≠ .connecting
  · rw [if_pos ready, wp_bind]
    exact wp_mono rejected (fun _ _ closed => closed) fun _ _ stops => stops
  rw [if_neg ready]
  simp only [not_or, not_not] at ready
  obtain ⟨accepting, connecting⟩ := ready
  have ne : client ≠ server := fun same =>
    chans.apart server data found (same ▸ connected)
  have accepted := acceptPair_spec chans ports found accepting unqueued unheld connected clientFound connecting
  rw [wp_connectPair found clientFound ne, wp_bind]
  exact wp_mono accepted (fun _ final accepted => ⟨rfl, accepted⟩) fun _ _ stops => stops

theorem Accepted.release {uuid : Option Uuid} {current : IpcState}
    (accepted : Accepted (.server server) callers state server uuid current) :
    wp (chanDelRef server (.tmp .server))
      (fun _ => Accepted .rest callers state server uuid) (fun _ _ => False) current := by
  obtain ⟨data, client, clientData, found, refcnt, shaped, others⟩ := accepted.server
  have held : 0 < data.refcnt := by omega
  have back := Tmp.server_clear server
  have released := accepted.chans.releaseHeld rfl found held (back ▸ shaped)
  rw [accepted.chans.wp_releaseHeld rfl found held]
  exact ⟨back ▸ released, accepted.ports.congr rfl rfl rfl,
    accepted.later.trans (.dropLink _ accepted.chans.fresh), accepted.refs, accepted.attached,
    data, client, clientData, found, refcnt, shaped, others⟩

/-- The server that the call has closed goes with the local reference, unless
something else still refers to it. -/
theorem Rejected.release {current : IpcState} (rejected : Rejected (.server server) callers state server current) :
    wp (chanDelRef server (.tmp .server))
      (fun _ final => Resting callers final ∧ Frame state final) (fun _ _ => False) current := by
  obtain ⟨data, found, disconnecting, alone⟩ := rejected.server
  have back := Tmp.server_clear server
  have shape := rejected.chans.shaped server data found
  have shaped : data.Shaped .rest server := by
    simp only [Chan.Shaped, disconnecting] at shape ⊢
    exact shape
  have loose := rejected.chans.delTmp rfl found (back ▸ shaped) fun _ _ => alone
  rw [back] at loose
  have alive : (current.dropLink (.tmp .server)).chans server = some data := found
  have bare := loose.bare alive
  have tmpHeld : current.holder (.server server) (.tmp .server) = some server := rfl
  rw [wp_chanDelRef found (rejected.chans.linked tmpHeld) fun unreferenced =>
    ⟨(bare unreferenced).1, (bare unreferenced).2.1⟩]
  refine ⟨⟨loose.settle alive, rejected.ports.congr ?_ ?_ ?_⟩, ?_⟩
  · rw [settle_ports]
    rfl
  · rw [settle_listed]
    rfl
  · rw [settle_nextPort]
    rfl
  · have dropped : Frame current (current.dropLink (.tmp .server)) := .of_eq rfl rfl rfl rejected.chans.fresh
    exact (rejected.frame.trans dropped).trans (.settle loose alive)

theorem portAccept_spec {port : PortId} (resting : Resting callers state) (held : 0 < callers port) :
    wp (portAccept port) (fun result final => match result with
        | .ok (chan, uuid) => Accepted .rest callers state chan uuid final
        | .error _ => Resting callers final ∧ Frame state final)
      (fun _ _ => False) state := by
  have unchanged : Resting callers state ∧ Frame state state := ⟨resting, .of_eq rfl rfl rfl resting.chans.fresh⟩
  obtain ⟨portData, portFound⟩ := Option.isSome_iff_exists.mp (resting.ports.alive port held)
  rw [portAccept, wp_bind, wp_getPort portFound]
  split
  · exact unchanged
  cases pendingList : portData.pendingList with
  | nil => exact unchanged
  | cons server rest =>
  have pending : server ∈ portData.pendingList := by simp [pendingList]
  obtain ⟨data, found, node⟩ := (resting.chans.pending port server).mp ⟨portData, portFound, pending⟩
  have takeable : Takeable callers state port portData server data :=
    { resting with held := held, portFound := portFound, found := found, node := node }
  have frame := takeable.frame_take
  have alive : (state.take server data port portData).chans server = some { data with node := none } := by
    simp [IpcState.take, IpcState.unpend]
  have unheld := (resting.chans.pendingShape server data port found node).2
  rw [takeable.wp_take, wp_bind]
  apply wp_mono (acceptServer_spec takeable.chans_take takeable.ports_take alive
    takeable.valid rfl unheld) _ fun _ _ stops => stops
  intro result middle outcome
  rw [wp_bind]
  cases result with
  | error reason =>
    apply wp_mono outcome.release _ fun _ _ stops => stops
    exact fun _ final released => ⟨released.1, frame.trans released.2⟩
  | ok value =>
  obtain ⟨chan, uuid⟩ := value
  obtain ⟨rfl, accepted⟩ := outcome
  apply wp_mono accepted.release _ fun _ _ stops => stops
  intro _ final released
  exact { released with
    later := frame.later.trans released.later
    refs := by rw [released.refs, frame.refs]
    attached := released.attached.trans frame.attached }

end Accept

end Trusty.Ipc
