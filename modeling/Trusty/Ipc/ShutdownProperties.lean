import Trusty.Ipc.ReferenceProperties

/-!
# Closing channels and ports

Closing a channel disconnects both ends and gives up the peer. No assertion
fails on the way, whoever closes first.
-/

namespace Trusty.Ipc

open StateLogic List Option IpcState Function

def Chan.closed (data : Chan) : Chan :=
  { data with
    state := .disconnecting
    peer := none
    node := if data.node = some .waitingForPort then none else data.node }

theorem Chan.onward_closed (data : Chan) : data.Onward data.closed where
  uuid := rfl
  server := rfl
  disconnecting := fun _ => rfl
  closed := fun _ _ => rfl
  peer := fun _ open_ => absurd rfl open_
  path := .inr rfl
  queue := fun _ => rfl
  created := fun none mq made => by
    rw [Chan.closed, none] at made
    cases made

theorem Chan.onward_disconnecting (data : Chan) : data.Onward { data with state := .disconnecting } :=
  { Chan.Onward.refl data with
    disconnecting := fun _ => rfl
    peer := fun _ open_ => absurd rfl open_ }

theorem Chan.onward_unlinked (data : Chan) : data.Onward { data with node := none } := { Chan.Onward.refl data with }

structure ShutDown (tmp : Tmp) (state : IpcState) (chan : ChanId) (data : Chan)
    (final : IpcState) : Prop where
  chans : ChansOk tmp none final
  closed : final.chans chan = some data.closed
  frame : Frame state final
  ports : final.ports = state.ports
  list : final.ipcPortList = state.ipcPortList
  nextPort : final.nextPort = state.nextPort

section ShutdownState

variable {tmp : Tmp} {state : IpcState} {chan : ChanId} {data : Chan}
  {post : Unit → IpcState → Prop} {stop : Stop → IpcState → Prop}

section

variable (found : state.chans chan = some data)
include found

theorem IpcState.setChan_self : state.setChan chan (some data) = state := by
  rw [setChan, ← found, update_eq_self]

theorem wp_chanShutdownState (valid : data.state ≠ .invalid) (served : data.state ≠ .waitingForPort) :
    wp (chanShutdownState chan) post stop state ↔
      post () (state.setChan chan (some { data with state := .disconnecting })) := by
  rw [chanShutdownState, wp_bind, wp_getChan found]
  cases same : data.state with
  | invalid => contradiction
  | waitingForPort => contradiction
  | connected | connecting | accepting => exact wp_modifyChan found
  | disconnecting =>
  have already : { data with state := .disconnecting } = data := by
    rw [← same]
  rw [already, state.setChan_self found]
  exact wp_pure ()

theorem wp_chanShutdownState_unqueued (waiting : data.state = .waitingForPort) (unqueued : data.node = none) :
    wp (chanShutdownState chan) post stop state ↔ stop (.assertion .waitingInList) state := by
  rw [chanShutdownState, wp_bind, wp_getChan found]
  simp [waiting, unqueued]

end

theorem wp_chanShutdownState_waiting (ok : ChansOk tmp none state) (found : state.chans chan = some data)
    (waiting : data.state = .waitingForPort) (queued : data.node = some .waitingForPort) (held : 0 < data.refcnt) :
    wp (chanShutdownState chan) post stop state ↔ post () (((state.setChan chan (some { data with
        node := none, state := .disconnecting })).setWaiting
          (state.waitingForPortChanList.erase chan)).dropLink (.node chan)) := by
  have nodeHeld : state.holder tmp (.node chan) = some chan := by
    simp [IpcState.holder, found, queued]
  have handleHeld : state.holder tmp (.handle chan) = some chan := by
    simp [IpcState.holder, found, held]
  have referenced : References.referenced (References.drop state.links (.node chan)) chan = true :=
    ok.still_referenced (by simp) handleHeld
  have unlinked : ((state.setChan chan (some { data with node := none })).setWaiting
      (state.waitingForPortChanList.erase chan)).chans chan = some { data with node := none } := by
    simp
  rw [chanShutdownState, wp_bind, wp_getChan found]
  simp only [waiting, queued, isNone_some, Bool.false_eq_true, if_false]
  rw [wp_bind, wp_listDelete_waiting found queued, wp_bind, wp_chanDelRef unlinked (ok.linked nodeHeld)
      (absurd · (ne_false_of_eq_true referenced))]
  have stays : (((state.setChan chan (some { data with node := none })).setWaiting
      (state.waitingForPortChanList.erase chan)).dropLink (.node chan)).settle chan =
      (((state.setChan chan (some { data with node := none })).setWaiting
        (state.waitingForPortChanList.erase chan)).dropLink (.node chan)) :=
    if_pos referenced
  have alive : (((state.setChan chan (some { data with node := none })).setWaiting
      (state.waitingForPortChanList.erase chan)).dropLink (.node chan)).chans chan =
        some { data with node := none } := by
    simp
  rw [stays, wp_modifyChan alive]
  simp only [IpcState.setChan, IpcState.setWaiting, IpcState.dropLink, update_idem]

theorem IpcState.settle_setChan {peer : ChanId} (ne : peer ≠ chan) (next : Option Chan) :
    (state.settle peer).setChan chan next = (state.setChan chan next).settle peer := by
  unfold settle
  by_cases referenced : References.referenced state.links peer = true
  · rw [setChan_links, if_pos referenced, if_pos referenced]
  · rw [setChan_links, if_neg referenced, if_neg referenced]
    simp only [setChan, update_comm ne]

section

variable (ok : ChansOk tmp none state) (found : state.chans chan = some data)
include ok found

theorem ShutDown.of_waiting (waiting : data.state = .waitingForPort) (queued : data.node = some .waitingForPort)
    (held : 0 < data.refcnt) :
    ShutDown tmp state chan data (((state.setChan chan (some data.closed)).setWaiting
      (state.waitingForPortChanList.erase chan)).dropLink (.node chan)) := by
  have shape := ok.shaped chan data found
  simp only [Chan.Shaped, waiting] at shape
  have shaped : data.closed.Shaped tmp chan := by
    simp only [Chan.Shaped, Chan.closed]
    grind
  have unlinked : data.closed.node = none := by
    simp [Chan.closed, queued]
  have loose := ok.unlinkWaiting found queued rfl unlinked rfl shape.2.2.1 shaped
  -- The handle is still there, so that the channel is not destroyed.
  have kept : ∃ ref, (((state.setChan chan (some data.closed)).setWaiting
      (state.waitingForPortChanList.erase chan)).dropLink (.node chan)).holder tmp ref = some chan :=
    ⟨.handle chan, by simp [IpcState.holder, Chan.closed, held]⟩
  constructor
  · exact loose.tighten kept
  · simp
  · have closing := Frame.setChan found ok.fresh data.onward_closed rfl
    exact closing.trans (.of_eq rfl rfl rfl loose.fresh)
  all_goals rfl

theorem ShutDown.of_closed (disconnecting : data.state = .disconnecting)
    (alone : data.peer = none) : ShutDown tmp state chan data state := by
  have shape := ok.shaped chan data found
  simp only [Chan.Shaped, disconnecting] at shape
  have already : data.closed = data := by
    simp [Chan.closed, ← disconnecting, ← alone, shape.1]
  exact ⟨ok, by rw [already, found], .of_eq rfl rfl rfl ok.fresh, rfl, rfl, rfl⟩

end

def IpcState.disconnectPair (state : IpcState) (chan : ChanId) (data : Chan) (peer : ChanId)
    (peerData : Chan) : IpcState :=
  (state.setChan chan (some { data with state := .disconnecting })).setChan peer
    (some { peerData with state := .disconnecting })

section Pair

variable {peer : ChanId} {peerData : Chan}

section

variable (ok : ChansOk tmp none state) (found : state.chans chan = some data)
include ok found

theorem Frame.disconnectPair (peerFound : state.chans peer = some peerData) (ne : peer ≠ chan) :
    Frame state (state.disconnectPair chan data peer peerData) := by
  have peerThere : (state.setChan chan (some { data with state := .disconnecting })).chans peer = some peerData := by
    rw [setChan_chans_ne _ _ _ _ ne, peerFound]
  have first := Frame.setChan found ok.fresh data.onward_disconnecting rfl
  refine first.trans (.setChan peerThere ?_ peerData.onward_disconnecting rfl)
  intro other above
  have none := ok.fresh other above
  grind

theorem ShutDown.of_connected (connected : data.peer = some peer)
    (peerFound : state.chans peer = some peerData) (unqueued : data.node ≠ some .waitingForPort) :
    ShutDown tmp state chan data
      ((((state.disconnectPair chan data peer peerData).setChan chan
        (some data.closed)).dropLink (.peer chan)).settle peer) := by
  have ne : peer ≠ chan := fun same => ok.apart chan data found (same ▸ connected)
  have paired : ChansOk tmp none (state.disconnectPair chan data peer peerData) :=
    ok.disconnect found connected peerFound
  have alive : (state.disconnectPair chan data peer peerData).chans chan =
      some { data with state := .disconnecting } := by
    rw [IpcState.disconnectPair, setChan_chans_ne _ _ _ _ ne.symm,
      setChan_chans_self]
  have closed : data.closed = { data with state := .disconnecting, peer := none } := by
    simp [Chan.closed, unqueued]
  have loose : ChansOk tmp (some peer) (((state.disconnectPair chan data peer peerData).setChan
      chan (some data.closed)).dropLink (.peer chan)) :=
    closed ▸ paired.dropPeer alive connected rfl
  have peerAlive : (((state.disconnectPair chan data peer peerData).setChan
      chan (some data.closed)).dropLink (.peer chan)).chans peer =
        some { peerData with state := .disconnecting } := by
    simp [IpcState.disconnectPair, ne]
  have pairFrame := Frame.disconnectPair ok found peerFound ne
  have closeFrame : Frame (state.disconnectPair chan data peer peerData)
      (((state.disconnectPair chan data peer peerData).setChan chan (some data.closed)).dropLink
        (.peer chan)) := by
    have closing := Frame.setChan alive paired.fresh (Chan.onward_closed _) rfl
    exact closing.trans (.of_eq rfl rfl rfl loose.fresh)
  constructor
  · exact loose.settle peerAlive
  · rw [settle_chans_ne ne.symm]
    simp
  · exact (pairFrame.trans closeFrame).trans (.settle loose peerAlive)
  all_goals
    unfold IpcState.settle
    split <;> rfl

theorem wp_releasePeer (connected : data.peer = some peer) (peerFound : state.chans peer = some peerData)
    (unqueued : data.node ≠ some .waitingForPort) (valid : peerData.state ≠ .invalid)
    (served : peerData.state ≠ .waitingForPort) :
    wp (do
        chanShutdownState peer
        chanDelRef peer (.peer chan)
        modifyChan chan fun data => { data with peer := none }) post stop
        (state.setChan chan (some { data with state := .disconnecting })) ↔
      post () ((((state.disconnectPair chan data peer peerData).setChan chan
        (some data.closed)).dropLink (.peer chan)).settle peer) := by
  have ne : peer ≠ chan := fun same => ok.apart chan data found (same ▸ connected)
  have paired : ChansOk tmp none (state.disconnectPair chan data peer peerData) :=
    ok.disconnect found connected peerFound
  have peerThere : (state.setChan chan (some { data with state := .disconnecting })).chans peer = some peerData := by
    rw [setChan_chans_ne _ _ _ _ ne, peerFound]
  have alive : (state.disconnectPair chan data peer peerData).chans chan =
      some { data with state := .disconnecting } := by
    simp [IpcState.disconnectPair, ne.symm]
  have peerAlive : (state.disconnectPair chan data peer peerData).chans peer =
      some { peerData with state := .disconnecting } := by
    simp [IpcState.disconnectPair]
  have peerHeld : (state.disconnectPair chan data peer peerData).holder tmp (.peer chan) = some peer := by
    simp [IpcState.holder, alive, connected]
  have loose := paired.dropPeer alive connected rfl
  have peerLoose : (((state.disconnectPair chan data peer peerData).setChan chan
      (some { data with state := .disconnecting, peer := none })).dropLink (.peer chan)).chans peer =
        some { peerData with state := .disconnecting } := by
    simp [IpcState.disconnectPair, ne]
  have bare := loose.bare peerLoose
  have stillAlive : (((state.disconnectPair chan data peer peerData).dropLink
      (.peer chan)).settle peer).chans chan = some { data with state := .disconnecting } := by
    rw [settle_chans_ne ne.symm, dropLink_chans, alive]
  have closed : { data with state := .disconnecting, peer := none } = data.closed := by
    simp [Chan.closed, unqueued]
  rw [wp_bind, wp_chanShutdownState peerThere valid served, ← IpcState.disconnectPair, wp_bind,
    wp_chanDelRef peerAlive (paired.linked peerHeld) (fun unreferenced =>
      ⟨(bare unreferenced).1, (bare unreferenced).2.1⟩),
    wp_modifyChan stillAlive, settle_setChan ne, closed]
  rfl

end

end Pair

theorem chanShutdownLocked_shutDown (ok : ChansOk tmp none state) (found : state.chans chan = some data)
    (valid : data.state ≠ .invalid)
    (queued : data.state = .waitingForPort → data.node = some .waitingForPort ∧ 0 < data.refcnt) :
    wp (chanShutdownLocked chan) (fun _ => ShutDown tmp state chan data) (fun _ _ => False) state := by
  have shape := ok.shaped chan data found
  rw [chanShutdownLocked, wp_bind]
  by_cases waiting : data.state = .waitingForPort
  · obtain ⟨queued, held⟩ := queued waiting
    simp only [Chan.Shaped, waiting] at shape
    have next : { data with node := none, state := .disconnecting } = data.closed := by
      simp [Chan.closed, shape.2.1, queued]
    have done := ShutDown.of_waiting ok found waiting queued held
    rw [wp_chanShutdownState_waiting ok found waiting queued held, next, wp_bind, wp_getChan done.closed]
    exact done
  rw [wp_chanShutdownState found valid waiting, wp_bind, wp_getChan (setChan_chans_self ..)]
  generalize half : state.setChan chan (some { data with state := .disconnecting }) = middle
  cases connected : data.peer with
  | none =>
    have disconnecting : data.state = .disconnecting := by
      simp only [Chan.Shaped] at shape
      split at shape <;> grind
    have already : { data with state := .disconnecting } = data := by
      rw [← disconnecting]
    rw [already, state.setChan_self found] at half
    rw [← half]
    exact ShutDown.of_closed ok found disconnecting connected
  | some peer =>
  obtain ⟨peerData, peerFound, matched⟩ := ok.matched chan data peer found connected
  have unqueued : data.node ≠ some .waitingForPort := by
    simp only [Chan.Shaped] at shape
    split at shape <;> grind
  have peerOpen : peerData.state ≠ .invalid ∧ peerData.state ≠ .waitingForPort := by
    grind [Chan.Matches]
  rw [← half]
  exact (wp_releasePeer ok found connected peerFound unqueued peerOpen.1 peerOpen.2).mpr
    (ShutDown.of_connected ok found connected peerFound unqueued)

end ShutdownState

theorem wp_portHandleDecref {post : Unit → IpcState → Prop} {stop : Stop → IpcState → Prop} {state : IpcState}
    {port : PortId} {data : Port} (found : state.ports port = some data) :
    wp (portHandleDecref port) post stop state ↔ post () (state.setPort port (if data.refcnt = 1 then none
        else some { data with refcnt := data.refcnt - 1 })) := by
  rw [portHandleDecref, wp_bind, wp_getPort found]
  split <;> rfl

def IpcState.unpend (state : IpcState) (server : ChanId) (data : Chan) (port : PortId)
    (portData : Port) : IpcState :=
  ((state.setChan server (some { data with node := none })).setPort port
    (some { portData with pendingList := portData.pendingList.erase server })).dropLink
      (.node server)

/-- The connections that `port_shutdown` has not dropped yet are `rest`. -/
structure Dropping (callers : PortId → Nat) (state : IpcState) (port : PortId)
    (rest : List ChanId) (final : IpcState) : Prop extends Resting callers final where
  frame : Frame state final
  pending : ∀ data, final.ports port = some data → data.pendingList = rest
  ended : ∀ data server, state.ports port = some data → server ∈ data.pendingList →
    server ∈ rest ∨ final.Ended server

section PortShutdown

variable {callers : PortId → Nat} {state current : IpcState} {port : PortId}

theorem wp_removePending {server : ChanId} {data : Chan} {portData : Port} {post : Unit → IpcState → Prop}
    {stop : Stop → IpcState → Prop} (ok : ChansOk .rest none state) (found : state.chans server = some data)
    (node : data.node = some (.pending port)) (portFound : state.ports port = some portData)
    (loose : ChansOk .rest (some server) (state.unpend server data port portData)) :
    wp (do
        listDelete server
        chanDelRef server (.node server)
        portHandleDecref port) post stop state ↔
      post () (((state.unpend server data port portData).settle server).setPort port (if portData.refcnt = 1 then none
          else some { portData with
            pendingList := portData.pendingList.erase server, refcnt := portData.refcnt - 1 })) := by
  have nodeHeld : state.holder .rest (.node server) = some server := by
    simp [IpcState.holder, found, node]
  have unlinked : ((state.setChan server (some { data with node := none })).setPort port
      (some { portData with pendingList := portData.pendingList.erase server })).chans server =
        some { data with node := none } := by
    simp
  have there : ((state.unpend server data port portData).settle server).ports port =
      some { portData with pendingList := portData.pendingList.erase server } := by
    simp [IpcState.unpend]
  have bare := loose.bare unlinked
  rw [wp_bind, wp_listDelete_pending found node portFound, wp_bind,
    wp_chanDelRef unlinked (ok.linked nodeHeld) (fun unreferenced =>
      ⟨(bare unreferenced).1, (bare unreferenced).2.1⟩), ← IpcState.unpend,
    wp_portHandleDecref there]

section

variable (resting : Resting callers state)
include resting

theorem dropPending_dropping {server : ChanId} {rest : List ChanId} (held : 0 < callers port)
    (dropping : Dropping callers state port (server :: rest) current) :
    wp (dropPending port server) (fun _ => Dropping callers state port rest) (fun _ _ => False) current := by
  obtain ⟨portData, portFound⟩ := isSome_iff_exists.mp (dropping.ports.alive port held)
  have pendingList := dropping.pending portData portFound
  have pending : server ∈ portData.pendingList := by simp [pendingList]
  obtain ⟨data, found, node⟩ := (dropping.chans.pending port server).mp ⟨portData, portFound, pending⟩
  have shape := dropping.chans.shaped server data found
  have valid : data.state ≠ .invalid ∧ data.state ≠ .waitingForPort := by
    simp only [Chan.Shaped] at shape
    split at shape <;> grind
  rw [dropPending, wp_bind]
  apply wp_mono (chanShutdownLocked_shutDown dropping.chans found valid.1
    fun waiting => absurd waiting valid.2) _ fun _ _ stops => stops
  intro _ middle shutDown
  have middlePort : middle.ports port = some portData := by rw [shutDown.ports, portFound]
  have middleNode : data.closed.node = some (.pending port) := by simp [Chan.closed, node]
  have middleShape : Chan.Shaped { data.closed with node := none } .rest server := by
    have closed := shutDown.chans.shaped server data.closed shutDown.closed
    simp only [Chan.Shaped, Chan.closed] at closed ⊢
    grind
  have loose : ChansOk .rest (some server) (middle.unpend server data.closed port portData) :=
    shutDown.chans.unlinkPending shutDown.closed middleNode middlePort middleShape fun _ => rfl
  have alive : (middle.unpend server data.closed port portData).chans server =
      some { data.closed with node := none } := by
    simp [IpcState.unpend]
  have settled : ChansOk .rest none ((middle.unpend server data.closed port portData).settle server) :=
    loose.settle alive
  have there : ((middle.unpend server data.closed port portData).settle server).ports port =
      some { portData with pendingList := portData.pendingList.erase server } := by
    simp [IpcState.unpend]
  have middlePorts : PortsOk callers middle := dropping.ports.congr shutDown.ports shutDown.list shutDown.nextPort
  have owned : PortsOk (update callers port (callers port + 1))
      ((middle.unpend server data.closed port portData).settle server) :=
    (middlePorts.erasePending middlePort pending).congr (by simp; rfl) (by simp; rfl) (by simp; rfl)
  have notLast : portData.refcnt ≠ 1 := by
    have refcnt := dropping.ports.refcnt port portData portFound
    have length := length_pos_of_mem pending
    omega
  rw [wp_removePending shutDown.chans shutDown.closed middleNode middlePort loose]
  have unpended : Frame middle (middle.unpend server data.closed port portData) := by
    have unlinking := Frame.setChan shutDown.closed shutDown.chans.fresh (Chan.onward_unlinked data.closed) rfl
    exact unlinking.trans (.of_eq rfl rfl rfl loose.fresh)
  have dropped : ∀ next, Frame middle
      (((middle.unpend server data.closed port portData).settle server).setPort port next) :=
    fun next => (unpended.trans (Frame.settle loose alive)).trans (.of_eq rfl rfl rfl settled.fresh)
  refine ⟨⟨?_, ?_⟩, ?_, ?_, ?_⟩
  · exact settled.decrefPort there (by simp [notLast])
  · exact owned.decrefOwned there
  · exact (dropping.frame.trans shutDown.frame).trans (dropped _)
  · intro next nextFound
    rw [if_neg notLast, setPort_ports, if_pos rfl, some_inj] at nextFound
    rw [← nextFound, pendingList, erase_cons_head]
  intro startData other startFound member
  have old : other < current.nextChan := by
    obtain ⟨otherData, otherFound, _⟩ := (resting.chans.pending port other).mp ⟨startData, startFound, member⟩
    exact lt_of_lt_of_le (resting.chans.below otherFound) dropping.frame.later.nextChan
  rcases dropping.ended startData other startFound member with left | ended
  · rcases mem_cons.mp left with same | left
    · have ended : middle.Ended server := by
        intro next nextFound
        rw [shutDown.closed] at nextFound
        cases nextFound
        rfl
      refine .inr ((Evolves.of_later (dropped _).later).ended ?_ (same ▸ ended))
      exact lt_of_lt_of_le old shutDown.frame.later.nextChan
    · exact .inl left
  · exact .inr ((Evolves.of_later (shutDown.frame.trans (dropped _)).later).ended old ended)

theorem portUnlist_dropping {data : Port} (found : state.ports port = some data) (held : 0 < callers port) :
    wp (portUnlist port) (fun _ => Dropping callers state port data.pendingList) (fun _ _ => False) state := by
  obtain ⟨chans, ports⟩ := resting
  have closing : (state.setPort port (some { data with state := .closing })).ports port =
      some { data with state := .closing } := by
    simp
  have waiting : ∀ {final : IpcState} before server, state.ports port = some before →
      server ∈ before.pendingList → server ∈ data.pendingList ∨ final.Ended server := by
    intro final before server beforeFound member
    rw [found] at beforeFound
    cases beforeFound
    exact .inl member
  rw [portUnlist, wp_bind, wp_modifyPort found, wp_bind, wp_getPort closing]
  by_cases listed : data.node = true
  · have notLast : data.refcnt ≠ 1 := by
      have refcnt := ports.refcnt port data found
      simp only [listed, Bool.toNat_true] at refcnt
      omega
    have twice : (state.setPort port (some { data with state := .closing })).setPort port
        (some { data with state := .closing, node := false }) =
          state.setPort port (some { data with state := .closing, node := false }) := by
      simp only [IpcState.setPort, update_idem]
    have there : ((state.setPort port (some { data with
        state := .closing, node := false })).setListed (state.ipcPortList.erase port)).ports port =
          some { data with state := .closing, node := false } := by
      simp
    rw [if_pos listed, wp_bind, wp_modifyPort closing, twice, wp_bind, wp_modify]
    refine (wp_portHandleDecref there).mpr ⟨⟨?_, ?_⟩, .of_eq rfl rfl rfl chans.fresh, ?_, waiting⟩
    · refine ChansOk.decrefPort (ChansOk.setListed (chans.setPort found _ ?_) _) there (fun last => absurd last notLast)
      rfl
    · exact (ports.unlist found listed .closing).decrefOwned there
    · intro next nextFound
      rw [setPort_ports_self, if_neg notLast] at nextFound
      cases nextFound
      rfl
  · rw [if_neg listed]
    refine ⟨⟨chans.setPort found _ rfl, ?_⟩, .of_eq rfl rfl rfl chans.fresh, ?_, waiting⟩
    · exact ports.setState found (by simpa using listed) .closing
    intro next nextFound
    rw [setPort_ports_self] at nextFound
    cases nextFound
    rfl

theorem portShutdown_resting (held : 0 < callers port) :
    wp (portShutdown port) (fun _ final => Resting callers final ∧ Frame state final ∧
        ∀ data server, state.ports port = some data → server ∈ data.pendingList → final.Ended server)
      (fun _ _ => False) state := by
  obtain ⟨data, found⟩ := isSome_iff_exists.mp (resting.ports.alive port held)
  rw [portShutdown, wp_bind]
  apply wp_mono (portUnlist_dropping resting found held) _ fun _ _ stops => stops
  intro _ middle dropping
  obtain ⟨portData, portFound⟩ := isSome_iff_exists.mp (dropping.ports.alive port held)
  rw [wp_bind, wp_getPort portFound, dropping.pending portData portFound]
  have loop := wp_forM (fun _ rest => Dropping callers state port rest)
    (fun _ _ _ _ => dropPending_dropping resting held) dropping
  apply wp_mono loop _ fun _ _ stops => stops
  intro _ _ done
  refine ⟨done.toResting, done.frame, fun before server beforeFound member => ?_⟩
  exact (done.ended before server beforeFound member).resolve_left (not_mem_nil)

end

end PortShutdown

section

variable {callers : PortId → Nat} {state : IpcState} {chan : ChanId} {data : Chan}
  (resting : Resting callers state) (found : state.chans chan = some data) (held : 0 < data.refcnt)
include resting found held

theorem chanShutdown_resting : wp (chanShutdownLocked chan) (fun _ final => Resting callers final ∧ Frame state final ∧
        final.chans chan = some data.closed)
      (fun _ _ => False) state := by
  have shape := resting.chans.shaped chan data found
  have valid : data.state ≠ .invalid ∧ (data.state = .waitingForPort → data.node = some .waitingForPort) := by
    simp only [Chan.Shaped, Tmp.rest] at shape
    split at shape <;> grind
  apply wp_mono (chanShutdownLocked_shutDown resting.chans found valid.1
    fun waiting => ⟨valid.2 waiting, held⟩) _ fun _ _ stops => stops
  intro _ final shutDown
  exact ⟨⟨shutDown.chans, resting.ports.congr shutDown.ports shutDown.list shutDown.nextPort⟩,
    shutDown.frame, shutDown.closed⟩

theorem chanHandleDecref_resting (closed : data.refcnt = 1 → data.state = .disconnecting ∧ data.peer = none) :
    wp (chanHandleDecref chan) (fun _ final => Resting callers final ∧ Later state final ∧
        final.attached = state.attached ∧
        final.refs = update state.refs chan (state.refs chan - 1))
      (fun _ _ => False) state := by
  obtain ⟨chans, ports⟩ := resting
  have onward : data.Onward { data with refcnt := data.refcnt - 1 } := { Chan.Onward.refl data with }
  have later := Later.setChan found chans.fresh onward
  have refs : (state.setChan chan (some { data with refcnt := data.refcnt - 1 })).refs =
      update state.refs chan (state.refs chan - 1) := by
    rw [refs_update, refs_eq found]
  rw [chanHandleDecref, wp_bind, wp_getChan found, wp_bind, wp_setChan]
  by_cases last : data.refcnt = 1
  · obtain ⟨disconnecting, alone⟩ := closed last
    have handleHeld : state.holder .rest (.handle chan) = some chan := by
      simp [IpcState.holder, found, held]
    have zero : data.refcnt - 1 = 0 := by omega
    have loose : ChansOk .rest (some chan) ((state.setChan chan (some { data with
        refcnt := data.refcnt - 1 })).dropLink (.handle chan)) :=
      zero ▸ chans.dropHandle found last disconnecting alone
    have alive : (state.setChan chan (some { data with refcnt := data.refcnt - 1 })).chans chan =
        some { data with refcnt := data.refcnt - 1 } := by
      simp
    have bare := loose.bare alive
    have settled := Frame.settle loose alive
    rw [if_pos last, wp_chanDelRef alive (chans.linked handleHeld) fun unreferenced =>
      ⟨(bare unreferenced).1, (bare unreferenced).2.1⟩]
    refine ⟨⟨loose.settle alive, ports.congr (by simp; rfl) (by simp; rfl) (by simp; rfl)⟩, ?_, ?_, ?_⟩
    · have dropped := later.trans (.dropLink (.handle chan) loose.fresh)
      exact dropped.trans settled.later
    · exact settled.attached
    · exact settled.refs.trans refs
  · rw [if_neg last]
    refine ⟨⟨?_, ports.congr rfl rfl rfl⟩, later, rfl, refs⟩
    exact chans.retouch found rfl rfl rfl rfl (by simp; omega) rfl (.of_eq rfl) rfl

end

end Trusty.Ipc
