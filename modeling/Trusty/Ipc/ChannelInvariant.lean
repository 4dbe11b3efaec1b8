import Trusty.Ipc.Channel

/-!
# The invariant of channels and ports

References, lists and states of the channels agree. Inside a call this holds up to
its local references, and up to one channel that may have lost its last reference
and not been destroyed yet.
-/

namespace Trusty.Ipc

open Option Function

namespace IpcState

variable (state : IpcState) (chan other : ChanId) (data : Option Chan) (port : PortId)
  (portData : Option Port) (ref : Ref) (chans : List ChanId)

@[grind =] theorem setChan_chans :
    (state.setChan chan data).chans other = if other = chan then data else state.chans other := by
  simp [setChan, update_apply]

@[simp, grind =] theorem setChan_chans_self : (state.setChan chan data).chans chan = data := by
  simp [setChan]

@[simp] theorem setChan_chans_ne (ne : other ≠ chan) : (state.setChan chan data).chans other = state.chans other := by
  simp [setChan, ne]

@[simp, grind =] theorem setChan_ports : (state.setChan chan data).ports port = state.ports port := rfl

@[simp, grind =] theorem setChan_links : (state.setChan chan data).links = state.links := rfl

@[simp, grind =] theorem setChan_attached : (state.setChan chan data).attached = state.attached := rfl

@[simp, grind =] theorem setChan_nextChan : (state.setChan chan data).nextChan = state.nextChan := rfl

@[simp, grind =] theorem addLink_chans : (state.addLink ref chan).chans other = state.chans other := rfl

theorem addLink_links : (state.addLink ref chan).links = References.add state.links ref chan := rfl

@[simp, grind =] theorem dropLink_chans : (state.dropLink ref).chans other = state.chans other := rfl

@[grind =] theorem setPort_ports (number : PortId) : (state.setPort port portData).ports number =
      if number = port then portData else state.ports number := by
  simp [setPort, update_apply]

@[simp] theorem setPort_ports_self : (state.setPort port portData).ports port = portData := by
  simp [setPort]

@[simp, grind =] theorem addLink_ports : (state.addLink ref chan).ports port = state.ports port := rfl

@[simp, grind =] theorem dropLink_ports : (state.dropLink ref).ports port = state.ports port := rfl

@[simp, grind =] theorem setPort_chans : (state.setPort port portData).chans other = state.chans other := rfl

@[simp, grind =] theorem setWaiting_chans : (state.setWaiting chans).chans other = state.chans other := rfl

@[simp, grind =] theorem setWaiting_links : (state.setWaiting chans).links = state.links := rfl

@[simp, grind =] theorem setListed_ports (ports : List PortId) :
    (state.setListed ports).ports port = state.ports port := rfl

@[simp, grind =] theorem addAttached_chans (attachment : Attachment) :
    (state.addAttached attachment).chans other = state.chans other := rfl

@[simp, grind =] theorem addAttached_ports (attachment : Attachment) :
    (state.addAttached attachment).ports port = state.ports port := rfl

end IpcState

abbrev Tmp := Role → Option ChanId

namespace Tmp

def rest : Tmp := fun _ => none

def Has (tmp : Tmp) (chan : ChanId) : Prop :=
  ∃ role, tmp role = some chan

def set (tmp : Tmp) (role : Role) (chan : Option ChanId) : Tmp :=
  update tmp role chan

variable {tmp : Tmp} {role : Role}

theorem set_apply (chan : Option ChanId) (other : Role) :
    tmp.set role chan other = if other = role then chan else tmp other := by
  simp [set, update_apply]

theorem has_set (unused : tmp role = none) (chan other : ChanId) :
    (tmp.set role (some chan)).Has other ↔ other = chan ∨ tmp.Has other := by
  constructor
  · rintro ⟨place, held⟩
    rw [set_apply] at held
    split at held
    · cases held
      exact .inl rfl
    · exact .inr ⟨place, held⟩
  · rintro (rfl | ⟨place, held⟩)
    · exact ⟨role, by simp [set_apply]⟩
    refine ⟨place, ?_⟩
    rw [set_apply, if_neg, held]
    rintro rfl
    simp [unused] at held

theorem has_of_clear {chan : ChanId} (has : (tmp.set role none).Has chan) : tmp.Has chan := by
  obtain ⟨place, held⟩ := has
  rw [set_apply] at held
  split at held
  · cases held
  · exact ⟨place, held⟩

end Tmp

def IpcState.holder (state : IpcState) (tmp : Tmp) : Ref → Option ChanId
  | .tmp role => tmp role
  | .peer chan => (state.chans chan).bind fun data => data.peer
  | .node chan => (state.chans chan).bind fun data => if data.node.isSome then some chan else none
  | .handle chan => (state.chans chan).bind fun data => if 0 < data.refcnt then some chan else none

def Chan.Shaped (data : Chan) (tmp : Tmp) (chan : ChanId) : Prop :=
  match data.state with
  | .invalid =>
    tmp.Has chan ∧ data.peer = none ∧ data.node = none ∧ data.refcnt = 0 ∧
      data.msgQueue = none ∧ data.path = none
  | .waitingForPort =>
    data.server = false ∧ data.peer = none ∧ data.msgQueue = none ∧
      (data.node = some .waitingForPort ∧ data.path.isSome ∧
          (0 < data.refcnt ∨ tmp .client = some chan) ∨
        tmp .client = some chan ∧ data.node = none ∧ data.path = none)
  | .connecting =>
    data.server = false ∧ data.peer.isSome ∧ data.node = none ∧ data.path = none ∧
      data.msgQueue.isSome
  | .accepting =>
    data.server = true ∧ data.peer.isSome ∧ data.path = none ∧ data.msgQueue.isSome ∧
      data.refcnt = 0 ∧
      ((∃ port, data.node = some (.pending port)) ∨
        tmp .server = some chan ∧ data.node = none)
  | .connected =>
    data.peer.isSome ∧ data.node = none ∧ data.path = none ∧ data.msgQueue.isSome
  | .disconnecting =>
    data.node ≠ some .waitingForPort ∧ (data.path.isSome → data.peer = none) ∧
      (data.path = none ↔ data.msgQueue.isSome)

theorem Chan.Shaped.mono {data : Chan} {tmp more : Tmp} {chan : ChanId} (shaped : data.Shaped tmp chan)
    (keeps : ∀ role, tmp role = some chan → more role = some chan) : data.Shaped more chan := by
  have has : tmp.Has chan → more.Has chan := fun ⟨role, held⟩ => ⟨role, keeps role held⟩
  unfold Chan.Shaped at shaped ⊢
  split at shaped <;> grind

theorem Chan.Shaped.congr {data next : Chan} {tmp : Tmp} {chan : ChanId} (shaped : data.Shaped tmp chan)
    (sameState : next.state = data.state) (samePeer : next.peer = data.peer) (sameServer : next.server = data.server)
    (sameNode : next.node = data.node)
    (unheld : data.state = .invalid ∨ data.state = .accepting → data.refcnt = 0 → next.refcnt = 0)
    (held : data.state = .waitingForPort → 0 < data.refcnt → 0 < next.refcnt) (samePath : next.path = data.path)
    (queue : next.msgQueue.isSome = data.msgQueue.isSome) : next.Shaped tmp chan := by
  have noQueue : next.msgQueue = none ↔ data.msgQueue = none := by
    rw [← not_isSome_iff_eq_none, queue, not_isSome_iff_eq_none]
  unfold Chan.Shaped at shaped ⊢
  cases same : data.state <;> simp only [same] at shaped ⊢ <;> grind

def Chan.Matches (data : Chan) (chan : ChanId) (peer : Chan) : Prop :=
  match data.state with
  | .connecting => peer.state = .accepting ∧ peer.peer = some chan
  | .accepting => peer.state = .connecting ∧ peer.peer = some chan
  | .connected =>
    peer.state = .connected ∧ peer.peer = some chan ∧ peer.server = !data.server
  | .disconnecting => peer.state = .disconnecting
  | .invalid | .waitingForPort => False

namespace Chan.Matches

variable {data peer : Chan} {chan : ChanId}

theorem disconnecting_iff (matched : data.Matches chan peer) :
    data.state = .disconnecting ↔ peer.state = .disconnecting := by
  grind [Chan.Matches]

theorem points_back (matched : data.Matches chan peer) (open_ : data.state ≠ .disconnecting) :
    peer.peer = some chan := by
  grind [Chan.Matches]

theorem of_disconnecting (state : data.state = .disconnecting)
    (peerState : peer.state = .disconnecting) : data.Matches chan peer := by
  simp [Chan.Matches, state, peerState]

end Chan.Matches

def Attachment.Covers (attachment : Attachment) (chan : ChanId) (data : Chan) (mq : MsgQueue) :
    Prop :=
  (if data.server then attachment.server = chan else attachment.client = chan) ∧
  (∀ peer, data.peer = some peer →
    if data.server then attachment.client = peer else attachment.server = peer) ∧
  mq.numItems = attachment.port.numRecvBufs ∧ mq.itemSz = attachment.port.recvBufSize

structure ChansOk (tmp : Tmp) (loose : Option ChanId) (state : IpcState) : Prop where
  links : References.Holds state.links (state.holder tmp)
  tmpAlive : ∀ chan, tmp.Has chan → (state.chans chan).isSome
  kept : ∀ chan data, state.chans chan = some data → loose ≠ some chan →
    ∃ ref, state.holder tmp ref = some chan
  fresh : ∀ chan, state.nextChan ≤ chan → state.chans chan = none
  shaped : ∀ chan data, state.chans chan = some data → data.Shaped tmp chan
  pendingShape : ∀ chan data port, state.chans chan = some data →
    data.node = some (.pending port) → data.server = true ∧ data.refcnt = 0
  unheld : ∀ chan data, state.chans chan = some data → data.refcnt = 0 → data.node = none →
    ¬tmp.Has chan → data.peer = none
  apart : ∀ chan data, state.chans chan = some data → data.peer ≠ some chan
  matched : ∀ chan data peer, state.chans chan = some data → data.peer = some peer →
    ∃ peerData, state.chans peer = some peerData ∧ data.Matches chan peerData
  logged : ∀ chan data mq, state.chans chan = some data → data.msgQueue = some mq →
    ∃ attachment ∈ state.attached, attachment.Covers chan data mq
  waitingNodup : state.waitingForPortChanList.Nodup
  waiting : ∀ chan, chan ∈ state.waitingForPortChanList ↔
    ∃ data, state.chans chan = some data ∧ data.node = some .waitingForPort
  pendingNodup : ∀ port data, state.ports port = some data → data.pendingList.Nodup
  pending : ∀ port chan, (∃ data, state.ports port = some data ∧ chan ∈ data.pendingList) ↔
    ∃ data, state.chans chan = some data ∧ data.node = some (.pending port)

/-- Ports live as long as callers, the list of ports or a pending connection
refer to them, and are listed under different paths. -/
structure PortsOk (callers : PortId → Nat) (state : IpcState) : Prop where
  refcnt : ∀ port data, state.ports port = some data →
    data.refcnt = callers port + data.node.toNat + data.pendingList.length
  alive : ∀ port, 0 < callers port → (state.ports port).isSome
  fresh : ∀ port, state.nextPort ≤ port → state.ports port = none
  listed : ∀ port, port ∈ state.ipcPortList ↔
    ∃ data, state.ports port = some data ∧ data.node = true
  listedNodup : state.ipcPortList.Nodup
  listening : ∀ port data, state.ports port = some data → data.node = true →
    data.state = .listening
  paths : ∀ port other data otherData, state.ports port = some data →
    state.ports other = some otherData → data.node = true → otherData.node = true →
    data.path = otherData.path → port = other

structure Resting (callers : PortId → Nat) (state : IpcState) : Prop where
  chans : ChansOk .rest none state
  ports : PortsOk callers state

namespace ChansOk

variable {tmp : Tmp} {loose : Option ChanId} {state : IpcState}

section

variable (ok : ChansOk tmp loose state)
include ok

theorem alive {ref : Ref} {chan : ChanId} (held : state.holder tmp ref = some chan) : (state.chans chan).isSome := by
  cases ref with
  | tmp role => exact ok.tmpAlive chan ⟨role, held⟩
  | peer other =>
    obtain ⟨data, found, peer⟩ := bind_eq_some_iff.mp held
    obtain ⟨peerData, alive, _⟩ := ok.matched other data chan found peer
    simp [alive]
  | node other | handle other =>
  obtain ⟨data, found, own⟩ := bind_eq_some_iff.mp held
  split at own
  · cases own
    simp [found]
  · cases own

theorem below {chan : ChanId} {data : Chan} (found : state.chans chan = some data) : chan < state.nextChan := by
  apply Nat.lt_of_not_le
  intro above
  rw [ok.fresh chan above] at found
  cases found

theorem unreferenced {chan : ChanId} {data : Chan}
    (found : state.chans chan = some data) (alone : ∀ ref, state.holder tmp ref ≠ some chan) :
    data.peer = none ∧ data.node = none ∧ data.refcnt = 0 ∧ ¬tmp.Has chan := by
  have node : data.node = none := by
    have none := alone (.node chan)
    simpa [IpcState.holder, found] using none
  have refcnt : data.refcnt = 0 := by
    have none := alone (.handle chan)
    simpa [IpcState.holder, found] using none
  have free : ¬tmp.Has chan := by
    rintro ⟨role, held⟩
    exact alone (.tmp role) held
  exact ⟨ok.unheld chan data found refcnt node free, node, refcnt, free⟩

end

end ChansOk

def IpcState.settle (state : IpcState) (chan : ChanId) : IpcState :=
  if References.referenced state.links chan then state
  else state.setChan chan none

section

variable {tmp : Tmp} {state : IpcState} {chan : ChanId}

theorem ChansOk.destroy {data : Chan} (ok : ChansOk tmp (some chan) state) (found : state.chans chan = some data)
    (alone : ∀ ref, state.holder tmp ref ≠ some chan) : ChansOk tmp none (state.setChan chan none) := by
  have left : ∀ other data, (state.setChan chan none).chans other = some data ↔
      other ≠ chan ∧ state.chans other = some data := by
    intro other data
    by_cases same : other = chan <;> simp [same]
  have bare := ok.unreferenced found alone
  have apart : ∀ other data, state.chans other = some data → data.peer ≠ some chan := by
    intro other data found peer
    exact alone (.peer other) (by simp [IpcState.holder, found, peer])
  have holder : (state.setChan chan none).holder tmp = state.holder tmp := by
    funext ref
    cases ref <;> simp only [IpcState.holder, IpcState.setChan_chans] <;> grind
  constructor
  · rw [holder]
    exact ok.links
  · grind [ok.tmpAlive]
  · intro other _ found _
    rw [holder]
    obtain ⟨ne, found⟩ := (left _ _).mp found
    exact ok.kept other _ found (by simpa using ne.symm)
  · grind [ok.fresh]
  · grind [ok.shaped]
  · grind [ok.pendingShape]
  · grind [ok.unheld]
  · grind [ok.apart]
  · grind [ok.matched]
  · grind [ok.logged]
  · exact ok.waitingNodup
  · exact fun other => (ok.waiting other).trans (by grind)
  · exact ok.pendingNodup
  · exact fun port other => (ok.pending port other).trans (by grind)

theorem ChansOk.referenced (ok : ChansOk tmp none state) {data : Chan}
    (found : state.chans chan = some data) : ∃ ref, state.holder tmp ref = some chan :=
  ok.kept chan data found (Option.some_ne_none chan).symm

theorem ChansOk.tighten (ok : ChansOk tmp (some chan) state)
    (held : ∃ ref, state.holder tmp ref = some chan) : ChansOk tmp none state := by
  refine { ok with kept := ?_ }
  intro other data found _
  by_cases same : chan = other
  · exact same ▸ held
  · exact ok.kept other data found (by simpa using same)

theorem ChansOk.settle {data : Chan} (ok : ChansOk tmp (some chan) state) (found : state.chans chan = some data) :
    ChansOk tmp none (state.settle chan) := by
  unfold IpcState.settle
  split
  · rename_i referenced
    exact ok.tighten ((ok.links.referenced_iff chan).mp referenced)
  rename_i unreferenced
  have alone : ∀ ref, state.holder tmp ref ≠ some chan := fun ref held =>
    unreferenced ((ok.links.referenced_iff chan).mpr ⟨ref, held⟩)
  exact ok.destroy found alone

end

end Trusty.Ipc
