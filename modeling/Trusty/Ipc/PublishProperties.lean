import Trusty.Ipc.ConnectProperties

/-!
# Publishing a port

Publishing attaches the clients that wait for the path. It ends
exactly if it can attach each of them; otherwise an assertion fails.
-/

namespace Trusty.Ipc

open StateLogic List Option

theorem ipcPortCreate_spec {callers : PortId → Nat} {state : IpcState} (resting : Resting callers state)
    (sid : Option Uuid) (path : Path) (numRecvBufs recvBufSize : Nat) (flags : PortFlags) :
    wp (ipcPortCreate sid path numRecvBufs recvBufSize flags) (fun result final => Frame state final ∧ match result with
        | .ok port => Resting (Function.update callers port 1) final
        | .error _ => Resting callers final)
      (fun _ _ => False) state := by
  have le := le_refl state.nextChan
  have unchanged := fun memory => (resting.spend le memory).symm
  unfold ipcPortCreate
  split
  · exact unchanged state.memory
  split
  · exact unchanged state.memory
  rw [wp_bind, wp_alloc]
  split
  · split
    · exact unchanged state.memory.tail
    split
    · exact unchanged state.memory.tail
    obtain ⟨frame, spent⟩ := unchanged state.memory.tail
    refine ⟨frame.trans (.of_eq rfl rfl rfl spent.chans.fresh), ?_, ?_⟩
    · exact spent.chans.allocPort (spent.ports.fresh _ le_rfl) rfl
    · exact spent.ports.create rfl rfl rfl
  · exact unchanged state.memory.tail

def IpcState.dequeue (state : IpcState) (client : ChanId) (data : Chan) : IpcState :=
  (((state.addLink (.tmp .client) client).setChan client
    (some { data with path := none, node := none })).setWaiting
      (state.waitingForPortChanList.erase client)).dropLink (.node client)

structure Served (callers : PortId → Nat) (state : IpcState) (port : PortId) (portData : Port)
    (client : ChanId) (data : Chan) (final : IpcState) : Prop extends Resting callers final where
  isClient : data.server = false
  later : Later state final
  refs : final.refs = state.refs
  attached : ∃ attachment : Attachment, final.attached = state.attached ++ [attachment] ∧
    attachment.client = client ∧ attachment.Granted data.uuid portData.path
  logged : state.Logged → final.Logged
  others : ∀ other, other ≠ client → other < state.nextChan → final.chans other = state.chans other
  pending : final.ports port = some (portData.addPending state.nextChan)
  memory : final.memory = state.memory.drop 5

section PublishTo

variable {callers : PortId → Nat} {state : IpcState} {port : PortId} {portData : Port}
  {client : ChanId} {data : Chan}

section

variable (chans : ChansOk .rest none state)

include chans

section

variable (found : state.chans client = some data)
include found

theorem ChansOk.dequeue (node : data.node = some .waitingForPort)
    (shaped : Chan.Shaped { data with path := none, node := none } (.client client) client) (alone : data.peer = none)
    (noQueue : data.msgQueue = none) : ChansOk (.client client) none (state.dequeue client data) := by
  have added : ChansOk (.client client) none (state.addLink (.tmp .client) client) := chans.addTmp rfl found
  have alive : (state.addLink (.tmp .client) client).chans client = some data := found
  have loose : ChansOk (.client client) (some client) (state.dequeue client data) :=
    added.unlinkWaiting alive node alone rfl rfl noQueue shaped
  exact loose.tighten ⟨.tmp .client, rfl⟩

theorem wp_dequeue {post : Unit → IpcState → Prop} {stop : Stop → IpcState → Prop}
    (node : data.node = some .waitingForPort) (rest : IpcM Unit) :
    wp (do
        modifyChan client fun data => { data with path := none }
        chanAddRef client (.tmp .client)
        listDelete client
        chanDelRef client (.node client)
        rest) post stop state ↔
      wp rest post stop (state.dequeue client data) := by
  have added : ChansOk (.client client) none (state.addLink (.tmp .client) client) := chans.addTmp rfl found
  have nodeHeld : state.holder .rest (.node client) = some client := by
    simp [IpcState.holder, found, node]
  have unlinked : References.linked state.links (.tmp .client) = false := chans.unlinked rfl
  have linked : References.linked (References.add state.links (.tmp .client) client) (.node client) = true := by
    rw [References.linked_add, chans.linked nodeHeld, Bool.true_or]
  have ne : Ref.tmp .client ≠ .node client := by simp
  have referenced : References.referenced (References.drop (References.add state.links
      (.tmp .client) client) (.node client)) client = true :=
    added.still_referenced ne rfl
  have alive : ((state.setChan client (some { data with path := none })).addLink
      (.tmp .client) client).chans client = some { data with path := none } := by
    simp
  have removed : ((((state.setChan client (some { data with path := none })).addLink
      (.tmp .client) client).setChan client (some { data with path := none, node := none })).setWaiting
        (state.waitingForPortChanList.erase client)).chans client = some { data with path := none, node := none } := by
    simp
  have same : ((((state.setChan client (some { data with path := none })).addLink
      (.tmp .client) client).setChan client (some { data with path := none, node := none })).setWaiting
        (state.waitingForPortChanList.erase client)).dropLink (.node client) = state.dequeue client data := by
    simp only [IpcState.dequeue, IpcState.setChan, IpcState.addLink, Function.update_idem]
  have stays : (state.dequeue client data).settle client = state.dequeue client data := if_pos referenced
  rw [wp_bind, wp_modifyChan found, wp_bind, wp_chanAddRef (IpcState.setChan_chans_self ..) unlinked, wp_bind,
    wp_listDelete_waiting alive node, wp_bind]
  refine (wp_chanDelRef removed linked (absurd · (ne_false_of_eq_true referenced))).trans ?_
  rw [same, stays]

theorem Frame.dequeue : Frame state (state.dequeue client data) := by
  have onward : data.Onward { data with path := none, node := none } := { Chan.Onward.refl data with path := .inl rfl }
  have unlinked := Frame.setChan found chans.fresh onward rfl
  refine unlinked.trans (.of_eq rfl rfl rfl ?_)
  intro other above
  have absent := chans.fresh other above
  grind

theorem Attached.served {middle : IpcState} (isClient : data.server = false)
    (held : 0 < data.refcnt) (admits : portData.Admits data.uuid state.memory)
    (attached : Attached (.client client) callers (state.dequeue client data) port portData client
      { data with path := none, node := none } middle) :
    Served callers state port portData client data (middle.dropLink (.tmp .client)) := by
  have connected : Chan.Shaped (Chan.connectingTo { data with path := none, node := none }
      state.nextChan (.create portData.numRecvBufs portData.recvBufSize)) .rest client := by
    simp [Chan.Shaped, Chan.connectingTo, isClient]
  have back := Tmp.client_clear client
  have dequeued := Frame.dequeue chans found
  constructor
  · have released := attached.chans.releaseHeld rfl attached.connecting held (back ▸ connected)
    exact ⟨back ▸ released, attached.ports.congr rfl rfl rfl⟩
  · exact isClient
  · exact (dequeued.later.trans attached.later).trans (.dropLink _ attached.chans.fresh)
  · exact attached.refs.trans dequeued.refs
  · exact ⟨_, attached.attached, rfl, admits.1, rfl, admits.2.1⟩
  · intro before
    have logged := attached.logged (before.later dequeued.later dequeued.attached)
    exact logged.later (.dropLink _ attached.chans.fresh) rfl
  · intro other ne below
    refine (attached.others other ne below).trans ?_
    simp [IpcState.dequeue, ne]
  · exact attached.pending
  · exact attached.memory

end

end

theorem publishTo_spec (resting : Resting callers state) (portFound : state.ports port = some portData)
    (found : state.chans client = some data) (node : data.node = some .waitingForPort) :
    wp (publishTo port client) (fun _ final => data.path ≠ some portData.path ∧ final = state ∨
        data.path = some portData.path ∧ portData.Admits data.uuid state.memory ∧
          Served callers state port portData client data final)
      (fun reason _ => reason = .assertion .waitingInList ∧ data.path = some portData.path ∧
        ¬portData.Admits data.uuid state.memory)
      state := by
  have shape := resting.chans.shaped client data found
  have waiting : data.state = .waitingForPort := by
    simp only [Chan.Shaped, Tmp.rest] at shape
    split at shape <;> grind
  simp only [Chan.Shaped, waiting, node, Tmp.rest] at shape
  have held : 0 < data.refcnt := by grind
  have alone : data.peer = none := shape.2.1
  obtain ⟨path, named⟩ : ∃ path, data.path = some path := isSome_iff_exists.mp (by grind)
  have shaped : Chan.Shaped { data with path := none, node := none } (.client client) client := by
    simp [Chan.Shaped, waiting, shape.1, alone, shape.2.2.1, Tmp.client, Tmp.set_apply]
  have dequeued := resting.chans.dequeue found node shaped alone shape.2.2.1
  have alive : (state.dequeue client data).chans client = some { data with path := none, node := none } := by
    simp [IpcState.dequeue]
  have attachable : Attachable (.client client) (state.dequeue client data) client
      { data with path := none, node := none } :=
    ⟨alive, alone, rfl, rfl, shape.2.2.1, shape.1, rfl, .inr waiting⟩
  have ports : PortsOk callers (state.dequeue client data) := resting.ports.congr rfl rfl rfl
  rw [publishTo, wp_bind, wp_getPort portFound, wp_bind, wp_getChan found]
  simp only [named, some_inj]
  by_cases same : path = portData.path
  · rw [if_neg (not_not_intro same), wp_dequeue resting.chans found node, wp_bind]
    apply wp_mono (portAttachClient_spec dequeued ports portFound rfl attachable) _ fun _ _ stops => stops.elim
    intro result middle outcome
    rw [wp_bind]
    cases result with
    | error reason =>
      obtain ⟨refused, nextChan, memory, _, rfl⟩ := outcome
      have stillAlive : ((state.dequeue client data).spend nextChan memory).chans client =
          some { data with path := none, node := none } :=
        alive
      rw [closeRefused, chanShutdownLocked, wp_bind, wp_chanShutdownState_unqueued stillAlive waiting rfl, same]
      exact ⟨rfl, rfl, refused⟩
    | ok _ =>
    obtain ⟨admits, attached⟩ := outcome
    rw [closeRefused, wp_pure, attached.chans.wp_releaseHeld rfl attached.connecting held, same]
    exact .inr ⟨rfl, admits, attached.served resting.chans found shape.1 held admits⟩
  · rw [if_pos same]
    exact .inl ⟨by simpa using same, rfl⟩

end PublishTo

/-- The port allows each of the clients that wait for its path, and there is
memory for all of these connections. -/
def Port.AdmitsAll (data : Port) (chans : ChanId → Option Chan) : List ChanId → List Bool → Prop
  | [], _ => True
  | client :: rest, memory =>
    if (chans client).bind (fun clientData => clientData.path) = some data.path then
      checkAccess data ((chans client).bind fun clientData => clientData.uuid) = .ok () ∧
        (memory.take 5).all id = true ∧ data.AdmitsAll chans rest (memory.drop 5)
    else
      data.AdmitsAll chans rest memory

instance Port.decidableAdmitsAll (data : Port) (chans : ChanId → Option Chan) :
    (clients : List ChanId) → (memory : List Bool) →
      Decidable (data.AdmitsAll chans clients memory)
  | [], _ => .isTrue trivial
  | client :: rest, memory => by
      have later := decidableAdmitsAll data chans rest
      unfold AdmitsAll
      infer_instance

/-- The loop of `ipc_port_publish` has still to look at the clients in `rest`.
It will succeed if `goal` holds. -/
structure Publishing (callers : PortId → Nat) (state : IpcState) (port : PortId)
    (portData : Port) (goal : Prop) (rest : List ChanId) (current : IpcState) : Prop
    extends Resting callers current where
  later : Later state current
  refs : current.refs = state.refs
  attached : ∃ new : List Attachment, current.attached = state.attached ++ new ∧
    ∀ attachment ∈ new, ∃ data, state.chans attachment.client = some data ∧
      data.server = false ∧ data.path = some portData.path ∧
      attachment.Granted data.uuid portData.path
  logged : state.Logged → current.Logged
  listening : ∃ data, current.ports port = some data ∧ data.state = .listening ∧
    data.path = portData.path ∧ data.flags = portData.flags
  left : ∀ client ∈ rest, current.chans client = state.chans client ∧
    ∃ data, state.chans client = some data ∧ data.node = some .waitingForPort
  nodup : rest.Nodup
  admits : portData.AdmitsAll state.chans rest current.memory ↔ goal

section Loop

variable {callers : PortId → Nat} {state current : IpcState} {port : PortId} {portData : Port}

theorem checkAccess_flags {data other : Port} (same : data.flags = other.flags)
    (uuid : Option Uuid) : checkAccess data uuid = checkAccess other uuid := by
  unfold checkAccess
  rw [same]

section

variable {goal : Prop} {client : ChanId} {rest : List ChanId}

section

variable (publishing : Publishing callers state port portData goal (client :: rest) current)
include publishing

theorem Publishing.served {data : Chan} {nowData : Port} {final : IpcState} (before : state.chans client = some data)
    (own : data.path = some portData.path) (samePath : nowData.path = portData.path) (sameFlags : nowData.flags = portData.flags)
    (admitted : nowData.Admits data.uuid current.memory)
    (admits : checkAccess portData data.uuid = .ok () ∧ (current.memory.take 5).all id = true ∧
      portData.AdmitsAll state.chans rest (current.memory.drop 5) ↔ goal)
    (served : Served callers current port nowData client data final) :
    Publishing callers state port portData goal rest final := by
  obtain ⟨listening, access, memory⟩ := admitted
  rw [checkAccess_flags sameFlags] at access
  have nodup := nodup_cons.mp publishing.nodup
  refine { served.toResting with
    later := publishing.later.trans served.later
    refs := served.refs.trans publishing.refs
    attached := ?_
    logged := fun before => served.logged (publishing.logged before)
    listening := ⟨_, served.pending, listening, samePath, sameFlags⟩
    left := ?_
    nodup := nodup.2
    admits := ?_ }
  · obtain ⟨new, log, granted⟩ := publishing.attached
    obtain ⟨attachment, more, isClient, allowed⟩ := served.attached
    refine ⟨new ++ [attachment], by rw [more, log, append_assoc], ?_⟩
    intro entry member
    rcases mem_append.mp member with old | added
    · exact granted entry old
    · rw [mem_singleton.mp added]
      exact ⟨data, isClient ▸ before, served.isClient, own, samePath ▸ allowed⟩
  · intro next member
    obtain ⟨same, nextData, nextFound, node⟩ := publishing.left next (mem_cons_of_mem _ member)
    have ne : next ≠ client := fun equal => nodup.1 (equal ▸ member)
    have below : next < current.nextChan := publishing.chans.below (same.trans nextFound)
    exact ⟨(served.others next ne below).trans same, nextData, nextFound, node⟩
  · rw [served.memory, ← admits]
    simp only [access, memory, true_and]

theorem publishTo_publishing : wp (publishTo port client) (fun _ => Publishing callers state port portData goal rest)
      (fun reason _ => reason = .assertion .waitingInList ∧ ¬goal) current := by
  obtain ⟨same, data, before, node⟩ := publishing.left client mem_cons_self
  obtain ⟨nowData, portFound, listening, samePath, sameFlags⟩ := publishing.listening
  have access := checkAccess_flags sameFlags data.uuid
  have admits := publishing.admits
  rw [Port.AdmitsAll, before] at admits
  simp only [bind_some] at admits
  have found : current.chans client = some data := by rw [same, before]
  have nodup := nodup_cons.mp publishing.nodup
  apply wp_mono (publishTo_spec publishing.toResting portFound found node)
  · rintro _ final (⟨other, rfl⟩ | ⟨own, admitted, served⟩)
    · rw [samePath] at other
      rw [if_neg other] at admits
      exact { publishing with
        left := fun next member => publishing.left next (mem_cons_of_mem _ member)
        nodup := nodup.2
        admits := admits }
    · rw [samePath] at own
      rw [if_pos own] at admits
      exact publishing.served before own samePath sameFlags admitted admits served
  · rintro reason _ ⟨assertion, own, refused⟩
    refine ⟨assertion, fun holds => refused ?_⟩
    rw [samePath] at own
    rw [if_pos own] at admits
    obtain ⟨allowed, memory, _⟩ := admits.mpr holds
    exact ⟨listening, access.trans allowed, memory⟩

end

end

/-- Another port is published under the path, or all clients that wait for it
can be attached. -/
def IpcState.CanPublish (state : IpcState) (data : Port) : Prop :=
  (∃ port other, state.ports port = some other ∧ other.node = true ∧ other.path = data.path) ∨
    data.AdmitsAll state.chans state.waitingForPortChanList state.memory

structure Published (callers : PortId → Nat) (state : IpcState) (path : Path)
    (final : IpcState) : Prop extends Resting callers final where
  later : Later state final
  refs : final.refs = state.refs
  attached : ∃ new : List Attachment, final.attached = state.attached ++ new ∧
    ∀ attachment ∈ new, ∃ data, state.chans attachment.client = some data ∧
      data.server = false ∧ data.path = some path ∧ attachment.Granted data.uuid path
  logged : state.Logged → final.Logged

def Port.listed (data : Port) : Port :=
  { data with state := .listening, node := true, refcnt := data.refcnt + 1 }

def IpcState.withListed (state : IpcState) (port : PortId) (data : Port) : IpcState :=
  (state.setPort port (some data.listed)).setListed (state.ipcPortList ++ [port])

section

variable (resting : Resting callers state) (found : state.ports port = some portData)
include resting found

theorem publishing_start (unique : ∀ other otherData, state.ports other = some otherData → otherData.node = true →
      otherData.path ≠ portData.path) :
    Publishing callers state port portData (portData.AdmitsAll state.chans state.waitingForPortChanList state.memory)
      state.waitingForPortChanList (state.withListed port portData) where
  chans := ChansOk.setListed (resting.chans.setPort found portData.listed rfl) _
  ports := resting.ports.publish found unique
  later := .of_eq rfl rfl resting.chans.fresh
  refs := rfl
  attached := ⟨[], (append_nil _).symm, nofun⟩
  logged := fun before => before.later (.of_eq rfl rfl resting.chans.fresh) rfl
  listening := ⟨portData.listed, by simp [IpcState.withListed], rfl, rfl, rfl⟩
  left := fun client member => ⟨rfl, (resting.chans.waiting client).mp member⟩
  nodup := resting.chans.waitingNodup
  admits := Iff.rfl

theorem ipcPortPublish_spec : wp (ipcPortPublish port)
      (fun _ final => state.CanPublish portData ∧ Published callers state portData.path final)
      (fun reason _ => ¬state.CanPublish portData ∧ reason = .assertion .waitingInList) state := by
  rw [ipcPortPublish, wp_bind, wp_getPort found, wp_bind]
  apply wp_mono (portFindLocked_finds resting.ports) _ fun _ _ stops => stops.elim
  rintro result middle ⟨same, finds⟩
  rw [same]
  cases result with
  | some other =>
    refine ⟨.inl ⟨other, finds⟩, { resting with
      later := .of_eq rfl rfl resting.chans.fresh
      refs := rfl
      attached := ⟨[], (append_nil _).symm, nofun⟩
      logged := id }⟩
  | none =>
  have there : ((state.setPort port (some { portData with
      state := .listening, node := true })).setListed (state.ipcPortList ++ [port])).ports port =
        some { portData with state := .listening, node := true } := by
    simp
  have twice : ((state.setPort port (some { portData with
      state := .listening, node := true })).setListed (state.ipcPortList ++ [port])).setPort port
        (some portData.listed) = state.withListed port portData := by
    simp only [IpcState.withListed, IpcState.setPort, IpcState.setListed, Function.update_idem]
  have loop := wp_forM (fun _ => Publishing callers state port portData
      (portData.AdmitsAll state.chans state.waitingForPortChanList state.memory))
    (fun _ _ _ _ => publishTo_publishing) (publishing_start resting found finds)
  rw [wp_bind, wp_modifyPort found, wp_bind, wp_modify, wp_bind, portHandleIncref]
  refine (wp_modifyPort there).mpr ?_
  refine (congrArg (wp _ _ _) twice).mpr ?_
  rw [wp_bind, wp_get, wp_bind]
  apply wp_mono loop
  · intro _ final published
    refine ⟨.inr (published.admits.mp trivial), { published with }⟩
  rintro reason _ ⟨assertion, refused⟩
  refine ⟨?_, assertion⟩
  rintro (⟨other, otherData, otherFound, listed, samePath⟩ | admits)
  · exact finds other otherData otherFound listed samePath
  · exact refused admits

end

end Loop

end Trusty.Ipc
