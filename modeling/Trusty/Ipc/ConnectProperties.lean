import Trusty.Ipc.ShutdownProperties

/-!
# Attaching and connecting

A client is attached to a port that listens and whose flags allow it, if five
allocations succeed. Otherwise nothing is left of the attempt.
-/

namespace Trusty.Ipc

open Function (update update_apply update_idem)

open StateLogic List IpcState References

def Port.addPending (data : Port) (server : ChanId) : Port :=
  { data with pendingList := data.pendingList ++ [server], refcnt := data.refcnt + 1 }

section Attach

variable {state : IpcState} {post : Unit → IpcState → Prop} {stop : Stop → IpcState → Prop}

theorem wp_attachServer {port : PortId} {client server : ChanId} {data serverData : Chan} {portData : Port}
    (found : state.chans client = some data) (serverFound : state.chans server = some serverData) (ne : client ≠ server)
    (portFound : state.ports port = some portData) (clientAlone : References.linked state.links (.peer client) = false)
    (serverAlone : References.linked state.links (.peer server) = false)
    (unqueued : References.linked state.links (.node server) = false) :
    wp (attachServer port client server) post stop state ↔
      wp (chanDelRef server (.tmp .server)) post stop (state.attachPair
        ⟨client, server, port, portData.addPending server⟩
        { data with state := .connecting, peer := some server }
        { serverData with
          state := .accepting, peer := some client, node := some (.pending port) }
        (portData.addPending server)) := by
  simp [attachServer, modifyChan, getChan, setChan, chanAddRef, listAddPending, modifyPort,
    getPort, setPort, portHandleIncref, found, serverFound, ne, ne.symm, portFound,
    linked_add, addLink_links, clientAlone, serverAlone, unqueued]
  refine iff_of_eq (congrArg _ ?_)
  -- Both channels have been written several times, the last values are those of the pair.
  simp only [IpcState.attachPair, IpcState.setChan, IpcState.addLink, IpcState.setPort,
    IpcState.addAttached, update_idem, Port.addPending]
  congr 1
  funext other
  grind

end Attach

/-- The port takes the client, and there is memory for the connection: for the
server, and for two queues with a buffer each. -/
def Port.Admits (data : Port) (uuid : Option Uuid) (memory : List Bool) : Prop :=
  data.state = .listening ∧ checkAccess data uuid = .ok () ∧ (memory.take 5).all id = true

def IpcState.spend (state : IpcState) (nextChan : ChanId) (memory : List Bool) : IpcState :=
  { state with nextChan := nextChan, memory := memory }

def Refused (state final : IpcState) : Prop :=
  ∃ nextChan memory, state.nextChan ≤ nextChan ∧ final = state.spend nextChan memory

structure Attached (tmp : Tmp) (callers : PortId → Nat) (state : IpcState) (port : PortId)
    (portData : Port) (client : ChanId) (data : Chan) (final : IpcState) : Prop where
  chans : ChansOk tmp none final
  ports : PortsOk callers final
  later : Later state final
  refs : final.refs = state.refs
  attached : final.attached =
    state.attached ++ [⟨client, state.nextChan, port, portData.addPending state.nextChan⟩]
  kept : Attachment.Kept ⟨client, state.nextChan, port, portData.addPending state.nextChan⟩ final
  connecting : final.chans client = some (data.connectingTo state.nextChan
    (.create portData.numRecvBufs portData.recvBufSize))
  others : ∀ other, other ≠ client → other < state.nextChan → final.chans other = state.chans other
  pending : final.ports port = some (portData.addPending state.nextChan)
  memory : final.memory = state.memory.drop 5
  waiting : final.waitingForPortChanList = state.waitingForPortChanList

theorem Attached.logged {tmp : Tmp} {callers : PortId → Nat} {state final : IpcState} {port : PortId} {portData : Port}
    {client : ChanId} {data : Chan} (attached : Attached tmp callers state port portData client data final)
    (logged : state.Logged) : final.Logged :=
  logged.attach attached.later attached.attached attached.kept rfl

structure Attachable (tmp : Tmp) (state : IpcState) (client : ChanId) (data : Chan) : Prop where
  found : state.chans client = some data
  unattached : data.peer = none
  unqueued : data.node = none
  unnamed : data.path = none
  noQueue : data.msgQueue = none
  isClient : data.server = false
  held : tmp .client = some client
  before : data.state = .invalid ∨ data.state = .waitingForPort

section Memory

variable {state : IpcState} {stop : Stop → IpcState → Prop}

theorem wp_alloc {post : Bool → IpcState → Prop} : wp alloc post stop state ↔
      post (state.memory.headD true) (state.spend state.nextChan state.memory.tail) := Iff.rfl

theorem wp_chanAlloc {post : Option ChanId → IpcState → Prop} (server : Bool) (uuid : Option Uuid) (ref : Ref) :
    wp (chanAlloc server uuid ref) post stop state ↔ if state.memory.headD true then
        post (some state.nextChan) ((state.spend state.nextChan state.memory.tail).allocChan (newChan server uuid) ref)
      else
        post none (state.spend state.nextChan state.memory.tail) := by
  rw [chanAlloc, wp_bind, wp_alloc]
  split <;> rfl

theorem wp_ipcMsgQueueCreate {post : Option MsgQueue → IpcState → Prop} (stateAt : List Bool → IpcState)
    (spends : ∀ memory, (stateAt memory).memory = memory ∧ ∀ next,
      (stateAt memory).spend (stateAt memory).nextChan next = stateAt next) (numItems itemSz : Nat)
    (memory : List Bool) :
    wp (ipcMsgQueueCreate numItems itemSz) post stop (stateAt memory) ↔ if memory.headD true = true then
        if memory.tail.headD true = true then
          post (some (.create numItems itemSz)) (stateAt memory.tail.tail)
        else
          post none (stateAt memory.tail.tail)
      else
        post none (stateAt memory.tail) := by
  rw [ipcMsgQueueCreate, wp_bind, wp_alloc, (spends memory).2, (spends memory).1]
  split
  · rw [wp_bind, wp_alloc, (spends memory.tail).2, (spends memory.tail).1]
    split <;> rfl
  · rfl

theorem all_take_five (memory : List Bool) :
    (memory.take 5).all id = true ↔ memory.headD true = true ∧ memory.tail.headD true = true ∧
      memory.tail.tail.headD true = true ∧ memory.tail.tail.tail.headD true = true ∧
      memory.tail.tail.tail.tail.headD true = true := by
  rcases memory with _ | ⟨first, _ | ⟨second, _ | ⟨third, _ | ⟨fourth, _ | ⟨fifth, rest⟩⟩⟩⟩⟩ <;> simp

theorem drop_five (memory : List Bool) : memory.drop 5 = memory.tail.tail.tail.tail.tail := by
  simp only [← drop_one, drop_drop]

end Memory

def IpcState.withServer (state : IpcState) (uuid : Option Uuid) (memory : List Bool) : IpcState :=
  (state.spend state.nextChan memory).allocChan (newChan true uuid) (.tmp .server)

section Server

variable {tmp : Tmp} {state : IpcState}

theorem ChansOk.spend (ok : ChansOk tmp none state) {nextChan : ChanId} (le : state.nextChan ≤ nextChan)
    (memory : List Bool) : ChansOk tmp none (state.spend nextChan memory) :=
  { ok with fresh := fun chan above => ok.fresh chan (Nat.le_trans le above) }

section

variable {post : Unit → IpcState → Prop} {stop : Stop → IpcState → Prop}
  (ok : ChansOk tmp none state)
include ok

theorem wp_discard {role : Role} (unused : tmp role = none) (server : Bool)
    (uuid : Option Uuid) (nextChan : ChanId) (memory : List Bool) :
    wp (chanDelRef state.nextChan (.tmp role)) post stop
        ((state.allocChan (newChan server uuid) (.tmp role)).spend nextChan memory) ↔
      post () (state.spend nextChan memory) := by
  have absent := ok.fresh state.nextChan (Nat.le_refl _)
  have unlinked : References.linked state.links (.tmp role) = false := ok.unlinked unused
  have found : ((state.allocChan (newChan server uuid) (.tmp role)).spend nextChan memory).chans
      state.nextChan = some (newChan server uuid) := by
    simp [IpcState.allocChan, IpcState.spend]
  have linked : References.linked ((state.allocChan (newChan server uuid) (.tmp role)).spend
      nextChan memory).links (.tmp role) = true := by
    simp [IpcState.allocChan, IpcState.spend, linked_add]
  have links : References.drop ((state.allocChan (newChan server uuid) (.tmp role)).spend nextChan
      memory).links (.tmp role) = state.links :=
    drop_add unlinked _
  have unreferenced : References.referenced state.links state.nextChan = false := by
    rw [Bool.eq_false_iff]
    intro referenced
    obtain ⟨ref, held⟩ := (ok.links.referenced_iff _).mp referenced
    simpa [absent] using ok.alive held
  have same : (((state.allocChan (newChan server uuid) (.tmp role)).spend nextChan memory).dropLink
      (.tmp role)).settle state.nextChan = state.spend nextChan memory := by
    rw [IpcState.settle, IpcState.dropLink, links, unreferenced]
    simp [IpcState.allocChan, IpcState.spend, IpcState.setChan, ← absent]
  rw [wp_chanDelRef found linked fun _ => ⟨rfl, rfl⟩, same]

theorem wp_discardServer (noServer : tmp .server = none) (uuid : Option Uuid) (memory : List Bool) :
    wp (chanDelRef state.nextChan (.tmp .server)) post stop (state.withServer uuid memory) ↔
      post () (state.spend (state.nextChan + 1) memory) :=
  wp_discard ok noServer true uuid (state.nextChan + 1) memory

end

section Complete

variable {callers : PortId → Nat} {port : PortId} {portData : Port} {client : ChanId}
  {data : Chan}

def IpcState.withQueues (state : IpcState) (portData : Port) (client : ChanId) (data : Chan) :
    IpcState :=
  ((state.withServer portData.uuid (state.memory.drop 5)).setChan client (some { data with
    msgQueue := some (.create portData.numRecvBufs portData.recvBufSize) })).setChan state.nextChan
      (some { newChan true portData.uuid with
        msgQueue := some (.create portData.numRecvBufs portData.recvBufSize) })

def IpcState.withPair (state : IpcState) (port : PortId) (portData : Port) (client : ChanId)
    (data : Chan) : IpcState :=
  (state.withServer portData.uuid (state.memory.drop 5)).attachPair
    ⟨client, state.nextChan, port, portData.addPending state.nextChan⟩
    (data.connectingTo state.nextChan (.create portData.numRecvBufs portData.recvBufSize))
    ((newChan true portData.uuid).acceptingFrom client port
      (.create portData.numRecvBufs portData.recvBufSize))
    (portData.addPending state.nextChan)

theorem ChansOk.withPair (ok : ChansOk tmp none state) (portFound : state.ports port = some portData)
    (noServer : tmp .server = none) (attachable : Attachable tmp state client data) :
    ChansOk (tmp.set .server (some state.nextChan)) none (state.withPair port portData client data) := by
  have le := Nat.le_refl state.nextChan
  have absent := ok.fresh state.nextChan le
  have allocated : ChansOk (tmp.set .server (some state.nextChan)) none
      (state.withServer portData.uuid (state.memory.drop 5)) :=
    (ok.spend le (state.memory.drop 5)).alloc noServer true portData.uuid
  have ne : client ≠ state.nextChan := by
    rintro rfl
    simpa [absent] using attachable.found
  have chans : ∀ other, (state.withServer portData.uuid (state.memory.drop 5)).chans other =
      if other = state.nextChan then some (newChan true portData.uuid) else state.chans other :=
    fun other => update_apply ..
  have found : (state.withServer portData.uuid (state.memory.drop 5)).chans client = some data := by
    rw [chans, if_neg ne, attachable.found]
  have held : (tmp.set .server (some state.nextChan)).Has client :=
    ⟨.client, by rw [Tmp.set_apply, if_neg (by decide), attachable.held]⟩
  exact allocated.attach found (by rw [chans, if_pos rfl]) ne portFound rfl
    attachable.unattached attachable.unqueued attachable.unnamed attachable.isClient held
    attachable.before rfl rfl ⟨rfl, rfl⟩ ⟨rfl, rfl⟩

theorem wp_attachServer_withPair {post : Unit → IpcState → Prop} {stop : Stop → IpcState → Prop}
    (ok : ChansOk tmp none state) (portFound : state.ports port = some portData)
    (attachable : Attachable tmp state client data) :
    wp (attachServer port client state.nextChan) post stop (state.withQueues portData client data) ↔
      wp (chanDelRef state.nextChan (.tmp .server)) post stop (state.withPair port portData client data) := by
  have absent := ok.fresh state.nextChan (Nat.le_refl _)
  have ne : client ≠ state.nextChan := by
    rintro rfl
    simpa [absent] using attachable.found
  have found : (state.withQueues portData client data).chans client = some { data with
      msgQueue := some (.create portData.numRecvBufs portData.recvBufSize) } := by
    simp [IpcState.withQueues, ne]
  have serverFound : (state.withQueues portData client data).chans state.nextChan =
      some { newChan true portData.uuid with
        msgQueue := some (.create portData.numRecvBufs portData.recvBufSize) } := by
    simp [IpcState.withQueues]
  have links : (state.withQueues portData client data).links =
      References.add state.links (.tmp .server) state.nextChan := rfl
  have unlinked : ∀ ref, ref ≠ .tmp .server → state.holder tmp ref = none →
      References.linked (state.withQueues portData client data).links ref = false := by
    intro ref other free
    simp [links, linked_add, ok.unlinked free, other.symm]
  have clientAlone := unlinked (.peer client) (by simp) (by
    simp [IpcState.holder, attachable.found, attachable.unattached])
  have serverAlone := unlinked (.peer state.nextChan) (by simp) (by simp [IpcState.holder, absent])
  have unqueued := unlinked (.node state.nextChan) (by simp) (by simp [IpcState.holder, absent])
  have pair : (state.withQueues portData client data).attachPair
      ⟨client, state.nextChan, port, portData.addPending state.nextChan⟩
      (data.connectingTo state.nextChan (.create portData.numRecvBufs portData.recvBufSize))
      ((newChan true portData.uuid).acceptingFrom client port (.create portData.numRecvBufs portData.recvBufSize))
      (portData.addPending state.nextChan) = state.withPair port portData client data := by
    simp only [IpcState.withQueues, IpcState.withPair, IpcState.attachPair, IpcState.setChan,
      IpcState.addLink, IpcState.setPort, IpcState.addAttached]
    congr 1
    funext other
    grind
  refine (wp_attachServer found serverFound ne portFound clientAlone serverAlone
    unqueued).trans (iff_of_eq (congrArg _ ?_))
  exact pair

theorem IpcState.withPair_chans (other : ChanId) : (state.withPair port portData client data).chans other =
      if other = state.nextChan then some ((newChan true portData.uuid).acceptingFrom client port
        (.create portData.numRecvBufs portData.recvBufSize))
      else if other = client then some (data.connectingTo state.nextChan
        (.create portData.numRecvBufs portData.recvBufSize))
      else state.chans other := by
  rw [withPair, attachPair_chans]
  by_cases same : other = state.nextChan
  · simp [same]
  · simp [same, withServer, allocChan, spend]

theorem Later.withPair (ok : ChansOk tmp none state) (attachable : Attachable tmp state client data) :
    Later state (state.withPair port portData client data) where
  nextChan := Nat.le_succ _
  old := by
    intro other next below found
    rw [withPair_chans, if_neg (Nat.ne_of_lt below)] at found
    split at found
    · rename_i same
      cases found
      have onward : data.Onward (data.connectingTo state.nextChan
          (.create portData.numRecvBufs portData.recvBufSize)) := by
        have before := attachable.before
        refine ⟨rfl, rfl, ?_, ?_, ?_, .inr rfl, ?_, ?_⟩
        · grind
        · grind
        · simp [attachable.unattached]
        · simp [attachable.noQueue]
        · rintro _ mq made
          cases made
          exact ⟨_, _, rfl⟩
      exact ⟨data, same ▸ attachable.found, onward⟩
    · exact ⟨next, found, .refl next⟩
  new := by
    intro other next above found
    have absent := ok.fresh other above
    rw [withPair_chans] at found
    split at found
    · cases found
      refine ⟨rfl, ?_⟩
      rintro mq made
      cases made
      exact ⟨_, _, rfl⟩
    · split at found
      · rename_i same
        rw [same, attachable.found] at absent
        cases absent
      · rw [absent] at found
        cases found

theorem Attachment.Kept.withPair (below : client < state.nextChan) :
    Attachment.Kept ⟨client, state.nextChan, port, portData.addPending state.nextChan⟩
      (state.withPair port portData client data) where
  clientOld := Nat.lt_succ_of_lt below
  serverOld := Nat.lt_succ_self _
  client := by
    intro next found _
    rw [withPair_chans, if_neg (Nat.ne_of_lt below), if_pos rfl] at found
    cases found
    rfl
  server := by
    intro next found _
    rw [withPair_chans, if_pos rfl] at found
    cases found
    rfl

theorem IpcState.refs_withPair (ok : ChansOk tmp none state) (attachable : Attachable tmp state client data) :
    (state.withPair port portData client data).refs = state.refs := by
  have absent := ok.fresh state.nextChan (Nat.le_refl _)
  funext other
  rw [refs, withPair_chans]
  split
  · rename_i same
    rw [same, refs, absent]
    rfl
  split
  · rename_i same
    rw [same, refs, attachable.found]
    rfl
  · rfl

theorem attachServer_attached (ok : ChansOk tmp none state) (ports : PortsOk callers state)
    (portFound : state.ports port = some portData) (noServer : tmp .server = none)
    (attachable : Attachable tmp state client data) :
    wp (attachServer port client state.nextChan)
      (fun _ => Attached tmp callers state port portData client data) (fun _ _ => False)
      (state.withQueues portData client data) := by
  have paired := ok.withPair portFound noServer attachable
  have below : client < state.nextChan := ok.below attachable.found
  have found : (state.withPair port portData client data).chans state.nextChan =
      some ((newChan true portData.uuid).acceptingFrom client port
        (.create portData.numRecvBufs portData.recvBufSize)) := by
    rw [withPair_chans, if_pos rfl]
  have own : (tmp.set .server (some state.nextChan)) .server = some state.nextChan := by
    simp [Tmp.set_apply]
  have back : (tmp.set .server (some state.nextChan)).set .server none = tmp := by
    funext role
    simp only [Tmp.set_apply]
    grind
  have tmpHeld : (state.withPair port portData client data).holder
      (tmp.set .server (some state.nextChan)) (.tmp .server) = some state.nextChan := own
  have nodeHeld : (state.withPair port portData client data).holder
      (tmp.set .server (some state.nextChan)) (.node state.nextChan) = some state.nextChan := by
    simp [IpcState.holder, found, Chan.acceptingFrom]
  have ne : Ref.node state.nextChan ≠ .tmp .server := by simp
  have referenced := paired.still_referenced ne nodeHeld
  have loose : ChansOk tmp (some state.nextChan)
      ((state.withPair port portData client data).dropLink (.tmp .server)) := by
    have dropped := paired.delTmp own found (by simp [Chan.Shaped, Chan.acceptingFrom, newChan])
      (by simp [Chan.acceptingFrom])
    rwa [back] at dropped
  have stays : ((state.withPair port portData client data).dropLink (.tmp .server)).settle
      state.nextChan = (state.withPair port portData client data).dropLink (.tmp .server) :=
    if_pos referenced
  rw [wp_attachServer_withPair ok portFound attachable, wp_chanDelRef found (paired.linked tmpHeld)
    (absurd · (ne_false_of_eq_true referenced)), stays]
  constructor
  · exact loose.tighten ⟨.node state.nextChan, by
      simp [IpcState.holder, found, Chan.acceptingFrom]⟩
  · exact (ports.addPending portFound state.nextChan).congr rfl rfl rfl
  · exact (Later.withPair ok attachable).trans (.dropLink _ paired.fresh)
  · exact refs_withPair ok attachable
  · rfl
  · exact (Attachment.Kept.withPair below).later (.dropLink _ paired.fresh)
  · rw [dropLink_chans, withPair_chans, if_neg (Nat.ne_of_lt below), if_pos rfl]
  · intro other ne old
    rw [dropLink_chans, withPair_chans, if_neg (Nat.ne_of_lt old), if_neg ne]
  · simp [IpcState.withPair, attachPair_ports]
  · rfl
  · rfl

end Complete

end Server

section PortAttach

variable {tmp : Tmp} {callers : PortId → Nat} {state : IpcState} {port : PortId}
  {portData : Port} {client : ChanId} {data : Chan}

theorem Refused.spend (state : IpcState) (memory : List Bool) :
    Refused state (state.spend (state.nextChan + 1) memory) :=
  ⟨_, _, Nat.le_succ _, rfl⟩

theorem IpcState.withServer_chans (uuid : Option Uuid) (memory : List Bool) (chans : ChansOk tmp none state)
    (found : state.chans client = some data) : (state.withServer uuid memory).chans client = some data := by
  have ne : client ≠ state.nextChan := by
    rintro rfl
    simp [chans.fresh state.nextChan (Nat.le_refl _)] at found
  simp [withServer, allocChan, spend, ne, found]

theorem wp_undoQueue {post : Unit → IpcState → Prop} {stop : Stop → IpcState → Prop} (chans : ChansOk tmp none state)
    (noServer : tmp .server = none) (attachable : Attachable tmp state client data) (uuid : Option Uuid)
    (memory : List Bool) (mq : MsgQueue) :
    wp (do
        modifyChan client fun data => { data with msgQueue := none }
        chanDelRef state.nextChan (.tmp .server)) post stop
        ((state.withServer uuid memory).setChan client (some { data with msgQueue := some mq })) ↔
      post () (state.spend (state.nextChan + 1) memory) := by
  have found := withServer_chans uuid memory chans attachable.found
  have before : { data with msgQueue := none } = data := by rw [← attachable.noQueue]
  have back : ((state.withServer uuid memory).setChan client (some { data with
      msgQueue := some mq })).setChan client (some { data with msgQueue := none }) = state.withServer uuid memory := by
    rw [before, IpcState.setChan, IpcState.setChan, update_idem, ← found, Function.update_eq_self]
  rw [wp_bind, wp_modifyChan (setChan_chans_self ..), back, wp_discardServer chans noServer]

section

variable (chans : ChansOk tmp none state) (ports : PortsOk callers state)
  (portFound : state.ports port = some portData) (noServer : tmp .server = none)
  (attachable : Attachable tmp state client data)
include chans ports portFound noServer attachable

theorem attachQueues_spec (first : state.memory.headD true = true) :
    wp (attachQueues port portData client state.nextChan) (fun result final => match result with
        | .ok _ => (state.memory.take 5).all id = true ∧
            Attached tmp callers state port portData client data final
        | .error _ => ¬(state.memory.take 5).all id = true ∧ Refused state final)
      (fun _ _ => False) (state.withServer portData.uuid state.memory.tail) := by
  have found := fun memory => withServer_chans portData.uuid memory chans attachable.found
  have serverFound : ∀ memory, ((state.withServer portData.uuid memory).setChan client
      (some { data with msgQueue := some (.create portData.numRecvBufs
        portData.recvBufSize) })).chans state.nextChan = some (newChan true portData.uuid) := by
    intro memory
    have ne : state.nextChan ≠ client := by
      rintro same
      have absent := chans.fresh state.nextChan (Nat.le_refl _)
      rw [same, attachable.found] at absent
      cases absent
    rw [setChan_chans_ne _ _ _ _ ne]
    simp [IpcState.withServer, IpcState.allocChan, IpcState.spend]
  rw [all_take_five, attachQueues, wp_bind, wp_ipcMsgQueueCreate (state.withServer portData.uuid)
    fun _ => ⟨rfl, fun _ => rfl⟩]
  by_cases second : state.memory.tail.headD true = true
  · rw [if_pos second]
    by_cases third : state.memory.tail.tail.headD true = true
    · rw [if_pos third, wp_bind, wp_modifyChan (found _), wp_bind, wp_ipcMsgQueueCreate
        (fun memory => (state.withServer portData.uuid memory).setChan client (some { data with
          msgQueue := some (.create portData.numRecvBufs portData.recvBufSize) }))
        fun _ => ⟨rfl, fun _ => rfl⟩]
      by_cases fourth : state.memory.tail.tail.tail.headD true = true
      · rw [if_pos fourth]
        by_cases fifth : state.memory.tail.tail.tail.tail.headD true = true
        · rw [if_pos fifth, wp_bind, wp_modifyChan (serverFound _), ← drop_five, wp_bind]
          apply wp_mono (attachServer_attached chans ports portFound noServer attachable) _ fun _ _ stops => stops
          exact fun _ final attached => ⟨⟨first, second, third, fourth, fifth⟩, attached⟩
        · rw [if_neg fifth, ← bind_assoc, wp_bind, wp_undoQueue chans noServer attachable]
          exact ⟨fun all => fifth all.2.2.2.2, .spend _ _⟩
      · rw [if_neg fourth, ← bind_assoc, wp_bind, wp_undoQueue chans noServer attachable]
        exact ⟨fun all => fourth all.2.2.2.1, .spend _ _⟩
    · rw [if_neg third, wp_bind, wp_discardServer chans noServer]
      exact ⟨fun all => third all.2.2.1, .spend _ _⟩
  · rw [if_neg second, wp_bind, wp_discardServer chans noServer]
    exact ⟨fun all => second all.2.1, .spend _ _⟩

theorem portAttachClient_spec : wp (portAttachClient port client) (fun result final => match result with
        | .ok _ => portData.Admits data.uuid state.memory ∧
            Attached tmp callers state port portData client data final
        | .error _ => ¬portData.Admits data.uuid state.memory ∧ Refused state final)
      (fun _ _ => False) state := by
  rw [portAttachClient, wp_bind, wp_getPort portFound]
  by_cases listening : portData.state = .listening
  · rw [if_neg (not_not_intro listening), wp_bind, wp_getChan attachable.found]
    cases access : checkAccess portData data.uuid with
    | error reason =>
      refine ⟨fun admits => ?_, state.nextChan, state.memory, Nat.le_refl _, rfl⟩
      have allowed := admits.2.1
      rw [access] at allowed
      cases allowed
    | ok _ =>
    rw [wp_bind, wp_chanAlloc]
    have admits : portData.Admits data.uuid state.memory ↔ (state.memory.take 5).all id = true :=
      ⟨fun admits => admits.2.2, fun all => ⟨listening, access, all⟩⟩
    rw [admits, all_take_five]
    by_cases first : state.memory.headD true = true
    · rw [if_pos first, ← all_take_five]
      exact attachQueues_spec chans ports portFound noServer attachable first
    · rw [if_neg first]
      exact ⟨fun all => first all.1, state.nextChan, _, Nat.le_refl _, rfl⟩
  · rw [if_pos listening]
    exact ⟨fun admits => listening admits.1, state.nextChan, state.memory, Nat.le_refl _, rfl⟩

end

end PortAttach

section Connect

variable {callers : PortId → Nat} {state : IpcState} {path : Path}

/-- What `port_find_locked` returns. -/
def Finds (state : IpcState) (path : Path) : Option PortId → Prop
  | some port => ∃ data, state.ports port = some data ∧ data.node = true ∧ data.path = path
  | none => ∀ port data, state.ports port = some data → data.node = true → data.path ≠ path

theorem portFindLocked_finds (ports : PortsOk callers state) :
    wp (portFindLocked path) (fun found final => final = state ∧ Finds state path found) (fun _ _ => False) state := by
  -- The ports in front of the rest of the list have other paths.
  have loop : ∀ rest, (∀ port ∈ rest, port ∈ state.ipcPortList) →
      (∀ port data, state.ports port = some data → data.node = true → port ∉ rest → data.path ≠ path) →
      wp (portFindIn path rest) (fun found final => final = state ∧ Finds state path found)
        (fun _ _ => False) state := by
    intro rest
    induction rest with
    | nil => exact fun _ others => ⟨rfl, fun port data found node =>
      others port data found node not_mem_nil⟩
    | cons port rest ih =>
    intro listed others
    obtain ⟨data, found, node⟩ := (ports.listed port).mp (listed port mem_cons_self)
    rw [portFindIn, wp_bind, wp_getPort found]
    by_cases same : path = data.path
    · rw [if_pos same]
      exact ⟨rfl, data, found, node, same.symm⟩
    rw [if_neg same]
    refine ih (fun other member => listed other (mem_cons_of_mem _ member)) ?_
    intro other otherData otherFound otherNode absent
    by_cases this : other = port
    · rw [this, found] at otherFound
      cases otherFound
      exact fun equal => same equal.symm
    · exact others other otherData otherFound otherNode (by simp [this, absent])
  refine loop state.ipcPortList (fun _ => id) fun port data found node absent => ?_
  exact absurd ((ports.listed port).mpr ⟨data, found, node⟩) absent

theorem wp_chanHandleInit {post : Unit → IpcState → Prop} {stop : Stop → IpcState → Prop} {chan : ChanId} {data : Chan}
    (found : state.chans chan = some data) (unlinked : References.linked state.links (.handle chan) = false) :
    wp (chanHandleInit chan) post stop state ↔ post () ((state.setChan chan (some { data with refcnt := 1 })).addLink
        (.handle chan) chan) := by
  rw [chanHandleInit, wp_bind, wp_modifyChan found, wp_chanAddRef (setChan_chans_self ..) unlinked]

def Attachment.Granted (attachment : Attachment) (uuid : Option Uuid) (path : Path) : Prop :=
  attachment.port.state = .listening ∧ attachment.port.path = path ∧
    checkAccess attachment.port uuid = .ok ()

/-- A new channel for `cid`, which asks for `path`. -/
structure Chan.NewClient (data : Chan) (cid : Uuid) (path : Path) : Prop where
  uuid : data.uuid = some cid
  server : data.server = false
  noQueue : data.msgQueue = none
  path : data.path = none ∨ data.path = some path

structure Opened (tmp : Tmp) (callers : PortId → Nat) (state : IpcState) (cid : Uuid)
    (path : Path) (final : IpcState) : Prop where
  chans : ChansOk tmp none final
  ports : PortsOk callers final
  client : ∃ data, final.chans state.nextChan = some data ∧ data.refcnt = 1 ∧
    data.Shaped .rest state.nextChan
  later : ∃ start : Chan, start.NewClient cid path ∧
    Later (state.allocChan start (.tmp .client)) final
  refs : final.refs = update state.refs state.nextChan 1
  attached : final.attached = state.attached ∨ ∃ attachment : Attachment,
    final.attached = state.attached ++ [attachment] ∧ attachment.client = state.nextChan ∧
      attachment.Granted (some cid) path
  logged : state.Logged → final.Logged

/-- The local reference of `ipc_port_connect_async`. -/
def Tmp.client (chan : ChanId) : Tmp := Tmp.rest.set .client (some chan)

theorem Tmp.client_clear (chan : ChanId) : (Tmp.client chan).set .client none = .rest := by
  funext role
  simp [Tmp.client, Tmp.set_apply, Tmp.rest]

def IpcState.withClient (state : IpcState) (cid : Uuid) (memory : List Bool) : IpcState :=
  (state.spend state.nextChan memory).allocChan (newChan false (some cid)) (.tmp .client)

variable {cid : Uuid} {memory : List Bool}

theorem ChansOk.withClient (chans : ChansOk .rest none state) :
    ChansOk (.client state.nextChan) none (state.withClient cid memory) :=
  (chans.spend (Nat.le_refl _) memory).alloc rfl false (some cid)

theorem IpcState.withClient_chans :
    (state.withClient cid memory).chans state.nextChan = some (newChan false (some cid)) := by
  simp [withClient, allocChan, spend]

theorem IpcState.refs_withClient : (state.withClient cid memory).refs = update state.refs state.nextChan 0 := by
  funext other
  simp only [refs, withClient, allocChan, spend, update_apply]
  split <;> rfl

theorem IpcState.allocChan_fresh (chans : ChansOk .rest none state) (start : Chan) (other : ChanId)
    (above : state.nextChan + 1 ≤ other) : (state.allocChan start (.tmp .client)).chans other = none := by
  have absent := chans.fresh other (Nat.le_of_succ_le above)
  have ne : other ≠ state.nextChan := Nat.ne_of_gt above
  simp [allocChan, ne, absent]

theorem Later.of_withClient {final : IpcState} (chans : ChansOk .rest none state)
    (later : Later (state.withClient cid memory) final) :
    Later (state.allocChan (newChan false (some cid)) (.tmp .client)) final := by
  refine Later.trans ?_ later
  exact .of_eq rfl rfl (allocChan_fresh chans _)

theorem IpcState.Logged.withClient (logged : state.Logged) (chans : ChansOk .rest none state) :
    (state.withClient cid memory).Logged := by
  have spent : (state.spend state.nextChan memory).Logged := logged.later (.of_eq rfl rfl chans.fresh) rfl
  exact spent.allocChan _ _

theorem Opened.of_initHandle {middle : IpcState} {data : Chan} (chans : ChansOk (.client state.nextChan) none middle)
    (ports : PortsOk callers middle) (found : middle.chans state.nextChan = some data) (unheld : data.refcnt = 0)
    (invalid : data.state ≠ .invalid) (accepting : data.state ≠ .accepting)
    (pending : ∀ port, data.node ≠ some (.pending port))
    (shaped : Chan.Shaped { data with refcnt := 1 } .rest state.nextChan)
    (later : ∃ start : Chan, start.NewClient cid path ∧ Later (state.allocChan start (.tmp .client)) middle)
    (refs : middle.refs = update state.refs state.nextChan 0)
    (attached : middle.attached = state.attached ∨ ∃ attachment : Attachment,
      middle.attached = state.attached ++ [attachment] ∧ attachment.client = state.nextChan ∧
        attachment.Granted (some cid) path) (logged : state.Logged → middle.Logged) :
    wp (chanHandleInit state.nextChan)
      (fun _ => Opened (.client state.nextChan) callers state cid path) (fun _ _ => False)
      middle := by
  have unlinked : References.linked middle.links (.handle state.nextChan) = false :=
    chans.unlinked (by simp [IpcState.holder, found, unheld])
  have opened := chans.initHandle found unheld invalid accepting pending
  rw [wp_chanHandleInit found unlinked]
  obtain ⟨start, newClient, later⟩ := later
  have onward : data.Onward { data with refcnt := 1 } := { Chan.Onward.refl data with }
  have started : Later middle ((middle.setChan state.nextChan (some { data with
      refcnt := 1 })).addLink (.handle state.nextChan) state.nextChan) :=
    (Later.setChan found chans.fresh onward).trans (.of_eq rfl rfl opened.fresh)
  constructor
  · exact opened
  · exact ports.congr rfl rfl rfl
  · exact ⟨_, setChan_chans_self .., rfl, shaped⟩
  · exact ⟨start, newClient, later.trans started⟩
  · change (middle.setChan state.nextChan (some { data with refcnt := 1 })).refs = _
    rw [refs_update, refs, update_idem]
  · exact attached
  · exact fun before => (logged before).later started rfl

theorem Attached.opened {port : PortId} {portData : Port} {middle : IpcState} (chans : ChansOk .rest none state)
    (samePath : portData.path = path) (admits : portData.Admits (some cid) (state.withClient cid memory).memory)
    (attached : Attached (.client state.nextChan) callers (state.withClient cid memory) port
      portData state.nextChan (newChan false (some cid)) middle) :
    wp (chanHandleInit state.nextChan)
      (fun _ => Opened (.client state.nextChan) callers state cid path) (fun _ _ => False)
      middle := by
  refine Opened.of_initHandle attached.chans attached.ports attached.connecting rfl ?_ ?_ ?_ ?_ ?_ ?_ ?_ ?_
  · simp [Chan.connectingTo]
  · simp [Chan.connectingTo]
  · simp [Chan.connectingTo, newChan]
  · simp [Chan.Shaped, Chan.connectingTo, newChan]
  · exact ⟨newChan false (some cid), ⟨rfl, rfl, rfl, .inl rfl⟩, Later.of_withClient chans attached.later⟩
  · rw [attached.refs, refs_withClient]
  · exact .inr ⟨_, attached.attached, rfl, admits.1, samePath, admits.2.1⟩
  · exact fun before => attached.logged (before.withClient chans)

def Chan.waitingFor (data : Chan) (path : Path) : Chan :=
  { data with path := some path, state := .waitingForPort, node := some .waitingForPort }

theorem wp_enqueue {chan : ChanId} {data : Chan} {post : Except IpcError ChanId → IpcState → Prop}
    {stop : Stop → IpcState → Prop} (found : state.chans chan = some data)
    (unlinked : References.linked state.links (.node chan) = false) :
    wp (do
        modifyChan chan fun data => { data with path := some path }
        modifyChan chan fun data => { data with state := .waitingForPort }
        listAddWaiting chan
        chanAddRef chan (.node chan)
        chanHandleInit chan
        return .ok chan) post stop state ↔
      wp (chanHandleInit chan) (fun _ => post (.ok chan)) stop
        (((state.setChan chan (some (data.waitingFor path))).setWaiting
          (state.waitingForPortChanList ++ [chan])).addLink (.node chan) chan) := by
  simp [modifyChan, getChan, setChan, listAddWaiting, chanAddRef, found, unlinked]
  refine iff_of_eq (congrArg _ ?_)
  simp only [IpcState.setChan, IpcState.addLink, IpcState.setWaiting, update_idem, Chan.waitingFor]

section

variable (chans : ChansOk .rest none state) (ports : PortsOk callers state)
include chans ports

theorem waiting_opened : wp (chanHandleInit state.nextChan)
      (fun _ => Opened (.client state.nextChan) callers state cid path) (fun _ _ => False)
      ((((state.withClient cid memory).setChan state.nextChan
        (some ((newChan false (some cid)).waitingFor path))).setWaiting
          (state.waitingForPortChanList ++ [state.nextChan])).addLink (.node state.nextChan) state.nextChan) := by
  have shaped : Chan.Shaped ((newChan false (some cid)).waitingFor path) (.client state.nextChan) state.nextChan := by
    simp [Chan.Shaped, Chan.waitingFor, newChan, Tmp.client, Tmp.set_apply]
  have shapedHeld : Chan.Shaped { (newChan false (some cid)).waitingFor path with refcnt := 1 }
      .rest state.nextChan := by
    simp [Chan.Shaped, Chan.waitingFor, newChan]
  have found : (state.withClient cid memory).chans state.nextChan = some (newChan false (some cid)) := withClient_chans
  have linked := chans.withClient.linkWaiting found rfl rfl rfl rfl rfl shaped
  have later : Later (state.allocChan ((newChan false (some cid)).waitingFor path) (.tmp .client))
      ((((state.withClient cid memory).setChan state.nextChan
        (some ((newChan false (some cid)).waitingFor path))).setWaiting
          (state.waitingForPortChanList ++ [state.nextChan])).addLink (.node state.nextChan) state.nextChan) :=
    .of_eq (update_idem ..) rfl (allocChan_fresh chans _)
  refine Opened.of_initHandle linked (ports.congr rfl rfl rfl)
    (setChan_chans_self ..) rfl ?_ ?_ ?_ shapedHeld ?_ ?_ (.inl rfl)
    fun before => (before.allocChan _ (.tmp .client)).later later rfl
  · simp [Chan.waitingFor]
  · simp [Chan.waitingFor]
  · simp [Chan.waitingFor]
  · exact ⟨(newChan false (some cid)).waitingFor path, ⟨rfl, rfl, rfl, .inr rfl⟩, later⟩
  change ((state.withClient cid memory).setChan state.nextChan
    (some ((newChan false (some cid)).waitingFor path))).refs = _
  rw [refs_update, refs_withClient, update_idem]
  rfl

theorem connectClient_spec (waitForPort : Bool) :
    wp (connectClient state.nextChan path waitForPort) (fun result final => match result with
        | .ok chan => chan = state.nextChan ∧
            Opened (.client state.nextChan) callers state cid path final
        | .error _ => Refused (state.withClient cid memory) final)
      (fun _ _ => False) (state.withClient cid memory) := by
  have allocatedPorts : PortsOk callers (state.withClient cid memory) := ports.congr rfl rfl rfl
  rw [connectClient, wp_bind]
  apply wp_mono (portFindLocked_finds allocatedPorts) _ fun _ _ stops => stops
  rintro result _ ⟨rfl, finds⟩
  cases result with
  | some port =>
    obtain ⟨portData, portFound, _, samePath⟩ := finds
    have attachable : Attachable (.client state.nextChan) (state.withClient cid memory)
        state.nextChan (newChan false (some cid)) :=
      ⟨withClient_chans, rfl, rfl, rfl, rfl, rfl, rfl, .inl rfl⟩
    rw [wp_bind]
    apply wp_mono (portAttachClient_spec chans.withClient allocatedPorts portFound rfl
      attachable) _ fun _ _ stops => stops
    intro result middle outcome
    cases result with
    | error reason => exact outcome.2
    | ok _ =>
    rw [wp_bind]
    apply wp_mono (outcome.2.opened chans samePath outcome.1) _ fun _ _ stops => stops
    exact fun _ final opened => ⟨rfl, opened⟩
  | none =>
  cases waitForPort with
  | false => exact ⟨_, _, Nat.le_refl _, rfl⟩
  | true =>
  rw [Bool.not_true, if_neg nofun, wp_bind, wp_alloc]
  split
  · change wp _ _ _ (state.withClient cid memory.tail)
    have unlinked : References.linked (state.withClient cid memory.tail).links (.node state.nextChan) = false :=
      chans.withClient.unlinked (by simp [IpcState.holder, withClient_chans, newChan])
    rw [wp_enqueue withClient_chans unlinked]
    apply wp_mono (waiting_opened chans ports) _ fun _ _ stops => stops
    exact fun _ final opened => ⟨rfl, opened⟩
  · exact ⟨_, _, Nat.le_refl _, rfl⟩

end

theorem Resting.spend (resting : Resting callers state) {nextChan : ChanId} (le : state.nextChan ≤ nextChan)
    (memory : List Bool) : Resting callers (state.spend nextChan memory) ∧ Frame state (state.spend nextChan memory) :=
  ⟨⟨resting.chans.spend le memory, resting.ports.congr rfl rfl rfl⟩, .of_le rfl le rfl resting.chans.fresh⟩

theorem Opened.release {current : IpcState} (opened : Opened (.client state.nextChan) callers state cid path current) :
    wp (chanDelRef state.nextChan (.tmp .client))
      (fun _ => Opened .rest callers state cid path) (fun _ _ => False) current := by
  obtain ⟨data, found, refcnt, shaped⟩ := opened.client
  have held : 0 < data.refcnt := by omega
  have back : (Tmp.client state.nextChan).set .client none = .rest := Tmp.client_clear _
  have released := opened.chans.releaseHeld rfl found held (back ▸ shaped)
  rw [opened.chans.wp_releaseHeld rfl found held]
  obtain ⟨start, newClient, later⟩ := opened.later
  have dropped : Later current (current.dropLink (.tmp .client)) := .dropLink _ opened.chans.fresh
  refine ⟨back ▸ released, opened.ports.congr rfl rfl rfl, ⟨data, found, refcnt, shaped⟩,
    ⟨start, newClient, later.trans dropped⟩, opened.refs, opened.attached, ?_⟩
  exact fun before => (opened.logged before).later dropped rfl

theorem ipcPortConnectAsync_spec (resting : Resting callers state) (asker : Option Uuid) (maxPath : Nat)
    (waitForPort : Bool) :
    wp (ipcPortConnectAsync asker path maxPath waitForPort) (fun result final => match result with
        | .ok chan => chan = state.nextChan ∧
            ∃ cid, asker = some cid ∧ Opened .rest callers state cid path final
        | .error _ => Resting callers final ∧ Frame state final)
      (fun _ _ => False) state := by
  have le := Nat.le_refl state.nextChan
  unfold ipcPortConnectAsync
  cases asker with
  | none => exact resting.spend le state.memory
  | some cid =>
  dsimp only
  split
  · exact resting.spend le state.memory
  rw [wp_bind, wp_chanAlloc]
  split
  · rw [wp_bind]
    apply wp_mono (connectClient_spec resting.chans resting.ports waitForPort) _ fun _ _ stops => stops
    intro result middle outcome
    rw [wp_bind]
    cases result with
    | error reason =>
      obtain ⟨nextChan, memory, above, rfl⟩ := outcome
      refine (wp_discard resting.chans rfl false (some cid) nextChan memory).mpr ?_
      exact resting.spend (Nat.le_of_succ_le above) memory
    | ok chan =>
    obtain ⟨rfl, opened⟩ := outcome
    apply wp_mono opened.release _ fun _ _ stops => stops
    exact fun _ final released => ⟨rfl, cid, rfl, released⟩
  · exact resting.spend le state.memory.tail

end Connect

end Trusty.Ipc
