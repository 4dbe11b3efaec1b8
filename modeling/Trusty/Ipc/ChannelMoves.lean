import Trusty.Ipc.ChannelInvariant

/-!
# Steps of the channel calls

The calls change channels, lists and references in a few ways, and each of them
keeps the invariant.
-/

namespace Trusty.Ipc

open List IpcState

open Function (update)
open References (held_update)

open Function (update_apply)
open IpcState (setChan_chans setChan_chans_self setChan_chans_ne dropLink_chans addLink_chans setWaiting_chans)

namespace ChansOk

variable {tmp : Tmp} {state : IpcState}

theorem alloc (ok : ChansOk tmp none state) {role : Role} (unused : tmp role = none) (server : Bool)
    (uuid : Option Uuid) :
    ChansOk (tmp.set role (some state.nextChan)) none (state.allocChan (newChan server uuid) (.tmp role)) := by
  have absent := ok.fresh state.nextChan (Nat.le_refl _)
  have unlinked : state.holder tmp (.tmp role) = none := unused
  have look : ∀ chan data, (state.allocChan (newChan server uuid) (.tmp role)).chans chan =
      some data ↔ chan = state.nextChan ∧ data = newChan server uuid ∨ state.chans chan = some data := by
    intro chan data
    simp only [IpcState.allocChan, update_apply]
    grind
  have has := fun other => Tmp.has_set unused state.nextChan other
  have holder : (state.allocChan (newChan server uuid) (.tmp role)).holder (tmp.set role (some state.nextChan)) =
      update (state.holder tmp) (.tmp role) (some state.nextChan) := by
    funext ref
    cases ref <;> simp only [IpcState.holder, IpcState.allocChan, Tmp.set_apply,
      update_apply, reduceCtorEq, Ref.tmp.injEq, if_false] <;> grind [newChan]
  constructor
  · rw [holder]
    exact ok.links.add unlinked _
  · intro chan held
    have alive := ok.tmpAlive chan
    simp only [IpcState.allocChan, update_apply]
    grind
  · intro chan data found _
    rw [holder]
    rcases (look chan data).mp found with ⟨rfl, _⟩ | found
    · exact ⟨.tmp role, by simp⟩
    · exact held_update (ok.referenced found) (by simp [unlinked]) _
  · intro chan above
    have none := ok.fresh chan (Nat.le_of_succ_le above)
    simp only [IpcState.allocChan, update_apply] at above ⊢
    grind
  · intro chan data found
    rcases (look chan data).mp found with ⟨rfl, rfl⟩ | found
    · exact ⟨(has _).mpr (.inl rfl), rfl, rfl, rfl, rfl, rfl⟩
    · apply (ok.shaped chan data found).mono
      grind [Tmp.set_apply]
  · grind [ok.pendingShape, newChan]
  · grind [ok.unheld, newChan]
  · grind [ok.apart, newChan]
  · grind [ok.matched, newChan]
  · grind [ok.logged, newChan, IpcState.allocChan]
  · exact ok.waitingNodup
  · exact fun other => (ok.waiting other).trans (by grind [newChan])
  · exact ok.pendingNodup
  · exact fun port other => (ok.pending port other).trans (by grind [newChan])

/-!
## Changes of one channel
-/

theorem setChan_alive {chan other : ChanId} {next its : Chan} :
    (state.setChan chan (some next)).chans other = some its ↔
      other = chan ∧ its = next ∨ other ≠ chan ∧ state.chans other = some its := by
  grind

theorem setPair_alive {first second other : ChanId} {one two its : Chan} (ne : second ≠ first) :
    ((state.setChan first (some one)).setChan second (some two)).chans other = some its ↔
      other = first ∧ its = one ∨ other = second ∧ its = two ∨
      other ≠ first ∧ other ≠ second ∧ state.chans other = some its := by
  grind

variable {chan : ChanId} {data next : Chan} {loose : Option ChanId}

theorem matched_set (ok : ChansOk tmp loose state) (found : state.chans chan = some data)
    (sameState : next.state = data.state) (samePeer : next.peer = data.peer) (sameServer : next.server = data.server)
    (other : ChanId) (its : Chan) (target : ChanId)
    (alive : (state.setChan chan (some next)).chans other = some its) (connected : its.peer = some target) :
    ∃ targetData, (state.setChan chan (some next)).chans target = some targetData ∧
      its.Matches other targetData := by
  have before : ∃ beforeData, state.chans other = some beforeData ∧
      its.state = beforeData.state ∧ its.peer = beforeData.peer ∧
      its.server = beforeData.server := by
    grind
  obtain ⟨beforeData, beforeFound, state₀, peer₀, server₀⟩ := before
  obtain ⟨targetData, targetFound, matched⟩ := ok.matched other beforeData target beforeFound (peer₀ ▸ connected)
  by_cases same : target = chan
  · subst same
    cases found.symm.trans targetFound
    refine ⟨next, setChan_chans_self .., ?_⟩
    simpa only [Chan.Matches, state₀, server₀, sameState, samePeer, sameServer] using matched
  · refine ⟨targetData, by rw [setChan_chans_ne _ _ _ _ same, targetFound], ?_⟩
    simpa only [Chan.Matches, state₀, server₀] using matched

def SameQueueSize (data next : Chan) : Prop :=
  ∀ mq, next.msgQueue = some mq → ∃ before, data.msgQueue = some before ∧
    mq.numItems = before.numItems ∧ mq.itemSz = before.itemSz

theorem logged_set (ok : ChansOk tmp loose state) (found : state.chans chan = some data)
    (samePeer : next.peer = data.peer) (sameServer : next.server = data.server) (sameQueue : SameQueueSize data next)
    (other : ChanId) (its : Chan) (mq : MsgQueue)
    (alive : (state.setChan chan (some next)).chans other = some its) (queue : its.msgQueue = some mq) :
    ∃ attachment ∈ state.attached, attachment.Covers other its mq := by
  by_cases same : other = chan
  · subst same
    rw [setChan_chans_self] at alive
    cases alive
    obtain ⟨before, had, numItems, itemSz⟩ := sameQueue mq queue
    obtain ⟨attachment, listed, covers⟩ := ok.logged other data before found had
    refine ⟨attachment, listed, ?_⟩
    rw [Attachment.Covers, sameServer, samePeer, numItems, itemSz]
    exact covers
  · rw [setChan_chans_ne _ _ _ _ same] at alive
    exact ok.logged other its mq alive queue

theorem SameQueueSize.of_eq (same : next.msgQueue = data.msgQueue) : SameQueueSize data next :=
  fun mq queue => ⟨mq, same ▸ queue, rfl, rfl⟩

/-!
## Local references
-/

theorem addTmp (ok : ChansOk tmp none state) {role : Role} (unused : tmp role = none)
    {data : Chan} (found : state.chans chan = some data) :
    ChansOk (tmp.set role (some chan)) none (state.addLink (.tmp role) chan) := by
  have unlinked : state.holder tmp (.tmp role) = none := unused
  have has := fun other => Tmp.has_set unused chan other
  have holder : (state.addLink (.tmp role) chan).holder (tmp.set role (some chan)) =
      update (state.holder tmp) (.tmp role) (some chan) := by
    funext ref
    cases ref <;> simp [IpcState.holder, Tmp.set_apply, update_apply]
  refine { ok with links := ?_, tmpAlive := ?_, kept := ?_, shaped := ?_, unheld := ?_ }
  · rw [holder]
    exact ok.links.add unlinked _
  · grind [ok.tmpAlive]
  · intro other its alive _
    rw [holder]
    exact held_update (ok.referenced alive) (by simp [unlinked]) _
  · intro other its alive
    apply (ok.shaped other its alive).mono
    grind [Tmp.set_apply]
  · grind [ok.unheld]

theorem delTmp (ok : ChansOk tmp none state) {role : Role} (own : tmp role = some chan)
    (found : state.chans chan = some data) (shaped : data.Shaped (tmp.set role none) chan)
    (unheld : data.refcnt = 0 → data.node = none → data.peer = none) :
    ChansOk (tmp.set role none) (some chan) (state.dropLink (.tmp role)) := by
  have linked : state.holder tmp (.tmp role) = some chan := own
  have holder : (state.dropLink (.tmp role)).holder (tmp.set role none) =
      update (state.holder tmp) (.tmp role) none := by
    funext ref
    cases ref <;> simp [IpcState.holder, Tmp.set_apply, update_apply]
  have others : ∀ other, other ≠ chan → ∀ place, tmp place = some other → tmp.set role none place = some other := by
    grind [Tmp.set_apply]
  refine { ok with links := ?_, tmpAlive := ?_, kept := ?_, shaped := ?_, unheld := ?_ }
  · rw [holder]
    exact ok.links.drop _
  · exact fun other has => ok.tmpAlive other (Tmp.has_of_clear has)
  · intro other its alive loose
    rw [holder]
    exact held_update (ok.referenced alive) (by rw [linked]; exact loose) _
  · intro other its alive
    by_cases same : other = chan
    · grind
    · exact (ok.shaped other its alive).mono (others other same)
  · intro other its alive refcnt node free
    by_cases same : other = chan
    · grind
    · refine ok.unheld other its alive refcnt node ?_
      rintro ⟨place, held⟩
      exact free ⟨place, others other same place held⟩

/-!
## Closing
-/

theorem disconnect (ok : ChansOk tmp none state) {peer : ChanId} {peerData : Chan}
    (found : state.chans chan = some data) (connected : data.peer = some peer)
    (peerFound : state.chans peer = some peerData) :
    ChansOk tmp none ((state.setChan chan (some { data with state := .disconnecting })).setChan
      peer (some { peerData with state := .disconnecting })) := by
  have ne : peer ≠ chan := fun same => ok.apart chan data found (same ▸ connected)
  obtain ⟨_, peerSame, matched⟩ := ok.matched chan data peer found connected
  cases peerFound.symm.trans peerSame
  have shape := ok.shaped chan data found
  have peerShape := ok.shaped peer peerData peerFound
  have holder : ((state.setChan chan (some { data with state := .disconnecting })).setChan
      peer (some { peerData with state := .disconnecting })).holder tmp = state.holder tmp := by
    funext ref
    cases ref <;> simp only [IpcState.holder, setChan_chans] <;> grind
  constructor
  · rw [holder]
    exact ok.links
  · grind [ok.tmpAlive]
  · intro other its alive _
    rw [holder]
    rcases (setPair_alive ne).mp alive with ⟨rfl, _⟩ | ⟨rfl, _⟩ | ⟨_, _, alive⟩
    · exact ok.referenced found
    · exact ok.referenced peerFound
    · exact ok.referenced alive
  · grind [ok.fresh]
  · intro other its alive
    rcases (setPair_alive ne).mp alive with ⟨rfl, rfl⟩ | ⟨rfl, rfl⟩ | ⟨_, _, alive⟩
    · grind [Chan.Shaped, Chan.Matches]
    · grind [Chan.Shaped, Chan.Matches]
    · exact ok.shaped other its alive
  · grind [ok.pendingShape]
  · grind [ok.unheld]
  · grind [ok.apart]
  · intro other its target alive linked
    rcases (setPair_alive ne).mp alive with ⟨rfl, rfl⟩ | ⟨rfl, rfl⟩ | ⟨_, _, alive⟩
    · cases connected.symm.trans linked
      exact ⟨_, setChan_chans_self .., rfl⟩
    · -- The peer points back, or was disconnecting like all its neighbours.
      obtain ⟨targetData, targetFound, back⟩ := ok.matched _ peerData target peerFound linked
      grind [Chan.Matches]
    obtain ⟨targetData, targetFound, back⟩ := ok.matched other its target alive linked
    by_cases away : target ≠ chan ∧ target ≠ peer
    · exact ⟨targetData, by grind, back⟩
    -- Whoever else points at one of the two ends was left by it before.
    have left : its.state = .disconnecting := by
      by_contra open_
      have returns := back.points_back open_
      have forth := matched.points_back
      have sides := matched.disconnecting_iff
      have ends := back.disconnecting_iff
      grind
    have closed : ∃ closedData, ((state.setChan chan (some { data with state := .disconnecting })).setChan
          peer (some { peerData with state := .disconnecting })).chans target =
            some closedData ∧ closedData.state = .disconnecting := by
      grind
    obtain ⟨closedData, closedFound, closed⟩ := closed
    exact ⟨closedData, closedFound, .of_disconnecting left closed⟩
  · intro other its mq alive queue
    rcases (setPair_alive ne).mp alive with ⟨rfl, rfl⟩ | ⟨rfl, rfl⟩ | ⟨_, _, alive⟩
    · exact ok.logged _ data mq found queue
    · exact ok.logged _ peerData mq peerFound queue
    · exact ok.logged other its mq alive queue
  · exact ok.waitingNodup
  · exact fun other => (ok.waiting other).trans (by grind)
  · exact ok.pendingNodup
  · exact fun port other => (ok.pending port other).trans (by grind)

theorem dropPeer (ok : ChansOk tmp none state) {peer : ChanId} (found : state.chans chan = some data)
    (connected : data.peer = some peer) (disconnecting : data.state = .disconnecting) :
    ChansOk tmp (some peer) ((state.setChan chan (some { data with peer := none })).dropLink (.peer chan)) := by
  have shape := ok.shaped chan data found
  have linked : state.holder tmp (.peer chan) = some peer := by
    simp [IpcState.holder, found, connected]
  have holder : ((state.setChan chan (some { data with peer := none })).dropLink
      (.peer chan)).holder tmp = update (state.holder tmp) (.peer chan) none := by
    funext ref
    cases ref <;> simp only [IpcState.holder, setChan_chans, dropLink_chans,
      update_apply, reduceCtorEq, Ref.peer.injEq, if_false] <;> grind
  constructor
  · rw [holder]
    exact ok.links.drop _
  · grind [ok.tmpAlive]
  · intro other its alive loose
    rw [holder]
    refine held_update ?_ (by rw [linked]; exact loose) _
    rcases setChan_alive.mp alive with ⟨rfl, _⟩ | ⟨_, alive⟩
    · exact ok.referenced found
    · exact ok.referenced alive
  · intro other above
    have none := ok.fresh other above
    grind
  · intro other its alive
    rcases setChan_alive.mp alive with ⟨rfl, rfl⟩ | ⟨_, alive⟩
    · grind [Chan.Shaped]
    · exact ok.shaped other its alive
  · grind [ok.pendingShape]
  · grind [ok.unheld]
  · grind [ok.apart]
  · intro other its target alive linked
    rcases setChan_alive.mp alive with ⟨rfl, rfl⟩ | ⟨_, alive⟩
    · cases linked
    · obtain ⟨targetData, targetFound, back⟩ := ok.matched other its target alive linked
      grind [Chan.Matches]
  · intro other its mq alive queue
    rcases setChan_alive.mp alive with ⟨rfl, rfl⟩ | ⟨_, alive⟩
    · obtain ⟨attachment, listed, covers⟩ := ok.logged _ data mq found queue
      exact ⟨attachment, listed, covers.1, by simp, covers.2.2⟩
    · exact ok.logged other its mq alive queue
  · exact ok.waitingNodup
  · exact fun other => (ok.waiting other).trans (by grind)
  · exact ok.pendingNodup
  · exact fun port other => (ok.pending port other).trans (by grind)

/-!
## Lists
-/

section

variable (ok : ChansOk tmp none state)
include ok

/-- A channel is taken off the list of those that wait for a port. It gets the
state `next`, and its path is dropped if somebody still refers to it there. -/
theorem unlinkWaiting (found : state.chans chan = some data) (node : data.node = some .waitingForPort)
    (peer : next.peer = none) (unlinked : next.node = none) (refcnt : next.refcnt = data.refcnt)
    (noQueue : next.msgQueue = none) (shaped : next.Shaped tmp chan) :
    ChansOk tmp (some chan) (((state.setChan chan (some next)).setWaiting
      (state.waitingForPortChanList.erase chan)).dropLink (.node chan)) := by
  have linked : state.holder tmp (.node chan) = some chan := by
    simp [IpcState.holder, found, node]
  have shape := ok.shaped chan data found
  have alone : data.peer = none := by grind [Chan.Shaped, ok.pendingShape]
  have apart : ∀ other its, state.chans other = some its → its.peer ≠ some chan := by
    intro other its alive linked
    obtain ⟨_, same, matched⟩ := ok.matched other its chan alive linked
    grind [Chan.Shaped, Chan.Matches]
  have holder : (((state.setChan chan (some next)).setWaiting
      (state.waitingForPortChanList.erase chan)).dropLink (.node chan)).holder tmp =
      update (state.holder tmp) (.node chan) none := by
    funext ref
    cases ref <;> simp only [IpcState.holder, setChan_chans, dropLink_chans,
      setWaiting_chans, update_apply, reduceCtorEq, Ref.node.injEq,
      if_false] <;> grind
  constructor
  · rw [holder]
    exact ok.links.drop _
  · grind [ok.tmpAlive]
  · intro other its alive loose
    rw [holder]
    refine held_update ?_ (by rw [linked]; exact loose) _
    grind [ok.kept]
  · intro other above
    have none := ok.fresh other above
    grind
  · grind [ok.shaped]
  · grind [ok.pendingShape]
  · grind [ok.unheld]
  · grind [ok.apart]
  · grind [ok.matched]
  · intro other its mq alive queue
    rcases setChan_alive.mp alive with ⟨rfl, rfl⟩ | ⟨_, alive⟩
    · cases noQueue.symm.trans queue
    · exact ok.logged other its mq alive queue
  · exact ok.waitingNodup.erase chan
  · intro other
    refine (ok.waitingNodup.mem_erase_iff).trans ?_
    rw [ok.waiting other]
    grind
  · exact ok.pendingNodup
  · exact fun port other => (ok.pending port other).trans (by grind)

theorem unlinkPending {port : PortId} {portData : Port} (found : state.chans chan = some data)
    (node : data.node = some (.pending port)) (portFound : state.ports port = some portData)
    (shaped : Chan.Shaped { data with node := none } tmp chan) (unheld : ¬tmp.Has chan → data.peer = none) :
    ChansOk tmp (some chan) (((state.setChan chan (some { data with node := none })).setPort port
      (some { portData with pendingList := portData.pendingList.erase chan })).dropLink (.node chan)) := by
  have linked : state.holder tmp (.node chan) = some chan := by
    simp [IpcState.holder, found, node]
  have holder : (((state.setChan chan (some { data with node := none })).setPort port
      (some { portData with pendingList := portData.pendingList.erase chan })).dropLink
        (.node chan)).holder tmp = update (state.holder tmp) (.node chan) none := by
    funext ref
    cases ref <;> simp only [IpcState.holder, setChan_chans, dropLink_chans,
      setPort_chans, update_apply, reduceCtorEq, Ref.node.injEq,
      if_false] <;> grind
  constructor
  · rw [holder]
    exact ok.links.drop _
  · grind [ok.tmpAlive]
  · intro other its alive loose
    rw [holder]
    refine held_update ?_ (by rw [linked]; exact loose) _
    grind [ok.kept]
  · intro other above
    have none := ok.fresh other above
    grind
  · grind [ok.shaped]
  · grind [ok.pendingShape]
  · grind [ok.unheld]
  · grind [ok.apart]
  · exact ok.matched_set found rfl rfl rfl
  · exact ok.logged_set found rfl rfl (.of_eq rfl)
  · exact ok.waitingNodup
  · exact fun other => (ok.waiting other).trans (by grind)
  · intro number numberData numberFound
    have nodup := ok.pendingNodup number
    grind
  · intro number other
    have before := ok.pending number other
    have erased : other ∈ portData.pendingList.erase chan ↔ other ≠ chan ∧ other ∈ portData.pendingList :=
      (ok.pendingNodup port portData portFound).mem_erase_iff
    grind

theorem linkWaiting (found : state.chans chan = some data) (invalid : data.state = .invalid)
    (node : next.node = some .waitingForPort) (peer : next.peer = none) (refcnt : next.refcnt = 0)
    (noQueue : next.msgQueue = none) (shaped : next.Shaped tmp chan) :
    ChansOk tmp none (((state.setChan chan (some next)).setWaiting
      (state.waitingForPortChanList ++ [chan])).addLink (.node chan) chan) := by
  have shape := ok.shaped chan data found
  simp only [Chan.Shaped, invalid] at shape
  have unlinked : state.holder tmp (.node chan) = none := by
    simp [IpcState.holder, found, shape]
  have apart : ∀ other its, state.chans other = some its → its.peer ≠ some chan := by
    intro other its alive connected
    obtain ⟨_, same, matched⟩ := ok.matched other its chan alive connected
    grind [Chan.Matches]
  have holder : (((state.setChan chan (some next)).setWaiting
      (state.waitingForPortChanList ++ [chan])).addLink (.node chan) chan).holder tmp =
      update (state.holder tmp) (.node chan) (some chan) := by
    funext ref
    cases ref <;> simp only [IpcState.holder, setChan_chans, addLink_chans,
      setWaiting_chans, update_apply, reduceCtorEq, Ref.node.injEq,
      if_false] <;> grind
  constructor
  · rw [holder]
    exact ok.links.add unlinked _
  · grind [ok.tmpAlive]
  · intro other its alive _
    rw [holder]
    refine held_update ?_ (by simp [unlinked]) _
    grind [ok.kept]
  · intro other above
    have none := ok.fresh other above
    grind
  · grind [ok.shaped]
  · grind [ok.pendingShape]
  · grind [ok.unheld]
  · grind [ok.apart]
  · grind [ok.matched]
  · intro other its mq alive queue
    rcases setChan_alive.mp alive with ⟨rfl, rfl⟩ | ⟨_, alive⟩
    · cases noQueue.symm.trans queue
    · exact ok.logged other its mq alive queue
  · have away : chan ∉ state.waitingForPortChanList := by
      rw [ok.waiting chan]
      grind
    rw [← concat_eq_append]
    exact Nodup.concat away ok.waitingNodup
  · intro other
    refine mem_append.trans ?_
    rw [ok.waiting other]
    grind
  · exact ok.pendingNodup
  · exact fun port other => (ok.pending port other).trans (by grind)

end

/-!
## Handles
-/

section

variable (ok : ChansOk tmp none state) (found : state.chans chan = some data)
include ok found

theorem retouch (sameState : next.state = data.state) (samePeer : next.peer = data.peer)
    (sameServer : next.server = data.server) (sameNode : next.node = data.node)
    (refcnt : next.refcnt = 0 ↔ data.refcnt = 0) (samePath : next.path = data.path)
    (sameQueue : SameQueueSize data next) (queue : next.msgQueue.isSome = data.msgQueue.isSome) :
    ChansOk tmp none (state.setChan chan (some next)) := by
  have shape := ok.shaped chan data found
  have holder : (state.setChan chan (some next)).holder tmp = state.holder tmp := by
    funext ref
    cases ref <;> simp only [IpcState.holder, setChan_chans] <;> grind
  constructor
  · rw [holder]
    exact ok.links
  · grind [ok.tmpAlive]
  · intro other its alive _
    rw [holder]
    grind [ok.kept]
  · intro other above
    have none := ok.fresh other above
    grind
  · intro other its alive
    by_cases same : other = chan
    · subst same
      rw [setChan_chans_self] at alive
      cases alive
      exact shape.congr sameState samePeer sameServer sameNode (fun _ => refcnt.mpr) (by grind) samePath queue
    · rw [setChan_chans_ne _ _ _ _ same] at alive
      exact ok.shaped other its alive
  · grind [ok.pendingShape]
  · grind [ok.unheld]
  · grind [ok.apart]
  · exact ok.matched_set found sameState samePeer sameServer
  · exact ok.logged_set found samePeer sameServer sameQueue
  · exact ok.waitingNodup
  · exact fun other => (ok.waiting other).trans (by grind)
  · exact ok.pendingNodup
  · exact fun port other => (ok.pending port other).trans (by grind)

theorem initHandle (none : data.refcnt = 0) (invalid : data.state ≠ .invalid) (accepting : data.state ≠ .accepting)
    (pending : ∀ port, data.node ≠ some (.pending port)) :
    ChansOk tmp .none ((state.setChan chan (some { data with refcnt := 1 })).addLink (.handle chan) chan) := by
  have shape := ok.shaped chan data found
  have unlinked : state.holder tmp (.handle chan) = .none := by
    simp [IpcState.holder, found, none]
  have holder : ((state.setChan chan (some { data with refcnt := 1 })).addLink (.handle chan) chan).holder tmp =
      update (state.holder tmp) (.handle chan) (some chan) := by
    funext ref
    cases ref <;> simp only [IpcState.holder, setChan_chans, addLink_chans,
      update_apply, reduceCtorEq, Ref.handle.injEq, if_false] <;> grind
  constructor
  · rw [holder]
    exact ok.links.add unlinked _
  · grind [ok.tmpAlive]
  · intro other its alive _
    rw [holder]
    refine held_update ?_ (by simp [unlinked]) _
    grind [ok.kept]
  · intro other above
    have absent := ok.fresh other above
    grind
  · intro other its alive
    by_cases same : other = chan
    · have now : its = { data with refcnt := 1 } := by grind
      subst same now
      exact shape.congr rfl rfl rfl rfl (by grind) (by grind) rfl rfl
    · grind [ok.shaped]
  · grind [ok.pendingShape]
  · grind [ok.unheld]
  · grind [ok.apart]
  · exact ok.matched_set found rfl rfl rfl
  · exact ok.logged_set found rfl rfl (.of_eq rfl)
  · exact ok.waitingNodup
  · exact fun other => (ok.waiting other).trans (by grind)
  · exact ok.pendingNodup
  · exact fun port other => (ok.pending port other).trans (by grind)

theorem dropHandle (last : data.refcnt = 1) (disconnecting : data.state = .disconnecting) (closed : data.peer = none) :
    ChansOk tmp (some chan) ((state.setChan chan (some { data with refcnt := 0 })).dropLink (.handle chan)) := by
  have shape := ok.shaped chan data found
  have linked : state.holder tmp (.handle chan) = some chan := by
    simp [IpcState.holder, found, last]
  have holder : ((state.setChan chan (some { data with refcnt := 0 })).dropLink
      (.handle chan)).holder tmp = update (state.holder tmp) (.handle chan) none := by
    funext ref
    cases ref <;> simp only [IpcState.holder, setChan_chans, dropLink_chans,
      update_apply, reduceCtorEq, Ref.handle.injEq, if_false] <;> grind
  constructor
  · rw [holder]
    exact ok.links.drop _
  · grind [ok.tmpAlive]
  · intro other its alive loose
    rw [holder]
    refine held_update ?_ (by rw [linked]; exact loose) _
    grind [ok.kept]
  · intro other above
    have absent := ok.fresh other above
    grind
  · intro other its alive
    by_cases same : other = chan
    · grind [Chan.Shaped]
    · grind [ok.shaped]
  · grind [ok.pendingShape]
  · grind [ok.unheld]
  · grind [ok.apart]
  · exact ok.matched_set found rfl rfl rfl
  · exact ok.logged_set found rfl rfl (.of_eq rfl)
  · exact ok.waitingNodup
  · exact fun other => (ok.waiting other).trans (by grind)
  · exact ok.pendingNodup
  · exact fun port other => (ok.pending port other).trans (by grind)

end

/-!
## Connecting
-/

end ChansOk

def Chan.connectingTo (data : Chan) (server : ChanId) (mq : MsgQueue) : Chan :=
  { data with state := .connecting, peer := some server, msgQueue := some mq }

def Chan.acceptingFrom (data : Chan) (client : ChanId) (port : PortId) (mq : MsgQueue) : Chan :=
  { data with
    state := .accepting
    peer := some client
    msgQueue := some mq
    node := some (.pending port) }

def IpcState.attachPair (state : IpcState) (attachment : Attachment) (client server : Chan)
    (port : Port) : IpcState :=
  (((((((state.setChan attachment.client (some client)).setChan attachment.server
    (some server)).setPort attachment.portId (some port)).addLink
    (.peer attachment.client) attachment.server).addLink
    (.peer attachment.server) attachment.client).addLink
    (.node attachment.server) attachment.server).addAttached attachment)

namespace IpcState

variable (state : IpcState) (attachment : Attachment) (client server : Chan) (port : Port)

@[grind =] theorem attachPair_chans (other : ChanId) : (state.attachPair attachment client server port).chans other =
      if other = attachment.server then some server
      else if other = attachment.client then some client else state.chans other := by
  simp only [attachPair, addAttached_chans, addLink_chans, setPort_chans, setChan_chans]

@[grind =] theorem attachPair_ports (other : PortId) : (state.attachPair attachment client server port).ports other =
      if other = attachment.portId then some port else state.ports other := by
  simp only [attachPair, addAttached_ports, addLink_ports, setPort_ports, setChan_ports]

end IpcState

namespace ChansOk

variable {tmp : Tmp} {state : IpcState}

theorem attach (ok : ChansOk tmp none state) {attachment : Attachment} {data serverData : Chan}
    {portData nextPort : Port} {clientQueue serverQueue : MsgQueue} (found : state.chans attachment.client = some data)
    (serverFound : state.chans attachment.server = some serverData) (ne : attachment.client ≠ attachment.server)
    (portFound : state.ports attachment.portId = some portData)
    (pendingList : nextPort.pendingList = portData.pendingList ++ [attachment.server]) (unattached : data.peer = none)
    (unqueued : data.node = none) (unnamed : data.path = none) (isClient : data.server = false)
    (held : tmp.Has attachment.client) (before : data.state = .invalid ∨ data.state = .waitingForPort)
    (new : serverData.state = .invalid) (isServer : serverData.server = true)
    (clientSize : clientQueue.numItems = attachment.port.numRecvBufs ∧ clientQueue.itemSz = attachment.port.recvBufSize)
    (serverSize : serverQueue.numItems = attachment.port.numRecvBufs ∧
      serverQueue.itemSz = attachment.port.recvBufSize) :
    ChansOk tmp none (state.attachPair attachment (data.connectingTo attachment.server clientQueue)
      (serverData.acceptingFrom attachment.client attachment.portId serverQueue) nextPort) := by
  have serverShape := ok.shaped attachment.server serverData serverFound
  simp only [Chan.Shaped, new] at serverShape
  obtain ⟨serverHeld, serverAlone, serverUnqueued, serverRefcnt, _, serverUnnamed⟩ := serverShape
  have apart : ∀ other its, state.chans other = some its →
      its.peer ≠ some attachment.client ∧ its.peer ≠ some attachment.server := by
    intro other its alive
    constructor
    · intro connected
      obtain ⟨_, same, matched⟩ := ok.matched other its _ alive connected
      grind [Chan.Matches]
    · intro connected
      obtain ⟨_, same, matched⟩ := ok.matched other its _ alive connected
      grind [Chan.Matches]
  have look : ∀ other its, (state.attachPair attachment (data.connectingTo attachment.server clientQueue)
      (serverData.acceptingFrom attachment.client attachment.portId serverQueue)
        nextPort).chans other = some its ↔
        other = attachment.client ∧ its = data.connectingTo attachment.server clientQueue ∨
        other = attachment.server ∧
          its = serverData.acceptingFrom attachment.client attachment.portId serverQueue ∨
        other ≠ attachment.client ∧ other ≠ attachment.server ∧ state.chans other = some its := by
    grind
  have holder : (state.attachPair attachment (data.connectingTo attachment.server clientQueue)
      (serverData.acceptingFrom attachment.client attachment.portId serverQueue) nextPort).holder tmp =
      update (update (update (state.holder tmp) (.peer attachment.client) (some attachment.server))
        (.peer attachment.server) (some attachment.client))
        (.node attachment.server) (some attachment.server) := by
    funext ref
    cases ref <;> simp only [IpcState.holder, attachPair_chans,
      update_apply, reduceCtorEq, Ref.node.injEq, Ref.peer.injEq, if_false] <;>
      grind [Chan.connectingTo, Chan.acceptingFrom]
  have clientUnlinked : state.holder tmp (.peer attachment.client) = none := by
    simp [IpcState.holder, found, unattached]
  have serverUnlinked : state.holder tmp (.peer attachment.server) = none := by
    simp [IpcState.holder, serverFound, serverAlone]
  have nodeUnlinked : state.holder tmp (.node attachment.server) = none := by
    simp [IpcState.holder, serverFound, serverUnqueued]
  have outside : attachment.server ∉ portData.pendingList := by
    intro listed
    obtain ⟨_, same, node⟩ := (ok.pending attachment.portId attachment.server).mp ⟨portData, portFound, listed⟩
    grind
  constructor
  · rw [holder]
    refine ((ok.links.add clientUnlinked _).add ?_ _).add ?_ _
    · simp [serverUnlinked, ne.symm]
    · simp [nodeUnlinked]
  · intro other has
    have alive := ok.tmpAlive other has
    grind
  · intro other its alive _
    rw [holder]
    refine held_update (held_update (held_update ?_ ?_ _) ?_ _) ?_ _
    · rcases (look other its).mp alive with ⟨rfl, _⟩ | ⟨rfl, _⟩ | ⟨_, _, alive⟩
      · exact ok.referenced found
      · exact ok.referenced serverFound
      · exact ok.referenced alive
    · simp [clientUnlinked]
    · simp [serverUnlinked, ne.symm]
    · simp [nodeUnlinked]
  · intro other above
    have absent := ok.fresh other above
    grind
  · intro other its alive
    rcases (look other its).mp alive with ⟨rfl, rfl⟩ | ⟨rfl, rfl⟩ | ⟨_, _, alive⟩
    · exact ⟨isClient, rfl, unqueued, unnamed, rfl⟩
    · exact ⟨isServer, rfl, serverUnnamed, rfl, serverRefcnt, .inl ⟨_, rfl⟩⟩
    · exact ok.shaped other its alive
  · grind [ok.pendingShape, Chan.connectingTo, Chan.acceptingFrom]
  · grind [ok.unheld, Chan.connectingTo, Chan.acceptingFrom]
  · grind [ok.apart, Chan.connectingTo, Chan.acceptingFrom]
  · intro other its target alive connected
    rcases (look other its).mp alive with ⟨rfl, rfl⟩ | ⟨rfl, rfl⟩ | ⟨_, _, alive⟩
    · cases connected
      exact ⟨_, (look _ _).mpr (.inr (.inl ⟨rfl, rfl⟩)), rfl, rfl⟩
    · cases connected
      exact ⟨_, (look _ _).mpr (.inl ⟨rfl, rfl⟩), rfl, rfl⟩
    · obtain ⟨targetData, targetFound, matched⟩ := ok.matched other its target alive connected
      exact ⟨targetData, by grind, matched⟩
  · intro other its mq alive queue
    rcases (look other its).mp alive with ⟨rfl, rfl⟩ | ⟨rfl, rfl⟩ | ⟨_, _, alive⟩
    · cases queue
      refine ⟨attachment, by simp [IpcState.attachPair, IpcState.addAttached], ?_, ?_, clientSize⟩
      · simp [Chan.connectingTo, isClient]
      · rintro _ ⟨⟩
        simp [Chan.connectingTo, isClient]
    · cases queue
      refine ⟨attachment, by simp [IpcState.attachPair, IpcState.addAttached], ?_, ?_, serverSize⟩
      · simp [Chan.acceptingFrom, isServer]
      · rintro _ ⟨⟩
        simp [Chan.acceptingFrom, isServer]
    · obtain ⟨logged, listed, covers⟩ := ok.logged other its mq alive queue
      exact ⟨logged, mem_append_left _ listed, covers⟩
  · exact ok.waitingNodup
  · intro other
    refine (ok.waiting other).trans ⟨?_, ?_⟩
    · rintro ⟨its, alive, node⟩
      exact ⟨its, (look _ _).mpr (by grind), node⟩
    rintro ⟨its, alive, node⟩
    rcases (look other its).mp alive with ⟨rfl, rfl⟩ | ⟨rfl, rfl⟩ | ⟨_, _, alive⟩
    · cases unqueued.symm.trans node
    · cases node
    · exact ⟨its, alive, node⟩
  · intro number numberData numberFound
    have nodup := ok.pendingNodup number
    have own : nextPort.pendingList.Nodup := by
      rw [pendingList, ← concat_eq_append]
      exact Nodup.concat outside (ok.pendingNodup _ portData portFound)
    rw [attachPair_ports] at numberFound
    split at numberFound
    · cases numberFound
      exact own
    · exact nodup numberData numberFound
  · intro number other
    have listed := ok.pending number other
    have added : other ∈ nextPort.pendingList ↔ other ∈ portData.pendingList ∨ other = attachment.server := by
      rw [pendingList, mem_append, mem_singleton]
    constructor
    · rintro ⟨numberData, numberFound, inside⟩
      by_cases own : number = attachment.portId ∧ other = attachment.server
      · obtain ⟨rfl, rfl⟩ := own
        exact ⟨_, (look _ _).mpr (.inr (.inl ⟨rfl, rfl⟩)), rfl⟩
      · obtain ⟨its, alive, node⟩ := listed.mp (by grind)
        exact ⟨its, (look _ _).mpr (by grind), node⟩
    · rintro ⟨its, alive, node⟩
      rw [attachPair_ports]
      rcases (look other its).mp alive with ⟨rfl, rfl⟩ | ⟨rfl, rfl⟩ | ⟨_, _, alive⟩
      · cases unqueued.symm.trans node
      · cases node
        exact ⟨nextPort, by simp, added.mpr (.inr rfl)⟩
      · obtain ⟨numberData, numberFound, inside⟩ := listed.mpr ⟨its, alive, node⟩
        grind

theorem accept (ok : ChansOk tmp none state) {client server : ChanId} {data serverData : Chan} {aux : AuxState}
    (found : state.chans client = some data) (serverFound : state.chans server = some serverData)
    (peer : serverData.peer = some client) (connecting : data.state = .connecting)
    (accepting : serverData.state = .accepting) (unqueued : serverData.node = none) :
    ChansOk tmp none ((state.setChan server (some { serverData with state := .connected })).setChan
      client (some { data with state := .connected, aux := aux })) := by
  have ne : client ≠ server := by
    rintro rfl
    exact ok.apart client serverData serverFound peer
  obtain ⟨_, same, matched⟩ := ok.matched server serverData client serverFound peer
  cases found.symm.trans same
  simp only [Chan.Matches, accepting] at matched
  have shape := ok.shaped client data found
  have serverShape := ok.shaped server serverData serverFound
  simp only [Chan.Shaped, connecting] at shape
  simp only [Chan.Shaped, accepting] at serverShape
  have holder : ((state.setChan server (some { serverData with state := .connected })).setChan
      client (some { data with state := .connected, aux := aux })).holder tmp = state.holder tmp := by
    funext ref
    cases ref <;> simp only [IpcState.holder, setChan_chans] <;> grind
  constructor
  · rw [holder]
    exact ok.links
  · intro other has
    simp only [setChan_chans]
    split
    · rfl
    · split
      · rfl
      · exact ok.tmpAlive other has
  · intro other its alive _
    rw [holder]
    rcases (setPair_alive ne).mp alive with ⟨rfl, _⟩ | ⟨rfl, _⟩ | ⟨_, _, alive⟩
    · exact ok.referenced serverFound
    · exact ok.referenced found
    · exact ok.referenced alive
  · intro other above
    have absent := ok.fresh other above
    clear holder
    grind
  · intro other its alive
    rcases (setPair_alive ne).mp alive with ⟨rfl, rfl⟩ | ⟨rfl, rfl⟩ | ⟨_, _, alive⟩
    · exact ⟨serverShape.2.1, unqueued, serverShape.2.2.1, serverShape.2.2.2.1⟩
    · exact ⟨shape.2.1, shape.2.2.1, shape.2.2.2.1, shape.2.2.2.2⟩
    · exact ok.shaped other its alive
  · grind [ok.pendingShape]
  · grind [ok.unheld]
  · grind [ok.apart]
  · intro other its target alive connected
    rcases (setPair_alive ne).mp alive with ⟨rfl, rfl⟩ | ⟨rfl, rfl⟩ | ⟨_, _, alive⟩
    · cases peer.symm.trans connected
      refine ⟨_, (setPair_alive ne).mpr (.inr (.inl ⟨rfl, rfl⟩)), rfl, matched.2, ?_⟩
      simp [shape.1, serverShape.1]
    · cases matched.2.symm.trans connected
      refine ⟨_, (setPair_alive ne).mpr (.inl ⟨rfl, rfl⟩), rfl, peer, ?_⟩
      simp [shape.1, serverShape.1]
    obtain ⟨targetData, targetFound, back⟩ := ok.matched other its target alive connected
    -- Nobody but the two ends points at them.
    have away : target ≠ client ∧ target ≠ server := by
      have points := back.points_back
      have ends := back.disconnecting_iff
      grind
    exact ⟨targetData, by grind, back⟩
  · intro other its mq alive queue
    rcases (setPair_alive ne).mp alive with ⟨rfl, rfl⟩ | ⟨rfl, rfl⟩ | ⟨_, _, alive⟩
    · exact ok.logged _ serverData mq serverFound queue
    · exact ok.logged _ data mq found queue
    · exact ok.logged other its mq alive queue
  · exact ok.waitingNodup
  · exact fun other => (ok.waiting other).trans (by grind)
  · exact ok.pendingNodup
  · exact fun port other => (ok.pending port other).trans (by grind)

end ChansOk

end Trusty.Ipc
