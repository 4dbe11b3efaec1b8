import Trusty.Ipc.PortMoves

/-!
# Rules for the primitive calls

What reading, changing and releasing a channel does when it is alive,
and what stays as it is over a whole call.
-/

namespace Trusty.Ipc

open StateLogic List IpcState Function

variable {post : Unit → IpcState → Prop} {ref : Ref}

section Rules

variable {state : IpcState} {stop : Stop → IpcState → Prop}

theorem wp_getChan {post : Chan → IpcState → Prop} {chan : ChanId} {data : Chan}
    (found : state.chans chan = some data) : wp (getChan chan) post stop state ↔ post data state := by
  simp [getChan, found]

theorem wp_setChan (chan : ChanId) (data : Option Chan) :
    wp (setChan chan data) post stop state ↔ post () (state.setChan chan data) := Iff.rfl

theorem wp_modifyChan {chan : ChanId} {data : Chan} {change : Chan → Chan} (found : state.chans chan = some data) :
    wp (modifyChan chan change) post stop state ↔ post () (state.setChan chan (some (change data))) := by
  rw [modifyChan, wp_bind, wp_getChan found, wp_setChan]

variable {port : PortId}

theorem wp_getPort {post : Port → IpcState → Prop} {data : Port} (found : state.ports port = some data) :
    wp (getPort port) post stop state ↔ post data state := by
  simp [getPort, found]

theorem wp_modifyPort {data : Port} {change : Port → Port} (found : state.ports port = some data) :
    wp (modifyPort port change) post stop state ↔ post () (state.setPort port (some (change data))) := by
  simp only [modifyPort, wp_bind, wp_getPort found]
  rfl

section

variable {chan : ChanId} {data : Chan} (found : state.chans chan = some data)
include found

theorem wp_chanAddRef (unlinked : References.linked state.links ref = false) :
    wp (chanAddRef chan ref) post stop state ↔ post () (state.addLink ref chan) := by
  simp [chanAddRef, wp_getChan found, unlinked]

/-- Releasing a channel is safe if it has no peer and is in no list when its
last reference goes. -/
theorem wp_chanDelRef (linked : References.linked state.links ref = true)
    (bare : References.referenced (References.drop state.links ref) chan = false →
      data.peer = none ∧ data.node = none) :
    wp (chanDelRef chan ref) post stop state ↔ post () ((state.dropLink ref).settle chan) := by
  simp only [chanDelRef, wp_bind, wp_getChan found, wp_get, linked, Bool.not_true, Bool.false_eq_true, if_false, wp_set]
  have links : (state.dropLink ref).links = References.drop state.links ref := rfl
  by_cases referenced : References.referenced (References.drop state.links ref) chan = true
  · rw [links, if_pos referenced, wp_pure, IpcState.settle, links, if_pos referenced]
  obtain ⟨peer, node⟩ := bare (by simpa using referenced)
  have alive : (state.dropLink ref).chans chan = some data := found
  rw [links, if_neg referenced, IpcState.settle, links, if_neg referenced, chanDestroyRefobj, wp_bind, wp_getChan alive]
  simp only [peer, node, Option.isSome_none, Bool.false_eq_true, if_false]
  rfl

theorem wp_listDelete_waiting (node : data.node = some .waitingForPort) : wp (listDelete chan) post stop state ↔
      post () ((state.setChan chan (some { data with node := none })).setWaiting
        (state.waitingForPortChanList.erase chan)) := by
  rw [listDelete, wp_bind, wp_getChan found]
  simp only [node, wp_bind, wp_modifyChan found, wp_modify]
  rfl

end

theorem wp_listDelete_pending {chan : ChanId} {data : Chan} {portData : Port} (found : state.chans chan = some data)
    (node : data.node = some (.pending port)) (portFound : state.ports port = some portData) :
    wp (listDelete chan) post stop state ↔ post () ((state.setChan chan (some { data with node := none })).setPort port
        (some { portData with pendingList := portData.pendingList.erase chan })) := by
  have there : (state.setChan chan (some { data with node := none })).ports port = some portData := portFound
  rw [listDelete, wp_bind, wp_getChan found]
  simp only [node]
  rw [wp_bind, wp_modifyChan found]
  exact wp_modifyPort there

end Rules

namespace ChansOk

variable {tmp : Tmp} {loose : Option ChanId} {state : IpcState}

section

variable (ok : ChansOk tmp loose state)
include ok

theorem linked {chan : ChanId}
    (held : state.holder tmp ref = some chan) : References.linked state.links ref = true := by
  rw [ok.links.linked_eq, held]
  rfl

theorem unlinked (free : state.holder tmp ref = none) : References.linked state.links ref = false := by
  rw [ok.links.linked_eq, free]
  rfl

theorem still_referenced {other : Ref} {chan : ChanId} (ne : other ≠ ref) (held : state.holder tmp other = some chan) :
    References.referenced (References.drop state.links ref) chan = true :=
  ((ok.links.drop ref).referenced_iff chan).mpr ⟨other, by rw [update_of_ne ne, held]⟩

theorem bare {chan : ChanId} {data : Chan} (found : state.chans chan = some data)
    (unreferenced : References.referenced state.links chan = false) :
    data.peer = none ∧ data.node = none ∧ data.refcnt = 0 := by
  have alone : ∀ ref, state.holder tmp ref ≠ some chan := by
    intro ref held
    have referenced := (ok.links.referenced_iff chan).mpr ⟨ref, held⟩
    simp [unreferenced] at referenced
  have bare := ok.unreferenced found alone
  exact ⟨bare.1, bare.2.1, bare.2.2.1⟩

end

theorem releaseHeld (ok : ChansOk tmp none state) {role : Role} {chan : ChanId} {data : Chan}
    (own : tmp role = some chan) (found : state.chans chan = some data) (held : 0 < data.refcnt)
    (shaped : data.Shaped (tmp.set role none) chan) :
    ChansOk (tmp.set role none) none (state.dropLink (.tmp role)) := by
  have loose := ok.delTmp own found shaped fun none => absurd none (ne_of_gt held)
  exact loose.tighten ⟨.handle chan, by simp [IpcState.holder, found, held]⟩

theorem wp_releaseHeld {stop : Stop → IpcState → Prop} (ok : ChansOk tmp none state) {role : Role} {chan : ChanId}
    {data : Chan} (own : tmp role = some chan) (found : state.chans chan = some data) (held : 0 < data.refcnt) :
    wp (chanDelRef chan (.tmp role)) post stop state ↔ post () (state.dropLink (.tmp role)) := by
  have tmpHeld : state.holder tmp (.tmp role) = some chan := own
  have handleHeld : state.holder tmp (.handle chan) = some chan := by
    simp [IpcState.holder, found, held]
  have ne : Ref.handle chan ≠ .tmp role := by simp
  have referenced := ok.still_referenced ne handleHeld
  have stays : (state.dropLink (.tmp role)).settle chan = state.dropLink (.tmp role) := if_pos referenced
  rw [wp_chanDelRef found (ok.linked tmpHeld) (absurd · (ne_false_of_eq_true referenced)), stays]

end ChansOk

def IpcState.refs (state : IpcState) (chan : ChanId) : Nat :=
  (state.chans chan).elim 0 fun data => data.refcnt

structure Chan.Onward (data next : Chan) : Prop where
  uuid : next.uuid = data.uuid
  server : next.server = data.server
  disconnecting : data.state = .disconnecting → next.state = .disconnecting
  closed : data.state = .disconnecting → data.peer = none → next.peer = none
  peer : data.peer.isSome → next.state ≠ .disconnecting → next.peer = data.peer
  path : next.path = none ∨ next.path = data.path
  queue : data.msgQueue.isSome → next.msgQueue = data.msgQueue
  created : data.msgQueue = none → ∀ mq, next.msgQueue = some mq →
    ∃ numItems itemSz, mq = .create numItems itemSz

theorem Chan.Onward.refl (data : Chan) : data.Onward data :=
  ⟨rfl, rfl, id, fun _ => id, fun _ _ => rfl, .inr rfl, fun _ => rfl,
    fun none mq made => by rw [none] at made; cases made⟩

theorem Chan.Onward.trans {data middle next : Chan} (first : data.Onward middle)
    (second : middle.Onward next) : data.Onward next where
  uuid := second.uuid.trans first.uuid
  server := second.server.trans first.server
  disconnecting := second.disconnecting ∘ first.disconnecting
  closed := fun state peer =>
    second.closed (first.disconnecting state) (first.closed state peer)
  peer := by
    intro connected open_
    have kept := first.peer connected (mt second.disconnecting open_)
    rw [← kept]
    exact second.peer (by rw [kept]; exact connected) open_
  path := by
    have := first.path
    have := second.path
    grind
  queue := by
    intro made
    rw [← first.queue made]
    exact second.queue (by rw [first.queue made]; exact made)
  created := by
    intro none mq made
    cases queue : middle.msgQueue with
    | none => exact second.created queue mq made
    | some before =>
    have same := second.queue (by simp [queue])
    exact first.created none mq (same ▸ made)

abbrev Fresh (state : IpcState) : Prop := ∀ chan, state.nextChan ≤ chan → state.chans chan = none

structure Later (state final : IpcState) : Prop where
  nextChan : state.nextChan ≤ final.nextChan
  old : ∀ chan next, chan < state.nextChan → final.chans chan = some next →
    ∃ data, state.chans chan = some data ∧ data.Onward next
  new : ∀ chan next, state.nextChan ≤ chan → final.chans chan = some next →
    next.server = true ∧
      ∀ mq, next.msgQueue = some mq → ∃ numItems itemSz, mq = .create numItems itemSz

namespace Later

variable {state middle final : IpcState}

theorem of_le (chans : final.chans = state.chans) (nextChan : state.nextChan ≤ final.nextChan)
    (fresh : Fresh state) : Later state final where
  nextChan := nextChan
  old := fun chan next _ found => ⟨next, by rw [← chans, found], .refl next⟩
  new := fun chan next above found => by
    rw [chans, fresh chan above] at found
    cases found

theorem of_eq (chans : final.chans = state.chans) (nextChan : final.nextChan = state.nextChan)
    (fresh : Fresh state) : Later state final :=
  .of_le chans (le_of_eq nextChan.symm) fresh

theorem trans (first : Later state middle) (second : Later middle final) : Later state final where
  nextChan := le_trans first.nextChan second.nextChan
  old := by
    intro chan next below found
    obtain ⟨data, dataFound, onward⟩ := second.old chan next (lt_of_lt_of_le below first.nextChan) found
    obtain ⟨before, beforeFound, start⟩ := first.old chan data below dataFound
    exact ⟨before, beforeFound, start.trans onward⟩
  new := by
    intro chan next above found
    by_cases below : chan < middle.nextChan
    · obtain ⟨data, dataFound, onward⟩ := second.old chan next below found
      obtain ⟨server, created⟩ := first.new chan data above dataFound
      refine ⟨onward.server.trans server, ?_⟩
      intro mq made
      cases queue : data.msgQueue with
      | none => exact onward.created queue mq made
      | some before =>
      have same := onward.queue (by simp [queue])
      exact created mq (same ▸ made)
    · exact second.new chan next (Nat.le_of_not_lt below) found

theorem dropLink (ref : Ref) (fresh : Fresh state) : Later state (state.dropLink ref) := .of_eq rfl rfl fresh

theorem setChan {chan : ChanId} {data next : Chan} (found : state.chans chan = some data)
    (fresh : Fresh state)
    (onward : data.Onward next) : Later state (state.setChan chan (some next)) where
  nextChan := le_rfl
  old := by
    intro other otherNext _ alive
    rw [setChan_chans] at alive
    split at alive
    · rename_i same
      cases alive
      exact ⟨data, same ▸ found, onward⟩
    · exact ⟨otherNext, alive, .refl otherNext⟩
  new := by
    intro other otherNext above alive
    grind

section

variable (chan : ChanId) (fresh : Fresh state)
include chan fresh

theorem clearChan : Later state (state.setChan chan none) where
  nextChan := le_rfl
  old := by
    intro other otherNext _ alive
    rw [setChan_chans] at alive
    split at alive
    · cases alive
    · exact ⟨otherNext, alive, .refl otherNext⟩
  new := by
    intro other otherNext above alive
    grind

theorem settle : Later state (state.settle chan) := by
  unfold IpcState.settle
  split
  · exact .of_eq rfl rfl fresh
  · exact .clearChan chan fresh

end

end Later

structure Evolves (state final : IpcState) : Prop where
  nextChan : state.nextChan ≤ final.nextChan
  old : ∀ chan next, chan < state.nextChan → final.chans chan = some next →
    ∃ data, state.chans chan = some data ∧
      (data.state = .disconnecting → next.state = .disconnecting)

namespace Evolves

variable {state middle final : IpcState}

theorem of_later (later : Later state final) : Evolves state final where
  nextChan := later.nextChan
  old := fun chan next below found =>
    let ⟨data, before, onward⟩ := later.old chan next below found
    ⟨data, before, onward.disconnecting⟩

theorem refl (state : IpcState) : Evolves state state := ⟨Nat.le_refl _, fun _ next _ found => ⟨next, found, id⟩⟩

theorem trans (first : Evolves state middle) (second : Evolves middle final) : Evolves state final where
  nextChan := le_trans first.nextChan second.nextChan
  old := by
    intro chan next below found
    obtain ⟨data, dataFound, onward⟩ := second.old chan next (lt_of_lt_of_le below first.nextChan) found
    obtain ⟨before, beforeFound, start⟩ := first.old chan data below dataFound
    exact ⟨before, beforeFound, onward ∘ start⟩

theorem allocChan (start : Chan) (ref : Ref) : Evolves state (state.allocChan start ref) where
  nextChan := Nat.le_succ _
  old := by
    intro chan next below found
    simp only [IpcState.allocChan, update_of_ne (ne_of_lt below)] at found
    exact ⟨next, found, id⟩

theorem setChan {chan : ChanId} {data next : Chan} (found : state.chans chan = some data)
    (same : next.state = data.state) : Evolves state (state.setChan chan (some next)) where
  nextChan := le_rfl
  old := by
    intro other otherNext _ alive
    rw [setChan_chans] at alive
    split at alive
    · rename_i equal
      cases alive
      exact ⟨data, equal ▸ found, same.trans⟩
    · exact ⟨otherNext, alive, id⟩

end Evolves

def IpcState.Ended (state : IpcState) (chan : ChanId) : Prop :=
  ∀ data, state.chans chan = some data → data.state = .disconnecting

theorem Evolves.ended {state final : IpcState} (evolves : Evolves state final) {chan : ChanId}
    (old : chan < state.nextChan) (ended : state.Ended chan) : final.Ended chan := by
  intro next found
  obtain ⟨data, before, onward⟩ := evolves.old chan next old found
  exact onward (ended data before)

structure Attachment.Kept (attachment : Attachment) (state : IpcState) : Prop where
  clientOld : attachment.client < state.nextChan
  serverOld : attachment.server < state.nextChan
  client : ∀ data, state.chans attachment.client = some data → data.state ≠ .disconnecting →
    data.peer = some attachment.server
  server : ∀ data, state.chans attachment.server = some data → data.state ≠ .disconnecting →
    data.peer = some attachment.client

variable {attachment : Attachment}

theorem Attachment.Kept.later {state final : IpcState}
    (kept : attachment.Kept state) (later : Later state final) : attachment.Kept final where
  clientOld := lt_of_lt_of_le kept.clientOld later.nextChan
  serverOld := lt_of_lt_of_le kept.serverOld later.nextChan
  client := by
    intro next found open_
    obtain ⟨data, before, onward⟩ := later.old _ next kept.clientOld found
    have connected := kept.client data before (mt onward.disconnecting open_)
    rw [onward.peer (by rw [connected]; rfl) open_, connected]
  server := by
    intro next found open_
    obtain ⟨data, before, onward⟩ := later.old _ next kept.serverOld found
    have connected := kept.server data before (mt onward.disconnecting open_)
    rw [onward.peer (by rw [connected]; rfl) open_, connected]

structure IpcState.Logged (state : IpcState) : Prop where
  kept : ∀ attachment ∈ state.attached, attachment.Kept state
  servers : (state.attached.map Attachment.server).Nodup

theorem IpcState.Logged.later {state final : IpcState} (logged : state.Logged)
    (later : Later state final) (attached : final.attached = state.attached) : final.Logged where
  kept := fun attachment member => (logged.kept attachment (attached ▸ member)).later later
  servers := attached ▸ logged.servers

theorem IpcState.Logged.attach {state final : IpcState}
    (logged : state.Logged) (later : Later state final)
    (attached : final.attached = state.attached ++ [attachment])
    (kept : attachment.Kept final) (new : attachment.server = state.nextChan) : final.Logged where
  kept := by
    intro entry member
    rw [attached] at member
    rcases mem_append.mp member with old | added
    · exact (logged.kept entry old).later later
    · exact mem_singleton.mp added ▸ kept
  servers := by
    rw [attached, map_append, nodup_append]
    refine ⟨logged.servers, nodup_singleton _, ?_⟩
    intro server member other added
    obtain ⟨entry, entryMember, rfl⟩ := mem_map.mp member
    rw [mem_singleton.mp added, new]
    exact ne_of_lt (logged.kept entry entryMember).serverOld

theorem IpcState.Logged.eq_of_server {state : IpcState} (logged : state.Logged) {first second : Attachment}
    (firstIn : first ∈ state.attached) (secondIn : second ∈ state.attached) (same : first.server = second.server) :
    first = second :=
  inj_on_of_nodup_map logged.servers firstIn secondIn same

theorem IpcState.Logged.allocChan {state : IpcState} (logged : state.Logged) (data : Chan)
    (ref : Ref) : (state.allocChan data ref).Logged where
  kept := by
    intro attachment member
    have kept := logged.kept attachment member
    refine ⟨Nat.lt_succ_of_lt kept.clientOld, Nat.lt_succ_of_lt kept.serverOld, ?_, ?_⟩
    · intro next found
      simp only [IpcState.allocChan, update_of_ne (ne_of_lt kept.clientOld)] at found
      exact kept.client next found
    · intro next found
      simp only [IpcState.allocChan, update_of_ne (ne_of_lt kept.serverOld)] at found
      exact kept.server next found
  servers := logged.servers

namespace IpcState

variable {state : IpcState} {chan : ChanId} {data : Chan}

@[simp] theorem settle_ports : (state.settle chan).ports = state.ports := by
  unfold settle
  split <;> rfl

@[simp] theorem settle_listed : (state.settle chan).ipcPortList = state.ipcPortList := by
  unfold settle
  split <;> rfl

@[simp] theorem settle_nextPort : (state.settle chan).nextPort = state.nextPort := by
  unfold settle
  split <;> rfl

@[simp] theorem settle_chans_ne {other : ChanId} (ne : other ≠ chan) :
    (state.settle chan).chans other = state.chans other := by
  unfold settle
  split
  · rfl
  · rw [setChan_chans_ne _ _ _ _ ne]

theorem refs_update (next : Chan) : (state.setChan chan (some next)).refs = update state.refs chan next.refcnt := by
  funext other
  simp only [refs, setChan_chans, update_apply]
  split <;> rfl

section

variable (found : state.chans chan = some data)
include found

theorem refs_eq : state.refs chan = data.refcnt := by
  rw [refs, found]
  rfl

theorem refs_setChan (next : Chan)
    (same : next.refcnt = data.refcnt) : (state.setChan chan (some next)).refs = state.refs := by
  rw [refs_update, same, ← refs_eq found, update_eq_self]

theorem refs_settle (bare : References.referenced state.links chan = false → data.refcnt = 0) :
    (state.settle chan).refs = state.refs := by
  unfold settle
  split
  · rfl
  rename_i unreferenced
  funext other
  simp only [refs, setChan_chans]
  split
  · rename_i equal
    rw [equal, found]
    exact (bare (by simpa using unreferenced)).symm
  · rfl

end

end IpcState

structure Frame (state final : IpcState) : Prop where
  later : Later state final
  refs : final.refs = state.refs
  attached : final.attached = state.attached

namespace Frame

variable {state middle final : IpcState}

theorem trans (first : Frame state middle) (second : Frame middle final) : Frame state final :=
  ⟨first.later.trans second.later, second.refs.trans first.refs, second.attached.trans first.attached⟩

theorem of_le (chans : final.chans = state.chans) (nextChan : state.nextChan ≤ final.nextChan)
    (attached : final.attached = state.attached)
    (fresh : Fresh state) : Frame state final where
  later := .of_le chans nextChan fresh
  refs := by
    funext chan
    rw [IpcState.refs, IpcState.refs, chans]
  attached := attached

theorem of_eq (chans : final.chans = state.chans) (nextChan : final.nextChan = state.nextChan)
    (attached : final.attached = state.attached) (fresh : Fresh state) : Frame state final :=
  .of_le chans (le_of_eq nextChan.symm) attached fresh

theorem setChan {chan : ChanId} {data next : Chan} (found : state.chans chan = some data) (fresh : Fresh state)
    (onward : data.Onward next) (same : next.refcnt = data.refcnt) : Frame state (state.setChan chan (some next)) :=
  ⟨.setChan found fresh onward, refs_setChan found next same, rfl⟩

theorem settle {tmp : Tmp} {chan : ChanId} {data : Chan} (ok : ChansOk tmp (some chan) state)
    (found : state.chans chan = some data) : Frame state (state.settle chan) where
  later := .settle chan ok.fresh
  refs := refs_settle found fun unreferenced => (ok.bare found unreferenced).2.2
  attached := by
    unfold IpcState.settle
    split <;> rfl

end Frame

end Trusty.Ipc
