import Trusty.Ipc.ChannelMoves

/-!
# Steps of the port calls

A call can for a moment own a reference to a port, taken from the list of ports or a
pending connection. It counts as one of the callers.
-/

namespace Trusty.Ipc

open List

open Function (update update_eq_self update_apply)

variable {data : Port} {port : PortId}

namespace PortsOk

variable {callers : PortId → Nat} {state final : IpcState}

section

variable (ok : PortsOk callers state)
include ok

theorem congr (ports : final.ports = state.ports) (list : final.ipcPortList = state.ipcPortList)
    (next : final.nextPort = state.nextPort) : PortsOk callers final := by
  constructor <;> simp only [ports, list, next]
  exacts [ok.refcnt, ok.alive, ok.fresh, ok.listed, ok.listedNodup, ok.listening, ok.paths]

section

variable (found : state.ports port = some data)
include found

theorem change {next : Option Port} {count : Nat}
    (kept : ∀ new, next = some new → new.refcnt = count + data.node.toNat + new.pendingList.length ∧
      new.node = data.node ∧ new.path = data.path ∧ (data.node = true → new.state = data.state))
    (gone : next = none → count = 0 ∧ data.node = false) :
    PortsOk (update callers port count) (state.setPort port next) := by
  constructor
  · intro number numberData numberFound
    have others := ok.refcnt number
    grind
  · intro number held
    have others := ok.alive number
    cases next <;> grind
  · intro number above
    have none := ok.fresh number above
    grind
  · intro number
    refine (ok.listed number).trans ?_
    cases next <;> grind
  · exact ok.listedNodup
  · grind [ok.listening]
  · grind [ok.paths]

theorem incref : PortsOk (update callers port (callers port + 1))
      (state.setPort port (some { data with refcnt := data.refcnt + 1 })) := by
  have own := ok.refcnt port data found
  refine ok.change found ?_ nofun
  rintro _ ⟨⟩
  exact ⟨by dsimp only; omega, rfl, rfl, fun _ => rfl⟩

theorem decref (held : 0 < callers port) :
    PortsOk (update callers port (callers port - 1)) (state.setPort port (if data.refcnt = 1 then none
        else some { data with refcnt := data.refcnt - 1 })) := by
  have own := ok.refcnt port data found
  apply ok.change found
  · intro new is
    split at is
    · cases is
    · cases is
      exact ⟨by dsimp only; omega, rfl, rfl, fun _ => rfl⟩
  · intro last
    have unlisted : data.node.toNat = 0 := by grind
    exact ⟨by grind, by simpa using unlisted⟩

end

end

theorem decrefOwned (ok : PortsOk (update callers port (callers port + 1)) state)
    (found : state.ports port = some data) :
    PortsOk callers (state.setPort port (if data.refcnt = 1 then none
      else some { data with refcnt := data.refcnt - 1 })) := by
  have dropped := ok.decref found (by simp)
  simpa using dropped

section

variable (ok : PortsOk callers state) (found : state.ports port = some data)
include ok found

theorem publish (unique : ∀ other otherData, state.ports other = some otherData → otherData.node = true →
      otherData.path ≠ data.path) :
    PortsOk callers ((state.setPort port (some { data with
      state := .listening, node := true, refcnt := data.refcnt + 1 })).setListed (state.ipcPortList ++ [port])) := by
  have unlisted : data.node = false := by
    cases node : data.node with
    | false => rfl
    | true => exact absurd rfl (unique port data found node)
  have own := ok.refcnt port data found
  constructor
  · intro number numberData numberFound
    have others := ok.refcnt number
    grind
  · intro number held
    have others := ok.alive number held
    grind
  · intro number above
    have none := ok.fresh number above
    grind
  · intro number
    refine mem_append.trans ?_
    rw [ok.listed number, mem_singleton]
    grind
  · change (state.ipcPortList ++ [port]).Nodup
    rw [← concat_eq_append]
    refine Nodup.concat ?_ ok.listedNodup
    rw [ok.listed port]
    grind
  · grind [ok.listening]
  · grind [ok.paths]

theorem unlist (listed : data.node = true) (state₁ : PortState) : PortsOk (update callers port (callers port + 1))
      ((state.setPort port (some { data with state := state₁, node := false })).setListed
        (state.ipcPortList.erase port)) := by
  have own := ok.refcnt port data found
  constructor
  · intro number numberData numberFound
    have others := ok.refcnt number
    grind
  · intro number held
    have others := ok.alive number
    simp only [update_apply] at held
    grind
  · intro number above
    have none := ok.fresh number above
    grind
  · intro number
    refine (ok.listedNodup.mem_erase_iff).trans ?_
    rw [ok.listed number]
    grind
  · exact ok.listedNodup.erase port
  · grind [ok.listening]
  · grind [ok.paths]

theorem setState (unlisted : data.node = false) (state₁ : PortState) :
    PortsOk callers (state.setPort port (some { data with state := state₁ })) := by
  rw [← update_eq_self port callers]
  refine ok.change found ?_ nofun
  rintro _ ⟨⟩
  exact ⟨ok.refcnt port data found, rfl, rfl, fun listed => nomatch unlisted.symm.trans listed⟩

theorem addPending (chan : ChanId) : PortsOk callers (state.setPort port (some { data with
      pendingList := data.pendingList ++ [chan], refcnt := data.refcnt + 1 })) := by
  have own := ok.refcnt port data found
  rw [← update_eq_self port callers]
  refine ok.change found ?_ nofun
  rintro _ ⟨⟩
  exact ⟨by simp only [length_append, length_singleton]; omega, rfl, rfl, fun _ => rfl⟩

theorem erasePending {chan : ChanId} (pending : chan ∈ data.pendingList) :
    PortsOk (update callers port (callers port + 1))
      (state.setPort port (some { data with pendingList := data.pendingList.erase chan })) := by
  have own := ok.refcnt port data found
  have length := length_erase_of_mem pending
  have positive := length_pos_of_mem pending
  refine ok.change found ?_ nofun
  rintro _ ⟨⟩
  exact ⟨by dsimp only; omega, rfl, rfl, fun _ => rfl⟩

end

theorem create (ok : PortsOk callers state) (refcnt : data.refcnt = 1) (unlisted : data.node = false)
    (empty : data.pendingList = []) : PortsOk (update callers state.nextPort 1) (state.allocPort data) := by
  have absent := ok.fresh state.nextPort le_rfl
  have look : ∀ number numberData, (state.allocPort data).ports number = some numberData ↔
      number = state.nextPort ∧ numberData = data ∨ state.ports number = some numberData := by
    intro number numberData
    simp only [IpcState.allocPort, update_apply]
    grind
  constructor
  · intro number numberData found
    rcases (look number numberData).mp found with ⟨rfl, rfl⟩ | old
    · simp [refcnt, unlisted, empty]
    · have others := ok.refcnt number numberData old
      grind
  · intro number held
    simp only [IpcState.allocPort, update_apply] at held ⊢
    split
    · rfl
    · rename_i ne
      rw [if_neg ne] at held
      exact ok.alive number held
  · intro number above
    have none := ok.fresh number (Nat.le_of_succ_le above)
    have ne : number ≠ state.nextPort := ne_of_gt above
    simp [IpcState.allocPort, ne, none]
  · intro number
    refine (ok.listed number).trans ?_
    grind
  · exact ok.listedNodup
  · grind [ok.listening]
  · grind [ok.paths]

end PortsOk

variable {loose : Option ChanId} {tmp : Tmp}

section

variable {state : IpcState} (ok : ChansOk tmp loose state)
include ok

theorem ChansOk.ports (final : IpcState) (chans : final.chans = state.chans)
    (nextChan : final.nextChan = state.nextChan) (links : final.links = state.links)
    (waiting : final.waitingForPortChanList = state.waitingForPortChanList) (attached : final.attached = state.attached)
    (before : ∀ port data, final.ports port = some data → data.pendingList = [] ∨
      ∃ old, state.ports port = some old ∧ data.pendingList = old.pendingList)
    (after : ∀ port data, state.ports port = some data → data.pendingList = [] ∨
      ∃ new, final.ports port = some new ∧ new.pendingList = data.pendingList) : ChansOk tmp loose final := by
  have holder : final.holder tmp = state.holder tmp := by
    funext ref
    cases ref <;> simp only [IpcState.holder, chans]
  constructor <;> try simp only [chans, nextChan, links, waiting, attached, holder]
  · exact ok.links
  · exact ok.tmpAlive
  · exact ok.kept
  · exact ok.fresh
  · exact ok.shaped
  · exact ok.pendingShape
  · exact ok.unheld
  · exact ok.apart
  · exact ok.matched
  · exact ok.logged
  · exact ok.waitingNodup
  · exact ok.waiting
  · intro port data found
    rcases before port data found with empty | ⟨old, oldFound, same⟩
    · rw [empty]
      exact nodup_nil
    · rw [same]
      exact ok.pendingNodup port old oldFound
  · intro port chan
    refine Iff.trans ?_ (ok.pending port chan)
    constructor
    · rintro ⟨data, found, listed⟩
      rcases before port data found with empty | ⟨old, oldFound, same⟩
      · simp [empty] at listed
      · exact ⟨old, oldFound, same ▸ listed⟩
    · rintro ⟨data, found, listed⟩
      rcases after port data found with empty | ⟨new, newFound, same⟩
      · simp [empty] at listed
      · exact ⟨new, newFound, same ▸ listed⟩

theorem ChansOk.setPort (found : state.ports port = some data) (next : Port)
    (same : next.pendingList = data.pendingList) : ChansOk tmp loose (state.setPort port (some next)) := by
  refine ok.ports (state.setPort port (some next)) rfl rfl rfl rfl rfl ?_ ?_ <;> grind

theorem ChansOk.allocPort (absent : state.ports state.nextPort = none) (empty : data.pendingList = []) :
    ChansOk tmp loose (state.allocPort data) := by
  refine ok.ports _ rfl rfl rfl rfl rfl ?_ ?_ <;> simp only [IpcState.allocPort, update_apply] <;> grind

theorem ChansOk.setListed (listed : List PortId) : ChansOk tmp loose (state.setListed listed) :=
  ok.ports _ rfl rfl rfl rfl rfl (fun _ data found => .inr ⟨data, found, rfl⟩)
    fun _ data found => .inr ⟨data, found, rfl⟩

theorem ChansOk.decrefPort (found : state.ports port = some data) (bare : data.refcnt = 1 → data.pendingList = []) :
    ChansOk tmp loose (state.setPort port (if data.refcnt = 1 then none
      else some { data with refcnt := data.refcnt - 1 })) := by
  refine ok.ports _ rfl rfl rfl rfl rfl ?_ ?_ <;> grind

end

end Trusty.Ipc
