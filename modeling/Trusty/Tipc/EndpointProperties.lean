import Trusty.Tipc.SessionProperties

/-!
# Endpoints end with their channels

A Linux channel has at most one connection under way: its request, the endpoint that
answers it, or the message that ends it. So its disconnect takes along all that the
secure device has of it.
-/

namespace Trusty.Tipc

open List

open Function (update update_self update_of_ne)

/-!
## Counting connections
-/

def Request.connects : Request → Bool
  | .connReq _ => true
  | _ => false

def Message.ends : Message → Bool
  | .connRsp _ status _ _ _ => status != 0
  | .discReq _ => true
  | .data _ _ => false

def Ept.ownedBy (ept : Ept) (creator : Chan → Nat) (id : Nat) : Nat :=
  if ept.chan.map creator = some id then 1 else 0

def endpoints (epts : Slot → Ept) (creator : Chan → Nat) (id : Nat) : Nat :=
  ∑ slot, (epts slot).ownedBy creator id

def Rx.asking (rx : Rx) (serving id : Nat) : Nat :=
  if rx.asks.isSome ∧ serving = id then 1 else 0

def Tx.parting (tx : Tx) (creator : Chan → Nat) (id : Nat) : Nat :=
  match tx with
  | .disconnecting chan _ _ => if creator chan = id then 1 else 0
  | _ => 0

def Message.ending (message : Message) (owner id : Nat) : Nat :=
  if message.ends ∧ owner = id then 1 else 0

section Session

variable (session : Session) (id : Nat)

def Session.queued : Nat :=
  session.toSecure.countP fun entry => entry.1.connects && entry.2 == id

def Session.ending : Nat :=
  session.toLinux.countP fun entry => entry.1.ends && entry.2 == id

def Session.calling : Nat :=
  match session.callback with
  | some callback => callback.message.ending callback.owner id
  | none => 0

def Session.connections : Nat :=
  session.queued id + session.rx.asking session.serving id +
    endpoints session.core.dev.epts session.creator id +
    session.tx.parting session.creator id + session.ending id + session.calling id

def Session.Parts : Prop := ∃ src target, (Request.discReq src target, id) ∈ session.toSecure

end Session

def Final (id : Nat) : List (Request × Nat) → Prop
  | [] => True
  | entry :: rest =>
    (∀ src target, entry = (.discReq src target, id) → ∀ other ∈ rest, other.2 ≠ id) ∧
      Final id rest

theorem Final.append {id : Nat} {queue : List (Request × Nat)} {entry : Request × Nat} (final : Final id queue)
    (apart : ∀ src target, (Request.discReq src target, id) ∈ queue → entry.2 ≠ id) : Final id (queue ++ [entry]) := by
  induction queue with
  | nil => exact ⟨nofun, trivial⟩
  | cons first rest ih =>
  refine ⟨fun src target is other mem => ?_, ?_⟩
  · rcases mem_append.mp mem with before | last
    · exact final.1 src target is other before
    · rw [mem_singleton.mp last]
      exact apart src target (by rw [is]; exact mem_cons_self)
  · exact ih final.2 fun src target mem =>
      apart src target (mem_cons_of_mem _ mem)

section Endpoints

variable {epts : Slot → Ept} {creator : Chan → Nat} {id : Nat}

theorem endpoints_update (slot : Slot) (ept : Ept) :
    endpoints (update epts slot ept) creator id + (epts slot).ownedBy creator id =
      endpoints epts creator id + ept.ownedBy creator id := by
  have moved : (fun other => (update epts slot ept other).ownedBy creator id) =
      update (fun other => (epts other).ownedBy creator id) slot (ept.ownedBy creator id) := by
    funext other
    by_cases same : other = slot
    · rw [same, update_self, update_self]
    · rw [update_of_ne same, update_of_ne same]
  unfold endpoints
  rw [moved, Finset.sum_update_of_mem (Finset.mem_univ slot),
    ← Finset.sum_sdiff (Finset.singleton_subset_iff.mpr (Finset.mem_univ slot)),
    Finset.sum_singleton]
  omega

theorem endpoints_eq_zero_iff : endpoints epts creator id = 0 ↔
    ∀ slot chan, (epts slot).chan = some chan → creator chan ≠ id := by
  unfold endpoints
  rw [Finset.sum_eq_zero_iff]
  constructor
  · intro none slot chan is own
    have zero := none slot (Finset.mem_univ slot)
    simp [Ept.ownedBy, is, own] at zero
  intro none slot _
  unfold Ept.ownedBy
  cases is : (epts slot).chan with
  | none => simp
  | some chan => simp [none slot chan is]

theorem endpoints_congr {other : Chan → Nat}
    (same : ∀ slot chan, (epts slot).chan = some chan → other chan = creator chan) :
    endpoints epts other id = endpoints epts creator id := by
  refine Finset.sum_congr rfl fun slot _ => ?_
  unfold Ept.ownedBy
  cases is : (epts slot).chan with
  | none => simp
  | some chan => simp [same slot chan is]

theorem endpoints_close {core : Core} {slot : Slot} {chan : Chan} (is : (core.dev.epts slot).chan = some chan) :
    endpoints (core.close slot chan).dev.epts creator id + (if creator chan = id then 1 else 0) =
      endpoints core.dev.epts creator id := by
  have moved : endpoints (update core.dev.epts slot ⟨0, none⟩) creator id + _ = _ := endpoints_update slot ⟨0, none⟩
  simp only [Core.close, freeLocalAddr_slotToAddr, Dev.detach]
  simpa [Ept.ownedBy, is] using moved

end Endpoints

/-!
## Steps of the device
-/

variable {core next : Core} {label : Label} {before after : Rx}

theorem rx_balance (step : RxStep core before label next after) {creator : Chan → Nat}
    {serving : Nat} (own : ∀ remote chan, before = .opened remote chan → creator chan = serving)
    (wired : Wired core.dev (some before) core.opened) (id : Nat) :
    (label = .internal → after.asking serving id + endpoints next.dev.epts creator id ≤
        before.asking serving id + endpoints core.dev.epts creator id) ∧
      ∀ message, label = .emit none message →
        after.asking serving id + endpoints next.dev.epts creator id + message.ending serving id ≤
          before.asking serving id + endpoints core.dev.epts creator id := by
  cases step with
  | connReq | noPort | discReq | chanMsg => exact ⟨nofun, nofun⟩
  | @place remote chan =>
    refine ⟨fun _ => ?_, nofun⟩
    unfold Core.place Dev.allocLocalAddr
    cases found : core.dev.bitmapFfz with
    | none => simp [Rx.asking, Rx.asks]
    | some slot =>
    have empty : (core.dev.epts slot).chan = none := by
      cases is : (core.dev.epts slot).chan with
      | none => rfl
      | some value =>
      have used := (wired.inuse slot).mpr (by rw [is]; exact nofun)
      rw [bitmapFfz_eq_some found] at used
      contradiction
    have moved : endpoints (update core.dev.epts slot ⟨remote, some chan⟩) creator id + _ =
      _ := endpoints_update slot ⟨remote, some chan⟩
    simp only [slotToAddr_ne_zero, if_false]
    simp [Ept.ownedBy, empty, own remote chan rfl] at moved
    simp [Rx.asking, Rx.asks, moved, add_comm]
  | tag | list => exact ⟨fun _ => le_rfl, nofun⟩
  | refuse =>
    refine ⟨nofun, fun message is => ?_⟩
    obtain ⟨_, rfl⟩ := Label.emit.inj is
    simp [Rx.asking, Rx.asks, Message.ending, Message.ends, errNoResources, add_comm]
  | lost =>
  refine ⟨fun _ => ?_, nofun⟩
  simp [Rx.asking, Rx.asks]

theorem tx_balance {before after : Tx} (step : TxStep core before label next after) {rx : Option Rx}
    (wired : Wired core.dev rx core.opened) (creator : Chan → Nat) (id : Nat) :
    (label = .internal → endpoints next.dev.epts creator id + after.parting creator id ≤
        endpoints core.dev.epts creator id + before.parting creator id) ∧
      ∀ chan message, label = .emit (some chan) message →
        endpoints next.dev.epts creator id + after.parting creator id + message.ending (creator chan) id ≤
          endpoints core.dev.epts creator id + before.parting creator id := by
  cases step with
  | wake | other | unanswered | drained => exact ⟨fun _ => le_rfl, by simp⟩
  | ready | msg =>
    refine ⟨fun _ => ?_, by simp⟩
    simp only [Core.ready, Core.txMsg]
    split <;> exact le_rfl
  | @hup chan =>
    refine ⟨fun _ => ?_, by simp⟩
    unfold Core.hup
    split
    · rename_i slot cookie
      have closed : endpoints (core.close slot chan).dev.epts creator id + _ = _ :=
        endpoints_close (wired.cookie cookie)
      dsimp only [Tx.parting]
      rw [closed]
      exact Nat.le_add_right _ _
    · exact Nat.le_refl _
  | respond | forward =>
    refine ⟨by simp, fun chan message is => ?_⟩
    obtain ⟨_, rfl⟩ := Label.emit.inj is
    simp [Tx.parting, Message.ending, Message.ends]
  | disconnect =>
    refine ⟨by simp, fun chan message is => ?_⟩
    obtain ⟨same, rfl⟩ := Label.emit.inj is
    cases same
    simp [Tx.parting, Message.ending, Message.ends]
  | unnoticed =>
  refine ⟨fun _ => ?_, by simp⟩
  simp [Tx.parting]

variable {request : Request}

theorem receive_balance (step : RxStep core before (.receive request) next after) {rx : Option Rx}
    (wired : Wired core.dev rx core.opened) (creator : Chan → Nat) (owner id : Nat) :
    after.asking owner id + endpoints next.dev.epts creator id ≤
      (if request.connects ∧ owner = id then 1 else 0) + endpoints core.dev.epts creator id := by
  cases step with
  | connReq | noPort => simp [Rx.asking, Rx.asks, Request.connects]
  | discReq =>
    have zero : Rx.idle.asking owner id = 0 := by simp [Rx.asking, Rx.asks]
    rw [zero, zero_add]
    unfold Core.discReq
    split
    · rename_i slot found
      obtain ⟨used, _⟩ := findEpt_eq_some found
      obtain ⟨chan, is⟩ := wired.used used
      rw [is]
      have closed : endpoints (core.close slot chan).dev.epts creator id + _ = _ := endpoints_close is
      dsimp only
      omega
    · simp
  | chanMsg =>
  have same : ∀ remote addr, (core.chanMsg remote addr).dev = core.dev := by
    intro remote addr
    unfold Core.chanMsg
    split
    · split
      · split <;> rfl
      · rfl
    · rfl
  simp [Rx.asking, Rx.asks, same]

/-!
## The invariant
-/

structure Counted (session : Session) : Prop where
  most : ∀ id, session.connections id ≤ 1
  resting : ∀ id, session.count ≤ id ∨ (session.chans id).state = .disconnected →
    session.connections id = 0
  ended : ∀ id < session.count, (session.chans id).state = .stale → ¬session.Parts id →
    session.queued id = 0 ∧
      endpoints session.core.dev.epts session.creator id = 0 ∧
      ∀ remote chan, session.rx = .opened remote chan → session.serving ≠ id
  final : ∀ id, Final id session.toSecure
  parts : ∀ id, session.Parts id → (session.chans id).state = .stale
  stopped : ∀ id < session.count, (session.chans id).state = .stale ↔
    (session.chans id).phase = .stopped ∨ (session.chans id).phase = .destroyed

theorem Counted.start : Counted .start := by
  have nowhere : ∀ id, Session.connections .start id = 0 := by
    intro id
    have zero : endpoints Session.start.core.dev.epts Session.start.creator id = 0 := endpoints_eq_zero_iff.mpr nofun
    simp only [Session.connections, zero]
    rfl
  refine ⟨fun id => ?_, fun id _ => nowhere id, nofun, fun _ => trivial, ?_, nofun⟩
  · rw [nowhere id]
    exact Nat.zero_le 1
  · rintro id ⟨src, target, mem⟩
    contradiction

section Counted

variable {session : Session}

theorem Counted.setChan (counted : Counted session) {id : Nat} {chan : LinuxChan}
    (state : chan.state = (session.chans id).state) (phase : chan.phase = .stopped ∨ chan.phase = .destroyed ↔
      (session.chans id).phase = .stopped ∨ (session.chans id).phase = .destroyed) :
    Counted (session.setChan id chan) := by
  have states : ∀ other, ((session.setChan id chan).chans other).state = (session.chans other).state := by
    intro other
    dsimp only [Session.setChan]
    by_cases same : other = id
    · rw [same, update_self, state]
    · rw [update_of_ne same]
  refine ⟨counted.most, fun other free => ?_, fun other below stale => ?_, counted.final,
    fun other parts => ?_, fun other below => ?_⟩
  · rw [states other] at free
    exact counted.resting other free
  · rw [states other] at stale
    exact counted.ended other below stale
  · rw [states other]
    exact counted.parts other parts
  rw [states other, counted.stopped other below]
  dsimp only [Session.setChan]
  by_cases same : other = id
  · rw [same, update_self]
    exact phase.symm
  · rw [update_of_ne same]

theorem countP_append_singleton {α : Type} (p : α → Bool) (queue : List α) (entry : α) :
    (queue ++ [entry]).countP p = queue.countP p + if p entry then 1 else 0 := by
  simp [countP_append, countP_singleton]

section

variable (counted : Counted session)

include counted

theorem Counted.write {id : Nat} (state : (session.chans id).state = .connected) (src dst : UInt32)
    (payload : List UInt8) : Counted (session.send id (.data src dst payload)) := by
  have queued : ∀ other, (session.send id (.data src dst payload)).queued other = session.queued other := by
    intro other
    simp [Session.send, Session.queued, Request.connects]
  have parts : ∀ {other}, (session.send id (.data src dst payload)).Parts other ↔ session.Parts other := by
    intro other
    simp [Session.send, Session.Parts]
  have same : ∀ other, (session.send id (.data src dst payload)).connections other = session.connections other := by
    intro other
    simp only [Session.connections, queued]
    rfl
  refine ⟨fun other => ?_, fun other free => ?_, fun other below stale open' => ?_, fun other => ?_,
    fun other parting => counted.parts other (parts.mp parting), counted.stopped⟩
  · rw [same]
    exact counted.most other
  · rw [same]
    exact counted.resting other free
  · rw [queued]
    exact counted.ended other below stale fun before => open' (parts.mpr before)
  refine (counted.final other).append fun src target mem => ?_
  rintro rfl
  have stale := counted.parts _ ⟨src, target, mem⟩
  rw [state] at stale
  contradiction

theorem Counted.connect {id : Nat} (below : id < session.count) (phase : (session.chans id).phase = .live)
    (state : (session.chans id).state = .disconnected) (src : UInt32) :
    Counted ((session.setChan id { session.chans id with state := .connecting }).send id (.connReq src)) := by
  let after := (session.setChan id { session.chans id with state := .connecting }).send id (.connReq src)
  have other : ∀ {value}, value ≠ id → after.chans value = session.chans value :=
    fun differs => update_of_ne differs _ _
  have own : after.chans id = { session.chans id with state := .connecting } := update_self ..
  have queued : ∀ value, after.queued value = session.queued value + if id = value then 1 else 0 := by
    intro value
    simp only [after, Session.send, Session.queued, countP_append_singleton, Request.connects]
    simp [Session.setChan]
  have same : ∀ value, after.connections value = session.connections value + if id = value then 1 else 0 := by
    intro value
    simp only [Session.connections, queued]
    show _ + session.rx.asking session.serving value + endpoints session.core.dev.epts session.creator value +
      session.tx.parting session.creator value + session.ending value + session.calling value = _
    omega
  have parts : ∀ {value}, after.Parts value ↔ session.Parts value := by
    intro value
    simp [after, Session.send, Session.setChan, Session.Parts]
  have zero := counted.resting id (.inr state)
  refine ⟨fun value => ?_, fun value free => ?_, fun value known stale open' => ?_,
    fun value => ?_, fun value parting => ?_, fun value known => ?_⟩
  · rw [same]
    by_cases is : id = value
    · rw [← is, zero, if_pos rfl]
    · rw [if_neg is, add_zero]
      exact counted.most value
  · rw [same]
    have differs : id ≠ value := by
      rintro rfl
      rcases free with above | none
      · exact absurd below (Nat.not_lt.mpr above)
      · rw [own] at none
        contradiction
    rw [other differs.symm] at free
    rw [if_neg differs, add_zero]
    exact counted.resting value free
  · have differs : value ≠ id := by
      rintro rfl
      rw [own] at stale
      contradiction
    rw [other differs] at stale
    rw [queued, if_neg differs.symm]
    exact counted.ended value known stale fun before => open' (parts.mpr before)
  · refine (counted.final value).append fun src target mem => ?_
    rintro rfl
    have stale := counted.parts _ ⟨src, target, mem⟩
    rw [state] at stale
    contradiction
  · have before := counted.parts value (parts.mp parting)
    have differs : value ≠ id := by
      rintro rfl
      rw [state] at before
      contradiction
    rw [other differs]
    exact before
  · by_cases is : value = id
    · rw [is, own, phase]
      simp
    · rw [other is]
      exact counted.stopped value known

theorem Counted.shutdown {id : Nat} (below : id < session.count) (phase : (session.chans id).phase = .shut) :
    Counted (session.shutdown id) := by
  let chan := { session.chans id with state := .stale, phase := .stopped }
  have fresh : (session.chans id).state ≠ .stale := by
    intro stale
    have stopped := (counted.stopped id below).mp stale
    rw [phase] at stopped
    simp at stopped
  have silent : ∀ src target, (Request.discReq src target, id) ∉ session.toSecure :=
    fun src target mem => fresh (counted.parts id ⟨src, target, mem⟩)
  have other : ∀ {value}, value ≠ id → (session.setChan id chan).chans value =
      session.chans value := fun differs => update_of_ne differs _ _
  have own : (session.setChan id chan).chans id = chan := update_self ..
  have stopped : ∀ value < session.count, ((session.setChan id chan).chans value).state = .stale ↔
      ((session.setChan id chan).chans value).phase = .stopped ∨
        ((session.setChan id chan).chans value).phase = .destroyed := by
    intro value known
    by_cases is : value = id
    · rw [is, own]
      exact ⟨fun _ => .inl rfl, fun _ => rfl⟩
    · rw [other is]
      exact counted.stopped value known
  unfold Session.shutdown
  dsimp only
  split
  · -- the request to disconnect is the last one of the channel
    have queued : ∀ value, ((session.setChan id chan).send id
        (.discReq (session.chans id).addr (session.chans id).remote)).queued value =
        session.queued value := by
      intro value
      simp [Session.send, Session.setChan, Session.queued, Request.connects]
    have same : ∀ value, ((session.setChan id chan).send id
        (.discReq (session.chans id).addr (session.chans id).remote)).connections value =
        session.connections value := by
      intro value
      simp only [Session.connections, queued]
      rfl
    have parts : ∀ {value}, ((session.setChan id chan).send id
        (.discReq (session.chans id).addr (session.chans id).remote)).Parts value ↔
        session.Parts value ∨ value = id := by
      intro value
      simp only [Session.send, Session.setChan, Session.Parts, mem_append,
        mem_singleton, Prod.mk.injEq, Request.discReq.injEq]
      constructor
      · rintro ⟨src, target, before | last⟩
        · exact .inl ⟨src, target, before⟩
        · exact .inr last.2
      · rintro (⟨src, target, before⟩ | is)
        · exact ⟨src, target, .inl before⟩
        · exact ⟨_, _, .inr ⟨⟨rfl, rfl⟩, is⟩⟩
    refine ⟨fun value => ?_, fun value free => ?_, fun value known stale open' => ?_,
      fun value => ?_, fun value parting => ?_, stopped⟩
    · rw [same]
      exact counted.most value
    · rw [same]
      refine counted.resting value (free.imp_right fun none => ?_)
      by_cases is : value = id
      · rw [is] at none
        exact absurd none (by show ((session.setChan id chan).chans id).state ≠ _; simp [own])
      · exact (congrArg LinuxChan.state (other is)).symm.trans none
    · have differs : value ≠ id := fun is => open' (parts.mpr (.inr is))
      rw [queued]
      refine counted.ended value known ?_ fun before => open' (parts.mpr (.inl before))
      exact (congrArg LinuxChan.state (other differs)).symm.trans stale
    · refine (counted.final value).append fun src target mem => ?_
      rintro rfl
      exact silent src target mem
    · by_cases is : value = id
      · rw [is]
        exact congrArg LinuxChan.state own
      · have before := parts.mp parting
        simp only [is, or_false] at before
        exact (congrArg LinuxChan.state (other is)).trans (counted.parts value before)
  · rename_i unconnected
    have state : (session.chans id).state = .disconnected := by
      cases is : (session.chans id).state with
      | disconnected => rfl
      | connecting => exact absurd (.inr is) unconnected
      | connected => exact absurd (.inl is) unconnected
      | stale => contradiction
    have zero := counted.resting id (.inr state)
    refine ⟨counted.most, fun value free => ?_, fun value known stale open' => ?_, counted.final,
      fun value parting => ?_, stopped⟩
    · refine counted.resting value (free.imp_right fun none => ?_)
      by_cases is : value = id
      · rw [is]
        exact state
      · exact (congrArg LinuxChan.state (other is)).symm.trans none
    · by_cases is : value = id
      · obtain rfl := is
        unfold Session.connections at zero
        refine ⟨?_, ?_, ?_⟩
        · show session.queued value = 0
          omega
        · show endpoints session.core.dev.epts session.creator value = 0
          omega
        intro remote opened asks serving
        have one : session.rx.asking session.serving value = 1 := by
          have asks : session.rx = .opened remote opened := asks
          have serving : session.serving = value := serving
          simp [Rx.asking, Rx.asks, asks, serving]
        omega
      · exact counted.ended value known ((congrArg LinuxChan.state (other is)).symm.trans stale) open'
    · have before := counted.parts value parting
      have differs : value ≠ id := by
        rintro rfl
        exact fresh before
      exact (congrArg LinuxChan.state (other differs)).trans before

theorem Counted.destroy {id : Nat} (phase : (session.chans id).phase = .stopped) : Counted (session.destroy id) := by
  have changed : Counted (session.setChan id
      { session.chans id with addr := 0, remote := 0, phase := .destroyed }) := by
    refine counted.setChan rfl ?_
    rw [phase]
    simp
  exact { changed with }

theorem Counted.create (owned : Owned session) (addr : UInt32) : Counted (session.create addr) := by
  have zero := counted.resting session.count (.inl le_rfl)
  have other : ∀ {value}, value ≠ session.count → (session.create addr).chans value =
      session.chans value := fun differs => update_of_ne differs _ _
  have own : (session.create addr).chans session.count = .created addr := update_self ..
  refine ⟨counted.most, fun value free => ?_, fun value known stale open' => ?_, counted.final,
    fun value parting => ?_, fun value known => ?_⟩
  · by_cases is : value = session.count
    · rw [is]
      exact zero
    · refine counted.resting value (free.imp (fun above => ?_) fun none => ?_)
      · exact Nat.le_of_succ_le above
      · exact (congrArg LinuxChan.state (other is)).symm.trans none
  · have differs : value ≠ session.count := by
      rintro rfl
      rw [own] at stale
      contradiction
    have below : value < session.count := lt_of_le_of_ne (Nat.le_of_lt_succ known) differs
    exact counted.ended value below ((congrArg LinuxChan.state (other differs)).symm.trans stale) open'
  · have before := counted.parts value parting
    by_cases is : value = session.count
    · obtain ⟨src, target, mem⟩ := parting
      exact absurd is (ne_of_lt (owned.sent mem).1)
    · exact (congrArg LinuxChan.state (other is)).trans before
  · by_cases is : value = session.count
    · rw [is, own]
      simp [LinuxChan.created]
    · rw [other is]
      exact counted.stopped value (lt_of_le_of_ne (Nat.le_of_lt_succ known) is)

theorem Counted.less {after : Session} (chans : after.chans = session.chans) (count : after.count = session.count)
    (requests : after.toSecure = session.toSecure) (less : ∀ id, after.connections id ≤ session.connections id)
    (ended : ∀ id, endpoints session.core.dev.epts session.creator id = 0 →
      (∀ remote chan, session.rx = .opened remote chan → session.serving ≠ id) →
      endpoints after.core.dev.epts after.creator id = 0 ∧
        ∀ remote chan, after.rx = .opened remote chan → after.serving ≠ id) : Counted after := by
  have queued : ∀ id, after.queued id = session.queued id := by
    intro id
    unfold Session.queued
    rw [requests]
  have parts : ∀ {id}, after.Parts id ↔ session.Parts id := by
    intro id
    unfold Session.Parts
    rw [requests]
  refine ⟨fun id => le_trans (less id) (counted.most id), fun id free => ?_,
    fun id below stale open' => ?_, fun id => ?_, fun id parting => ?_, fun id below => ?_⟩
  · rw [chans, count] at free
    exact Nat.eq_zero_of_le_zero (le_trans (less id) (le_of_eq (counted.resting id free)))
  · rw [chans] at stale
    rw [count] at below
    obtain ⟨none, gone, unopened⟩ := counted.ended id below stale fun before => open' (parts.mpr before)
    exact ⟨(queued id).trans none, ended id gone unopened⟩
  · rw [requests]
    exact counted.final id
  · rw [chans]
    exact counted.parts id (parts.mp parting)
  · rw [chans]
    rw [count] at below
    exact counted.stopped id below

theorem Counted.take {message : Message} {owner : Nat} {rest : List (Message × Nat)} (idle : session.callback = none)
    (head : session.toLinux = (message, owner) :: rest) {callback : Option Callback}
    (same : ∀ call, callback = some call → call.message = message ∧ call.owner = owner) :
    Counted { session with toLinux := rest, callback := callback } := by
  refine counted.less rfl rfl rfl (fun id => ?_) fun id gone unopened => ⟨gone, unopened⟩
  have ending : session.ending id = rest.countP (fun entry => entry.1.ends && entry.2 == id) +
      message.ending owner id := by
    simp [Session.ending, head, countP_cons, Message.ending]
  have before : session.calling id = 0 := by simp [Session.calling, idle]
  have calling : Session.calling { session with toLinux := rest, callback := callback } id ≤
      message.ending owner id := by
    cases callback with
    | none => exact Nat.zero_le _
    | some call =>
    obtain ⟨rfl, rfl⟩ := same call rfl
    exact le_rfl
  unfold Session.connections
  show session.queued id + session.rx.asking session.serving id + endpoints session.core.dev.epts session.creator id +
    session.tx.parting session.creator id +
    rest.countP (fun entry => entry.1.ends && entry.2 == id) + _ ≤ _
  omega

theorem Counted.discard : Counted { session with callback := none } := by
  refine counted.less rfl rfl rfl (fun id => ?_) fun id gone unopened => ⟨gone, unopened⟩
  exact Nat.add_le_add_left (Nat.zero_le _) _

end

theorem handle_state (chan : LinuxChan) (message : Message) :
    ((chan.handle message).state = chan.state) ∨ (chan.state ≠ .stale ∧ chan.state ≠ .disconnected ∧
        (chan.handle message).state ≠ .stale ∧
        ((chan.handle message).state = .disconnected → message.ends = true)) := by
  cases message with
  | connRsp target status remote maxMsgSize maxMsgCnt =>
    simp only [LinuxChan.handle, LinuxChan.connRsp]
    split
    · rename_i connecting
      right
      split
      · simp [connecting]
      · rename_i failed
        simp [connecting, Message.ends, failed]
    · exact .inl rfl
  | discReq target =>
    simp only [LinuxChan.handle, LinuxChan.discReq]
    split
    · rename_i connected
      right
      rcases connected with is | is
      · simp [is, Message.ends]
      · simp [is, Message.ends]
    · exact .inl rfl
  | data dst payload =>
  simp only [LinuxChan.handle, LinuxChan.handleMsg]
  left
  split <;> rfl

theorem Counted.handle (counted : Counted session) (owned : Owned session) {callback : Callback}
    (is : session.callback = some callback) : Counted (session.handle callback) := by
  obtain ⟨same, below⟩ := owned.called is
  rw [← same] at below
  have state := handle_state (session.chans callback.chan) callback.message
  have phase := (handle_addr (session.chans callback.chan) callback.message).2
  have other : ∀ {value}, value ≠ callback.chan → (session.handle callback).chans value =
      session.chans value := fun differs => update_of_ne differs _ _
  have own : (session.handle callback).chans callback.chan =
      (session.chans callback.chan).handle callback.message := update_self ..
  have less : ∀ id, (session.handle callback).connections id +
      callback.message.ending callback.owner id = session.connections id := by
    intro id
    have calling : session.calling id = callback.message.ending callback.owner id := by
      simp [Session.calling, is]
    have called : (session.handle callback).calling id = 0 := rfl
    unfold Session.connections
    rw [calling, called, add_zero]
    rfl
  have kept : ∀ {id}, (session.handle callback).Parts id → (session.chans id).state = .stale :=
    fun parting => counted.parts _ parting
  refine ⟨fun id => ?_, fun id free => ?_, fun id known stale open' => ?_, counted.final,
    fun id parting => ?_, fun id known => ?_⟩
  · have most := counted.most id
    have sum := less id
    omega
  · by_cases mine : id = callback.chan
    · rw [mine] at free ⊢
      have sum := less callback.chan
      have most := counted.most callback.chan
      rcases state with unchanged | moved
      · rw [own, unchanged] at free
        have zero := counted.resting callback.chan free
        omega
      rcases free with above | disconnected
      · exact absurd below (Nat.not_lt.mpr above)
      rw [own] at disconnected
      have one : callback.message.ending callback.owner callback.chan = 1 := by
        simp [Message.ending, moved.2.2.2 disconnected, same]
      omega
    · rw [other mine] at free
      have zero := counted.resting id free
      have sum := less id
      omega
  · have before : (session.chans id).state = .stale := by
      by_cases mine : id = callback.chan
      · rw [mine, own] at stale
        rw [mine]
        rcases state with unchanged | moved
        · exact unchanged.symm.trans stale
        · exact absurd stale moved.2.2.1
      · rw [other mine] at stale
        exact stale
    exact counted.ended id known before open'
  · have before := kept parting
    by_cases mine : id = callback.chan
    · rw [mine] at before ⊢
      rw [own]
      rcases state with unchanged | moved
      · exact unchanged.trans before
      · exact absurd before moved.1
    · rw [other mine]
      exact before
  · by_cases mine : id = callback.chan
    · rw [mine, own, phase, ← counted.stopped callback.chan below]
      rcases state with unchanged | moved
      · rw [unchanged]
      · exact ⟨fun stale => absurd stale moved.2.2.1, fun stale => absurd stale moved.1⟩
    · rw [other mine]
      exact counted.stopped id known

theorem Counted.rxStep (counted : Counted session) (owned : Owned session) {rx : Rx}
    (step : RxStep session.core session.rx label core rx) (silent : ∀ request, label ≠ .receive request)
    (messages : List (Message × Nat))
    (less : ∀ id, rx.asking session.serving id + endpoints core.dev.epts session.creator id +
        messages.countP (fun entry => entry.1.ends && entry.2 == id) ≤
      session.rx.asking session.serving id + endpoints session.core.dev.epts session.creator id) :
    Counted { session with core := core, rx := rx, toLinux := session.toLinux ++ messages } := by
  refine counted.less rfl rfl rfl (fun id => ?_) fun id gone unopened => ⟨?_, ?_⟩
  · have sum := less id
    have ending : Session.ending { session with core := core, rx := rx, toLinux := session.toLinux ++ messages } id =
        session.ending id + messages.countP (fun entry => entry.1.ends && entry.2 == id) := by
      simp only [Session.ending, countP_append]
    unfold Session.connections
    show session.queued id + rx.asking session.serving id + endpoints core.dev.epts session.creator id +
      session.tx.parting session.creator id + _ + session.calling id ≤ _
    omega
  · refine endpoints_eq_zero_iff.mpr fun slot chan is => ?_
    rcases rxStep_epts step is with kept | own
    · rw [kept] at is
      exact endpoints_eq_zero_iff.mp gone slot chan is
    · obtain ⟨remote, opened, _⟩ := own
      have created := owned.opened opened
      exact fun same => unopened remote chan opened (created.symm.trans same)
  · intro remote chan is
    obtain ⟨_, request, received⟩ := rxStep_opened step is
    exact absurd received (silent request)

theorem Counted.txStep (counted : Counted session) {tx : Tx} (step : TxStep session.core session.tx label core tx)
    (messages : List (Message × Nat))
    (less : ∀ id, endpoints core.dev.epts session.creator id + tx.parting session.creator id +
        messages.countP (fun entry => entry.1.ends && entry.2 == id) ≤
      endpoints session.core.dev.epts session.creator id + session.tx.parting session.creator id) :
    Counted { session with core := core, tx := tx, toLinux := session.toLinux ++ messages } := by
  refine counted.less rfl rfl rfl (fun id => ?_) fun id gone unopened => ⟨?_, unopened⟩
  · have sum := less id
    have ending : Session.ending { session with core := core, tx := tx, toLinux := session.toLinux ++ messages } id =
        session.ending id + messages.countP (fun entry => entry.1.ends && entry.2 == id) := by
      simp only [Session.ending, countP_append]
    unfold Session.connections
    show session.queued id + session.rx.asking session.serving id +
      endpoints core.dev.epts session.creator id + tx.parting session.creator id + _ +
      session.calling id ≤ _
    omega
  · refine endpoints_eq_zero_iff.mpr fun slot chan is => ?_
    have same := txStep_epts step is
    rw [same] at is
    exact endpoints_eq_zero_iff.mp gone slot chan is

theorem findEpt_eq_none {dev : Dev} {remote target : UInt32} (missing : dev.findEpt remote target = none) (slot : Slot)
    (used : dev.inuse slot = true) : (dev.epts slot).remote ≠ remote := by
  have search : dev.searchEpt remote = none := by
    unfold Dev.findEpt at missing
    split at missing
    · split at missing
      · contradiction
      · exact missing
    · exact missing
  have holds := find?_eq_none.mp search slot (mem_finRange slot)
  simpa [used] using holds

theorem discReq_endpoints (owned : Owned session) {id : Nat} {target : UInt32} (leaves : session.Leaves id)
    (most : endpoints session.core.dev.epts session.creator id ≤ 1) :
    endpoints (session.core.discReq (session.given id) target).dev.epts session.creator id = 0 := by
  have wired := owned.sound.wired
  unfold Core.discReq
  split
  · rename_i slot found
    obtain ⟨used, remote⟩ := findEpt_eq_some found
    obtain ⟨chan, is⟩ := wired.used used
    have own : session.creator chan = id := owned.alone (.inl (.endpoint is rfl)) (.inl leaves)
        ((owned.endpoint is).2.symm.trans remote)
    rw [is]
    have closed : endpoints (session.core.close slot chan).dev.epts session.creator id + _ = _ := endpoints_close is
    rw [if_pos own] at closed
    dsimp only
    omega
  · rename_i missing
    refine endpoints_eq_zero_iff.mpr fun slot chan is same => ?_
    have used : session.core.dev.inuse slot = true := (wired.inuse slot).mpr (by rw [is]; exact nofun)
    have remote := (owned.endpoint is).2
    rw [same] at remote
    exact findEpt_eq_none missing slot used remote

theorem rxStep_connects {remote : UInt32} {chan : Chan} (step : RxStep core before (.receive request) next after)
    (is : after = .opened remote chan) : request.connects = true := by
  cases step with
  | connReq => rfl
  | _ => contradiction

theorem Counted.receive (counted : Counted session) (owned : Owned session) {owner : Nat} {rest : List (Request × Nat)}
    {rx : Rx} (head : session.toSecure = (request, owner) :: rest)
    (step : RxStep session.core session.rx (.receive request) core rx) :
    Counted { session with
      toSecure := rest
      core := core
      rx := rx
      creator := update session.creator session.core.opened owner
      serving := owner } := by
  have idle := rxStep_receives step
  have wired := owned.sound.wired
  have creator : ∀ {chan}, chan < session.core.opened →
      update session.creator session.core.opened owner chan = session.creator chan :=
    fun known => update_of_ne (ne_of_lt known) _ _
  have created : ∀ id, endpoints core.dev.epts (update session.creator session.core.opened owner) id =
      endpoints core.dev.epts session.creator id := by
    intro id
    refine endpoints_congr fun slot chan is => creator ?_
    have same := rxStep_receive_epts step is
    rw [same] at is
    exact wired.known is
  have parting : ∀ id, session.tx.parting (update session.creator session.core.opened owner) id =
      session.tx.parting session.creator id := by
    intro id
    cases is : session.tx with
    | disconnecting chan addr remote =>
      have carries : session.tx.carries = some (chan, remote) := by rw [is]; rfl
      have known := (owned.carried carries).1
      simp only [Tx.parting, creator known]
    | _ => rfl
  have queued : ∀ id, session.queued id = rest.countP (fun entry => entry.1.connects && entry.2 == id) +
        if request.connects ∧ owner = id then 1 else 0 := by
    intro id
    simp [Session.queued, head, countP_cons]
  have less : ∀ id, Session.connections { session with
      toSecure := rest
      core := core
      rx := rx
      creator := update session.creator session.core.opened owner
      serving := owner } id ≤ session.connections id := by
    intro id
    have balance := receive_balance step wired session.creator owner id
    have quiet : session.rx.asking session.serving id = 0 := by simp [idle, Rx.asking, Rx.asks]
    unfold Session.connections
    rw [queued id, quiet]
    show rest.countP (fun entry => entry.1.connects && entry.2 == id) + rx.asking owner id +
      endpoints core.dev.epts (update session.creator session.core.opened owner) id +
      session.tx.parting (update session.creator session.core.opened owner) id +
      session.ending id + session.calling id ≤ _
    rw [created id, parting id]
    omega
  have tail : ∀ {id}, Session.Parts { session with
      toSecure := rest
      core := core
      rx := rx
      creator := update session.creator session.core.opened owner
      serving := owner } id → session.Parts id := by
    rintro id ⟨src, target, mem⟩
    exact ⟨src, target, by rw [head]; exact mem_cons_of_mem _ mem⟩
  have final : ∀ id, (∀ src target, (request, owner) = (.discReq src target, id) →
      ∀ other ∈ rest, other.2 ≠ id) ∧ Final id rest := by
    intro id
    have final := counted.final id
    rw [head] at final
    exact final
  refine ⟨fun id => le_trans (less id) (counted.most id), fun id free => ?_,
    fun id below stale open' => ?_, fun id => (final id).2, fun id parting =>
    counted.parts id (tail parting), counted.stopped⟩
  · exact Nat.eq_zero_of_le_zero (le_trans (less id) (le_of_eq (counted.resting id free)))
  show rest.countP (fun entry => entry.1.connects && entry.2 == id) = 0 ∧
    endpoints core.dev.epts (update session.creator session.core.opened owner) id = 0 ∧
    ∀ remote chan, rx = .opened remote chan → owner ≠ id
  rw [created id]
  by_cases parts : session.Parts id
  · -- the request at hand is the one to disconnect, and the last of its channel
    obtain ⟨src, target, mem⟩ := parts
    have is : (request, owner) = (.discReq src target, id) := by
      rw [head] at mem
      rcases mem_cons.mp mem with same | later
      · exact same.symm
      · exact absurd ⟨src, target, later⟩ open'
    have last := (final id).1 src target is
    obtain ⟨rfl, rfl⟩ := Prod.mk.inj is
    have sent := owned.sent (by rw [head]; exact mem_cons_self)
    obtain rfl : src = session.given owner := sent.2
    have most : endpoints session.core.dev.epts session.creator owner ≤ 1 := by
      have most := counted.most owner
      unfold Session.connections at most
      omega
    refine ⟨?_, ?_, ?_⟩
    · refine countP_eq_zero.mpr fun entry mem => ?_
      simp [last entry mem]
    · have device : core = session.core.discReq (session.given owner) target := by
        generalize session.rx = before at step
        cases step
        rfl
      rw [device]
      exact discReq_endpoints owned (.request (by rw [head]; exact mem_cons_self)) most
    · intro remote chan opened
      nomatch rxStep_connects step opened
  · obtain ⟨none, gone, _⟩ := counted.ended id below stale parts
    rw [queued id] at none
    refine ⟨by omega, endpoints_eq_zero_iff.mpr fun slot chan is => ?_, ?_⟩
    · have same := rxStep_receive_epts step is
      rw [same] at is
      exact endpoints_eq_zero_iff.mp gone slot chan is
    · intro remote chan opened same
      rw [if_pos ⟨rxStep_connects step opened, same⟩] at none
      omega

theorem Counted.step {after : Session} (counted : Counted session) (owned : Owned session)
    (step : Session.Step true session after) : Counted after := by
  cases step with
  | create => exact counted.create owned _
  | connect below live state => exact counted.connect below live state _
  | noReply => exact counted.setChan rfl .rfl
  | write below live state => exact counted.write state ..
  | read => exact counted.setChan rfl .rfl
  | dnShutdown below live =>
    refine counted.setChan rfl ?_
    rw [live]
    simp
  | shutdown below phase => exact counted.shutdown below phase
  | noBuffer allowed => contradiction
  | destroy below phase => exact counted.destroy phase
  | fetch idle head =>
    refine counted.take idle head fun call is => ?_
    cases is
    exact ⟨rfl, rfl⟩
  | drop idle head =>
    refine counted.take idle head fun call is => ?_
    rw [idle] at is
    contradiction
  | handle is => exact counted.handle owned is
  | discard => exact counted.discard
  | receive head step => exact counted.receive owned head step
  | rxInternal step =>
    have next := counted.rxStep owned step (fun _ => nofun) [] fun id => by
      rw [countP_nil, add_zero]
      exact (rx_balance step (fun _ _ => owned.opened) owned.sound.wired id).1 rfl
    rw [append_nil] at next
    exact next
  | rxEmit step =>
    refine counted.rxStep owned step (fun _ => nofun) [_] fun id => ?_
    have balance := (rx_balance step (fun _ _ => owned.opened) owned.sound.wired id).2 _ rfl
    simpa [countP_singleton, Message.ending] using balance
  | txInternal step =>
    have next := counted.txStep step [] fun id => by
      rw [countP_nil, add_zero]
      exact (tx_balance step owned.sound.wired session.creator id).1 rfl
    rw [append_nil] at next
    exact next
  | txEmit step =>
  refine counted.txStep step [_] fun id => ?_
  have balance := (tx_balance step owned.sound.wired session.creator id).2 _ _ rfl
  simpa [countP_singleton, Message.ending] using balance

end Counted

/-!
## Runs
-/

theorem Session.Reached.kept {session : Session} (reached : session.Reached true) :
    Owned session ∧ Counted session := by
  induction reached with
  | refl => exact ⟨Owned.start, Counted.start⟩
  | tail _ step kept => exact ⟨kept.1.step step, kept.2.step kept.1 step⟩

/-- In a careful run, what changes a channel goes back to a request of its own, and
with the requests received nothing of a destroyed channel is in the device. -/
theorem sessions_isolated {session : Session} (reached : session.Reached true) :
    (∀ chan owner, (chan, owner) ∈ session.changes → chan = owner) ∧
      ∀ id < session.count, (session.chans id).phase = .destroyed → session.toSecure = [] →
        session.toLinux = [] → ∀ slot chan,
        (session.core.dev.epts slot).chan = some chan → session.creator chan ≠ id := by
  obtain ⟨owned, counted⟩ := reached.kept
  refine ⟨fun chan owner mem => owned.changes mem, fun id below destroyed drained _ slot chan is => ?_⟩
  have stale := (counted.stopped id below).mpr (.inr destroyed)
  have unparted : ¬session.Parts id := by
    rintro ⟨src, target, mem⟩
    rw [drained] at mem
    contradiction
  exact endpoints_eq_zero_iff.mp (counted.ended id below stale unparted).2.1 slot chan is

/-!
### An answer that comes too late
-/

def answering (core : Core) (rx : Rx) (tx : Tx) (messages : List (Message × Nat)) : Session where
  chans := update (update (fun _ => .created 0) 0 (.created 1024)) 0
    { LinuxChan.created 1024 with state := .connecting }
  count := 1
  addrs := update (fun _ => none) 1024 (some 0)
  callback := none
  toSecure := []
  toLinux := messages
  core := core
  rx := rx
  tx := tx
  creator := update (fun _ => 0) 0 0
  serving := 0
  given := update (fun _ => 0) 0 1024
  changes := []

def placedDev : Dev :=
  { Dev.start with
    inuse := update Dev.start.inuse 0 true
    epts := update Dev.start.epts 0 ⟨1024, some 0⟩ }

def taggedDev : Dev := { placedDev with cookie := update (fun _ => none) 0 (some 0) }

def listedDev : Dev := { taggedDev with handleList := [0] }

theorem clear_start (addr : UInt32) : Session.start.Clear addr := by
  intro owner leaves
  cases leaves with
  | request mem | asked is | endpoint is | carried is | message mem => contradiction

theorem opened_reached (careful : Bool) :
    (answering ⟨.start, 1, [], []⟩ (.opened 1024 0) .waiting []).Reached careful := by
  have created : (Session.start.create 1024).Reached careful := Relation.ReflTransGen.refl.tail
      (.create (by decide) (by decide) rfl fun _ => clear_start 1024)
  have asked := created.tail (@Session.Step.connect careful _ 0 (by decide) rfl rfl)
  have request : RxStep ⟨.start, 0, [], []⟩ .idle (.receive (.connReq 1024)) _ _ := .connReq
  exact asked.tail (.receive rfl request)

theorem placed_reached (careful : Bool) :
    (answering ⟨placedDev, 1, [], []⟩ (.placed (slotToAddr 0) 0) .waiting []).Reached careful := by
  have place : RxStep ⟨.start, 1, [], []⟩ (.opened 1024 0) .internal _ _ := .place
  have is : Core.place ⟨.start, 1, [], []⟩ 1024 0 = (⟨placedDev, 1, [], []⟩, .placed (slotToAddr 0) 0) := by
    simp [Core.place, Dev.allocLocalAddr, ffz_start, slotToAddr_ne_zero, placedDev]
  exact (opened_reached careful).tail (.rxInternal place)

theorem listed_reached (careful : Bool) : (answering ⟨listedDev, 1, [], []⟩ .idle .waiting []).Reached careful := by
  have tag : RxStep ⟨placedDev, 1, [], []⟩ (.placed (slotToAddr 0) 0) .internal _ _ := .tag
  have is : Core.tag ⟨placedDev, 1, [], []⟩ (slotToAddr 0) 0 = ⟨taggedDev, 1, [], []⟩ := by
    have used : placedDev.inuse 0 = true := rfl
    simp [Core.tag, lookupEpt_slotToAddr used, taggedDev]
    rfl
  have tagged := (placed_reached careful).tail (.rxInternal tag)
  exact tagged.tail (.rxInternal .list)

theorem answered_reached (careful : Bool) : (answering ⟨listedDev, 1, [], []⟩ .idle .waiting
      [(.connRsp 1024 0 (slotToAddr 0) ipcChanMaxBufSize 1, 0)]).Reached careful := by
  have wake : TxStep ⟨listedDev, 1, [], []⟩ .waiting .internal _ (.woken 0 .ready) := .wake mem_cons_self
  have woken := (listed_reached careful).tail (.txInternal wake)
  have ready : (answering ⟨listedDev, 1, [], []⟩ .idle
      (.responding 0 (slotToAddr 0) 1024) []).Reached careful := woken.tail (.txInternal .ready)
  have respond : TxStep ⟨listedDev, 1, [], []⟩ (.responding 0 (slotToAddr 0) 1024)
      (.emit (some 0) (.connRsp 1024 0 (slotToAddr 0) ipcChanMaxBufSize 1)) _ _ := .respond
  exact ready.tail (@Session.Step.txEmit careful _ 0 _ _ _ respond)

/-- The channel that asked gets the answer. -/
theorem connected_isolated : ∃ session : Session, session.Reached true ∧ session.changes = [(0, 0)] ∧
    ∀ chan owner, (chan, owner) ∈ session.changes → chan = owner := by
  have fetched := (answered_reached true).tail (.fetch rfl rfl rfl)
  have handled := fetched.tail (.handle rfl)
  exact ⟨_, handled, rfl, (sessions_isolated handled).1⟩

/-- The channel that asked is closed before the answer comes, and the next one gets
its address: it is connected by the answer to the other. -/
theorem session_crossed : ∃ session : Session, session.Reached false ∧
    (1, 0) ∈ session.changes ∧ (session.chans 1).state = .connected := by
  have shut := (answered_reached false).tail (@Session.Step.dnShutdown false _ 0 (by decide) rfl)
  have stopped := shut.tail (@Session.Step.shutdown false _ 0 (by decide) rfl)
  have destroyed := stopped.tail (@Session.Step.destroy false _ 0 (by decide) rfl)
  have created := destroyed.tail (@Session.Step.create false _ 1024 (by decide) (by decide) rfl nofun)
  have asked := created.tail (@Session.Step.connect false _ 1 (by decide) rfl rfl)
  have fetched := asked.tail (.fetch rfl rfl rfl)
  have handled := fetched.tail (.handle rfl)
  exact ⟨_, handled, mem_cons_self, rfl⟩

end Trusty.Tipc
