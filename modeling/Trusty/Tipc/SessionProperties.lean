import Trusty.Tipc.DeviceProperties
import Trusty.Tipc.Session

/-!
# Sessions stay apart

In a careful run a message changes only the channel that it goes back to, and
nothing of a destroyed channel stays in the secure device.
-/

namespace Trusty.Tipc

open List

open Function (update update_self update_of_ne)

variable {slot : Slot}

theorem close_epts {core : Core} {other : Slot} {chan value : Chan}
    (is : ((core.close slot chan).dev.epts other).chan = some value) :
    other ≠ slot ∧ (core.close slot chan).dev.epts other = core.dev.epts other := by
  simp only [Core.close, freeLocalAddr_slotToAddr, Dev.detach] at is ⊢
  by_cases same : other = slot
  · rw [same, update_self] at is
    contradiction
  · rw [update_of_ne same]
    exact ⟨same, rfl⟩

variable {core next : Core} {label : Label} {before after : Rx} {chan : Chan}

/-- The receiving thread leaves an endpoint as it is, closes it, or has just put
its own channel there. -/
theorem rxStep_epts (step : RxStep core before label next after) (is : (next.dev.epts slot).chan = some chan) :
    next.dev.epts slot = core.dev.epts slot ∨
      ∃ remote, before = .opened remote chan ∧ next.dev.epts slot = ⟨remote, some chan⟩ := by
  cases step with
  | @place remote value =>
    unfold Core.place Dev.allocLocalAddr at is ⊢
    cases found : core.dev.bitmapFfz with
    | none =>
      left
      simp
    | some free =>
    simp only [found, slotToAddr_ne_zero, if_false] at is ⊢
    by_cases same : slot = free
    · rw [same, update_self] at is ⊢
      cases is
      exact .inr ⟨remote, rfl, rfl⟩
    · rw [update_of_ne same]
      exact .inl rfl
  | discReq =>
    unfold Core.discReq at is ⊢
    split at is
    · rename_i other _
      split at is
      · exact .inl (close_epts is).2
      simp only [freeLocalAddr_slotToAddr] at is ⊢
      by_cases same : slot = other
      · rw [same, update_self] at is
        contradiction
      · rw [update_of_ne same]
        exact .inl rfl
    · exact .inl rfl
  | chanMsg =>
    left
    unfold Core.chanMsg
    split
    · split
      · split <;> rfl
      · rfl
    · rfl
  | _ => exact .inl rfl

theorem txStep_epts {before after : Tx} (step : TxStep core before label next after)
    (is : (next.dev.epts slot).chan = some chan) : next.dev.epts slot = core.dev.epts slot := by
  cases step with
  | hup =>
    unfold Core.hup at is ⊢
    split at is
    · dsimp only at is ⊢
      exact (close_epts is).2
    · rfl
  | _ => rfl

variable {message : Message}

theorem rxStep_emits (step : RxStep core before (.emit none message) next after) :
    before.asks = some message.target := by
  cases step with
  | refuse => rfl

variable {remote : UInt32}

theorem rxStep_asks (step : RxStep core before label next after) (asks : after.asks = some remote) :
    before.asks = some remote ∨ ∃ request : Request, label = .receive request ∧ remote = request.src := by
  cases step with
  | connReq | noPort => exact .inr ⟨_, rfl, (Option.some.inj asks).symm⟩
  | place =>
    left
    unfold Core.place at asks
    dsimp only at asks
    split at asks
    · exact asks
    · contradiction
  | _ => contradiction

theorem rxStep_opened (step : RxStep core before label next after) (is : after = .opened remote chan) :
    chan = core.opened ∧ ∃ request, label = .receive request := by
  cases step with
  | connReq =>
    obtain ⟨_, rfl⟩ := Rx.opened.inj is
    exact ⟨rfl, _, rfl⟩
  | place =>
    unfold Core.place at is
    dsimp only at is
    split at is <;> contradiction
  | _ => contradiction

variable {request : Request}

theorem rxStep_receives (step : RxStep core before (.receive request) next after) : before = .idle := by
  cases step <;> rfl

theorem txStep_emits {before after : Tx} (step : TxStep core before (.emit (some chan) message) next after) :
    before.carries = some (chan, message.target) := by
  cases step <;> rfl

section

variable {before after : Tx} (step : TxStep core before label next after)
include step

theorem txStep_carries (carries : after.carries = some (chan, remote)) : before.carries = some (chan, remote) ∨
      ∃ slot, core.dev.cookie chan = some slot ∧ remote = (core.dev.epts slot).remote := by
  cases step with
  | ready | msg | hup =>
    simp only [Core.ready, Core.txMsg, Core.hup] at carries
    split at carries
    · rename_i slot cookie
      obtain ⟨rfl, rfl⟩ := Prod.mk.inj (Option.some.inj carries)
      exact .inr ⟨slot, cookie, rfl⟩
    · contradiction
  | forward => exact .inl carries
  | _ => contradiction

theorem txStep_opened : next.opened = core.opened := by
  cases step with
  | hup =>
    unfold Core.hup
    split
    · simp only [Core.close]
    · rfl
  | _ => rfl

end

theorem opened_le (step : RxStep core before label next after) : core.opened ≤ next.opened := by
  cases step with
  | connReq => exact Nat.le_succ _
  | place =>
    unfold Core.place
    dsimp only
    split <;> exact le_rfl
  | discReq =>
    unfold Core.discReq
    split
    · split
      · simp only [Core.close, le_refl]
      · simp only [le_refl]
    · exact le_rfl
  | chanMsg =>
    unfold Core.chanMsg
    split
    · split
      · split <;> exact le_rfl
      · exact le_rfl
    · exact le_rfl
  | _ => exact le_rfl

variable {owner : Nat}

theorem Session.Leaves.mono {session after : Session} (leaves : after.Leaves owner)
    (requests : ∀ {entry}, entry ∈ after.toSecure → entry ∈ session.toSecure)
    (messages : ∀ {entry}, entry ∈ after.toLinux → entry ∈ session.toLinux) (rx : after.rx = session.rx)
    (serving : after.serving = session.serving) (core : after.core = session.core) (tx : after.tx = session.tx)
    (creator : after.creator = session.creator) : session.Leaves owner := by
  cases leaves with
  | request mem => exact .request (requests mem)
  | asked is own => exact .asked (rx ▸ is) (serving ▸ own)
  | endpoint is own => exact .endpoint (core ▸ is) (creator ▸ own)
  | carried is own => exact .carried (tx ▸ is) (creator ▸ own)
  | message mem => exact .message (messages mem)

def Session.Present (session : Session) (owner : Nat) : Prop :=
  session.Leaves owner ∨ session.addrs (session.given owner) = some owner

structure Owned (session : Session) : Prop where
  sound : Sound session.core (some session.rx) (some session.tx)
  sent : ∀ {request owner}, (request, owner) ∈ session.toSecure →
    owner < session.count ∧ request.src = session.given owner
  asked : ∀ {remote}, session.rx.asks = some remote →
    session.serving < session.count ∧ remote = session.given session.serving
  opened : ∀ {remote chan}, session.rx = .opened remote chan →
    session.creator chan = session.serving
  endpoint : ∀ {slot chan}, (session.core.dev.epts slot).chan = some chan →
    session.creator chan < session.count ∧
      (session.core.dev.epts slot).remote = session.given (session.creator chan)
  carried : ∀ {chan remote}, session.tx.carries = some (chan, remote) →
    chan < session.core.opened ∧ session.creator chan < session.count ∧
      remote = session.given (session.creator chan)
  told : ∀ {message owner}, (message, owner) ∈ session.toLinux →
    owner < session.count ∧ message.target = session.given owner
  called : ∀ {callback}, session.callback = some callback →
    callback.chan = callback.owner ∧ callback.owner < session.count
  located : ∀ {addr id}, session.addrs addr = some id →
    id < session.count ∧ session.given id = addr
  placed : ∀ {id}, id < session.count → (session.chans id).phase ≠ .destroyed →
    session.addrs (session.given id) = some id ∧ (session.chans id).addr = session.given id
  alone : ∀ {first second}, session.Present first → session.Present second →
    session.given first = session.given second → first = second
  changes : ∀ {chan owner}, (chan, owner) ∈ session.changes → chan = owner

theorem Owned.start : Owned .start := by
  refine ⟨⟨⟨fun _ => ⟨nofun, fun some => absurd rfl some⟩, nofun, nofun, nofun, .nil, nofun, nofun,
    nofun, nofun, nofun⟩, nofun, fun _ _ => rfl, nofun⟩, nofun, nofun, nofun, nofun, nofun, nofun,
    nofun, nofun, nofun, ?_, nofun⟩
  intro first second present
  rcases present with leaves | located
  · cases leaves with
    | request mem | asked is | endpoint is | carried is | message mem => contradiction
  · contradiction

section Owned

variable {session : Session}

section

variable (owned : Owned session)

include owned

theorem Owned.bound (present : session.Present owner) : owner < session.count := by
  rcases present with leaves | located
  · cases leaves with
    | request mem => exact (owned.sent mem).1
    | asked is own => exact own ▸ (owned.asked is).1
    | endpoint is own => exact own ▸ (owned.endpoint is).1
    | carried is own => exact own ▸ (owned.carried is).2.1
    | message mem => exact (owned.told mem).1
  · exact (owned.located located).1

theorem Owned.setChan {id : Nat} {chan : LinuxChan} (addr : chan.addr = (session.chans id).addr)
    (phase : chan.phase ≠ .destroyed → (session.chans id).phase ≠ .destroyed) : Owned (session.setChan id chan) := by
  refine { owned with placed := ?_, alone := ?_ }
  · intro other below kept
    dsimp only [Session.setChan] at kept ⊢
    by_cases same : other = id
    · rw [same, update_self] at kept ⊢
      rw [addr]
      exact owned.placed (same ▸ below) (phase kept)
    · rw [update_of_ne same] at kept ⊢
      exact owned.placed below kept
  · intro first second left right
    have mono : ∀ {owner}, (session.setChan id chan).Present owner → session.Present owner := by
      intro owner present
      exact present.imp_left (·.mono (fun mem => mem) (fun mem => mem) rfl rfl rfl rfl rfl)
    exact owned.alone (mono left) (mono right)

theorem Owned.send {id : Nat} (below : id < session.count) (kept : (session.chans id).phase ≠ .destroyed)
    (src : request.src = (session.chans id).addr) : Owned (session.send id request) := by
  obtain ⟨located, addr⟩ := owned.placed below kept
  refine { owned with sent := ?_, alone := ?_ }
  · intro other owner mem
    rcases mem_append.mp mem with before | last
    · exact owned.sent before
    · obtain ⟨rfl, rfl⟩ := Prod.mk.inj (mem_singleton.mp last)
      exact ⟨below, src.trans addr⟩
  intro first second left right
  have mono : ∀ {owner}, (session.send id request).Present owner → session.Present owner := by
    intro owner present
    cases present with
    | inr located => exact .inr located
    | inl leaves =>
    cases leaves with
    | request mem =>
      rcases mem_append.mp mem with before | last
      · exact .inl (.request before)
      · obtain ⟨_, rfl⟩ := Prod.mk.inj (mem_singleton.mp last)
        exact .inr located
    | asked is own => exact .inl (.asked is own)
    | endpoint is own => exact .inl (.endpoint is own)
    | carried is own => exact .inl (.carried is own)
    | message mem => exact .inl (.message mem)
  exact owned.alone (mono left) (mono right)

theorem Owned.create {addr : UInt32} (free : session.addrs addr = none) (clear : session.Clear addr) :
    Owned (session.create addr) := by
  have given : ∀ {owner}, owner < session.count → update session.given session.count addr owner = session.given owner :=
    fun below => update_of_ne (ne_of_lt below) _ _
  have later : ∀ {owner}, owner < session.count → owner < session.count + 1 := Nat.lt_succ_of_lt
  refine ⟨owned.sound, ?_, ?_, owned.opened, ?_, ?_, ?_, ?_, ?_, ?_, ?_, owned.changes⟩ <;> dsimp only [Session.create]
  · intro request owner mem
    obtain ⟨below, src⟩ := owned.sent mem
    exact ⟨later below, by rw [given below]; exact src⟩
  · intro remote asks
    obtain ⟨below, src⟩ := owned.asked asks
    exact ⟨later below, by rw [given below]; exact src⟩
  · intro slot chan is
    obtain ⟨below, src⟩ := owned.endpoint is
    exact ⟨later below, by rw [given below]; exact src⟩
  · intro chan remote carries
    obtain ⟨known, below, src⟩ := owned.carried carries
    exact ⟨known, later below, by rw [given below]; exact src⟩
  · intro message owner mem
    obtain ⟨below, target⟩ := owned.told mem
    exact ⟨later below, by rw [given below]; exact target⟩
  · intro callback is
    obtain ⟨own, below⟩ := owned.called is
    exact ⟨own, later below⟩
  · intro other id located
    by_cases same : other = addr
    · rw [same, update_self] at located
      cases located
      exact ⟨Nat.lt_succ_self _, by rw [update_self]; exact same.symm⟩
    · rw [update_of_ne same] at located
      obtain ⟨below, is⟩ := owned.located located
      exact ⟨later below, by rw [given below]; exact is⟩
  · intro id below kept
    by_cases new : id = session.count
    · rw [new, update_self, update_self, update_self]
      exact ⟨rfl, rfl⟩
    have known : id < session.count := by omega
    rw [update_of_ne new] at kept
    obtain ⟨located, is⟩ := owned.placed known kept
    have differs : session.given id ≠ addr := by
      intro same
      rw [same, free] at located
      contradiction
    rw [given known, update_of_ne new, update_of_ne differs]
    exact ⟨located, is⟩
  · -- nothing that is present has the address of the new channel
    have before : ∀ {owner}, (session.create addr).Present owner →
        owner = session.count ∨ (session.Present owner ∧ session.given owner ≠ addr) := by
      intro owner present
      by_cases new : owner = session.count
      · exact .inl new
      right
      rcases present with leaves | located
      · have kept : session.Leaves owner := leaves.mono (fun mem => mem) (fun mem => mem) rfl rfl rfl rfl rfl
        exact ⟨.inl kept, clear owner kept⟩
      dsimp only [Session.create] at located
      rw [update_of_ne new] at located
      by_cases same : session.given owner = addr
      · rw [same, update_self] at located
        exact absurd (Option.some.inj located).symm new
      · rw [update_of_ne same] at located
        exact ⟨.inr located, same⟩
    intro first second left right equal
    rcases before left with new | old
    · rcases before right with also | old
      · exact new.trans also.symm
      · rw [new, update_self, given (owned.bound old.1)] at equal
        exact absurd equal.symm old.2
    rw [given (owned.bound old.1)] at equal
    rcases before right with new | also
    · rw [new, update_self] at equal
      exact absurd equal old.2
    · rw [given (owned.bound also.1)] at equal
      exact owned.alone old.1 also.1 equal

theorem Owned.destroy {id : Nat} (below : id < session.count)
    (kept : (session.chans id).phase ≠ .destroyed) : Owned (session.destroy id) := by
  obtain ⟨located, addr⟩ := owned.placed below kept
  have stays : ∀ {other value}, update session.addrs (session.chans id).addr none other =
      some value → other ≠ (session.chans id).addr ∧ session.addrs other = some value := by
    intro other value holds
    by_cases same : other = (session.chans id).addr
    · rw [same, update_self] at holds
      contradiction
    · rw [update_of_ne same] at holds
      exact ⟨same, holds⟩
  refine { owned with located := ?_, placed := ?_, alone := ?_ } <;> dsimp only [Session.destroy]
  · exact fun located => owned.located (stays located).2
  · intro other known phase
    by_cases same : other = id
    · rw [same, update_self] at phase
      contradiction
    rw [update_of_ne same] at phase ⊢
    obtain ⟨is, own⟩ := owned.placed known phase
    have differs : session.given other ≠ (session.chans id).addr := by
      intro equal
      rw [equal, addr, located] at is
      exact same (Option.some.inj is).symm
    rw [update_of_ne differs]
    exact ⟨is, own⟩
  · intro first second left right
    have mono : ∀ {owner}, (session.destroy id).Present owner → session.Present owner := by
      intro owner present
      cases present with
      | inr located => exact .inr (stays located).2
      | inl leaves => exact .inl (leaves.mono (fun mem => mem) (fun mem => mem) rfl rfl rfl rfl rfl)
    exact owned.alone (mono left) (mono right)

theorem Owned.take {rest : List (Message × Nat)} (head : session.toLinux = (message, owner) :: rest)
    {callback : Option Callback}
    (found : ∀ call, callback = some call → call.owner = owner ∧ session.addrs message.target = some call.chan) :
    Owned { session with toLinux := rest, callback := callback } := by
  have told := owned.told (by rw [head]; exact mem_cons_self)
  have tail : ∀ {entry}, entry ∈ rest → entry ∈ session.toLinux := by
    intro entry mem
    rw [head]
    exact mem_cons_of_mem _ mem
  refine { owned with told := fun mem => owned.told (tail mem), called := ?_, alone := ?_ }
  · intro call is
    obtain ⟨own, located⟩ := found call is
    rw [own]
    refine ⟨?_, told.1⟩
    obtain ⟨_, addr⟩ := owned.located located
    rw [told.2] at located addr
    have leaves : session.Leaves owner := .message (by rw [head]; exact mem_cons_self)
    exact owned.alone (.inr (by rw [addr]; exact located)) (.inl leaves) addr
  · intro first second left right
    have mono : ∀ {owner}, Session.Present { session with toLinux := rest, callback := callback }
        owner → session.Present owner := by
      intro owner present
      exact present.imp_left (·.mono (fun mem => mem) tail rfl rfl rfl rfl rfl)
    exact owned.alone (mono left) (mono right)

end

theorem handle_addr (chan : LinuxChan) (message : Message) :
    (chan.handle message).addr = chan.addr ∧ (chan.handle message).phase = chan.phase := by
  cases message with
  | connRsp target status remote maxMsgSize maxMsgCnt =>
    simp only [LinuxChan.handle, LinuxChan.connRsp]
    split
    · split <;> exact ⟨rfl, rfl⟩
    · exact ⟨rfl, rfl⟩
  | discReq target =>
    simp only [LinuxChan.handle, LinuxChan.discReq]
    split <;> exact ⟨rfl, rfl⟩
  | data dst payload =>
  simp only [LinuxChan.handle, LinuxChan.handleMsg]
  split <;> exact ⟨rfl, rfl⟩

section

variable (owned : Owned session)

include owned

theorem Owned.called_off : Owned { session with callback := none } := by
  refine { owned with called := nofun, alone := ?_ }
  intro first second left right
  have mono : ∀ {owner}, Session.Present { session with callback := none } owner → session.Present owner := by
    intro owner present
    exact present.imp_left (·.mono (fun mem => mem) (fun mem => mem) rfl rfl rfl rfl rfl)
  exact owned.alone (mono left) (mono right)

theorem Owned.noted {chan : Nat} (own : chan = owner) :
    Owned { session with changes := (chan, owner) :: session.changes } := by
  refine { owned with alone := ?_, changes := ?_ }
  · intro first second left right
    have mono : ∀ {value}, Session.Present { session with changes := (chan, owner) :: session.changes } value →
        session.Present value := by
      intro value present
      exact present.imp_left (·.mono (fun mem => mem) (fun mem => mem) rfl rfl rfl rfl rfl)
    exact owned.alone (mono left) (mono right)
  · intro value other mem
    cases mem with
    | head => exact own
    | tail _ mem => exact owned.changes mem

theorem Owned.handle {callback : Callback} (is : session.callback = some callback) :
    Owned (session.handle callback) := by
  obtain ⟨own, _⟩ := owned.called is
  obtain ⟨addr, phase⟩ := handle_addr (session.chans callback.chan) callback.message
  have changed : Owned (session.setChan callback.chan _) := owned.setChan addr fun kept => phase ▸ kept
  have changed := changed.called_off
  unfold Session.handle
  dsimp only
  split
  · exact changed
  · exact changed.noted own

theorem Owned.tell (leaves : session.Leaves owner) (target : message.target = session.given owner) :
    Owned { session with toLinux := session.toLinux ++ [(message, owner)] } := by
  refine { owned with told := ?_, alone := ?_ }
  · intro other value mem
    rcases mem_append.mp mem with before | last
    · exact owned.told before
    · obtain ⟨rfl, rfl⟩ := Prod.mk.inj (mem_singleton.mp last)
      exact ⟨owned.bound (.inl leaves), target⟩
  intro first second left right
  have mono : ∀ {value}, Session.Present { session with toLinux := session.toLinux ++ [(message, owner)] } value →
      session.Present value := by
    intro value present
    cases present with
    | inr located => exact .inr located
    | inl kept =>
    cases kept with
    | request mem => exact .inl (.request mem)
    | asked is own => exact .inl (.asked is own)
    | endpoint is own => exact .inl (.endpoint is own)
    | carried is own => exact .inl (.carried is own)
    | message mem =>
    rcases mem_append.mp mem with before | last
    · exact .inl (.message before)
    · obtain ⟨_, rfl⟩ := Prod.mk.inj (mem_singleton.mp last)
      exact .inl leaves
  exact owned.alone (mono left) (mono right)

theorem Owned.rxStep {rx : Rx} (step : RxStep session.core session.rx label core rx)
    (silent : ∀ request, label ≠ .receive request) : Owned { session with core := core, rx := rx } := by
  have asks : ∀ {remote}, rx.asks = some remote → session.rx.asks = some remote := by
    intro remote asks
    rcases rxStep_asks step asks with before | received
    · exact before
    · obtain ⟨request, is, _⟩ := received
      exact absurd is (silent request)
  refine { owned with
    sound := owned.sound.rxStep step, asked := fun is => owned.asked (asks is), opened := ?_,
    endpoint := ?_, carried := ?_, alone := ?_ }
  · intro remote chan is
    obtain ⟨_, request, received⟩ := rxStep_opened step is
    exact absurd received (silent request)
  · intro slot chan is
    rcases rxStep_epts step is with kept | own
    · rw [kept] at is ⊢
      exact owned.endpoint is
    · obtain ⟨remote, opened, new⟩ := own
      rw [new, owned.opened opened]
      exact owned.asked (by rw [opened]; rfl)
  · intro chan remote carries
    obtain ⟨known, rest⟩ := owned.carried carries
    exact ⟨lt_of_lt_of_le known (opened_le step), rest⟩
  intro first second left right
  have mono : ∀ {owner}, Session.Present { session with core := core, rx := rx } owner → session.Present owner := by
    intro owner present
    cases present with
    | inr located => exact .inr located
    | inl leaves =>
    left
    cases leaves with
    | request mem => exact .request mem
    | asked is own => exact .asked (asks is) own
    | endpoint is own =>
      rcases rxStep_epts step is with kept | new
      · rw [kept] at is
        exact .endpoint is own
      · obtain ⟨remote, opened, _⟩ := new
        exact .asked (by rw [opened]; rfl) ((owned.opened opened).symm.trans own)
    | carried is own => exact .carried is own
    | message mem => exact .message mem
  exact owned.alone (mono left) (mono right)

theorem Owned.txStep {tx : Tx} (step : TxStep session.core session.tx label core tx) :
    Owned { session with core := core, tx := tx } := by
  have cookie : ∀ {chan slot}, session.core.dev.cookie chan = some slot →
      (session.core.dev.epts slot).chan = some chan := owned.sound.wired.cookie
  refine { owned with sound := owned.sound.txStep step, endpoint := ?_, carried := ?_, alone := ?_ }
  · intro slot chan is
    have same := txStep_epts step is
    rw [same] at is ⊢
    exact owned.endpoint is
  · intro chan remote carries
    rw [txStep_opened step]
    rcases txStep_carries step carries with before | taken
    · exact owned.carried before
    · obtain ⟨slot, is, rfl⟩ := taken
      exact ⟨owned.sound.wired.known (cookie is), owned.endpoint (cookie is)⟩
  intro first second left right
  have mono : ∀ {owner}, Session.Present { session with core := core, tx := tx } owner → session.Present owner := by
    intro owner present
    cases present with
    | inr located => exact .inr located
    | inl leaves =>
    left
    cases leaves with
    | request mem => exact .request mem
    | asked is own => exact .asked is own
    | endpoint is own =>
      rw [txStep_epts step is] at is
      exact .endpoint is own
    | carried is own =>
      rcases txStep_carries step is with before | taken
      · exact .carried before own
      · obtain ⟨slot, is, _⟩ := taken
        exact .endpoint (cookie is) own
    | message mem => exact .message mem
  exact owned.alone (mono left) (mono right)

end

theorem rxStep_receive_epts (step : RxStep core before (.receive request) next after)
    (is : (next.dev.epts slot).chan = some chan) : next.dev.epts slot = core.dev.epts slot := by
  rcases rxStep_epts step is with same | own
  · exact same
  · obtain ⟨remote, opened, _⟩ := own
    rw [rxStep_receives step] at opened
    contradiction

theorem Owned.receive (owned : Owned session) {rest : List (Request × Nat)} {rx : Rx}
    (head : session.toSecure = (request, owner) :: rest)
    (step : RxStep session.core session.rx (.receive request) core rx) :
    Owned { session with
      toSecure := rest
      core := core
      rx := rx
      creator := update session.creator session.core.opened owner
      serving := owner } := by
  have sent := owned.sent (by rw [head]; exact mem_cons_self)
  have tail : ∀ {entry}, entry ∈ rest → entry ∈ session.toSecure := by
    intro entry mem
    rw [head]
    exact mem_cons_of_mem _ mem
  have idle := rxStep_receives step
  have creator : ∀ {chan}, chan < session.core.opened →
      update session.creator session.core.opened owner chan = session.creator chan :=
    fun known => update_of_ne (ne_of_lt known) _ _
  refine ⟨owned.sound.rxStep step, fun mem => owned.sent (tail mem), ?_, ?_, ?_, ?_, owned.told,
    owned.called, owned.located, owned.placed, ?_, owned.changes⟩
  · intro remote asks
    rcases rxStep_asks step asks with before | received
    · rw [idle] at before
      contradiction
    · obtain ⟨other, same, src⟩ := received
      obtain rfl := Label.receive.inj same
      exact ⟨sent.1, src.trans sent.2⟩
  · intro remote chan is
    obtain ⟨rfl, _⟩ := rxStep_opened step is
    exact update_self ..
  · intro slot chan is
    have same := rxStep_receive_epts step is
    dsimp only at is ⊢
    rw [same] at is ⊢
    rw [creator (owned.sound.wired.known is)]
    exact owned.endpoint is
  · intro chan remote carries
    obtain ⟨known, below⟩ := owned.carried carries
    dsimp only
    rw [creator known]
    exact ⟨lt_of_lt_of_le known (opened_le step), below⟩
  intro first second left right
  have mono : ∀ {value}, Session.Present { session with
      toSecure := rest
      core := core
      rx := rx
      creator := update session.creator session.core.opened owner
      serving := owner } value → session.Present value := by
    intro value present
    cases present with
    | inr located => exact .inr located
    | inl leaves =>
    left
    cases leaves with
    | request mem => exact .request (tail mem)
    | asked is own =>
      obtain rfl := own
      exact .request (by rw [head]; exact mem_cons_self)
    | endpoint is own =>
      dsimp only at is own
      rw [rxStep_receive_epts step is] at is
      rw [creator (owned.sound.wired.known is)] at own
      exact .endpoint is own
    | carried is own =>
      dsimp only at is own
      rw [creator (owned.carried is).1] at own
      exact .carried is own
    | message mem => exact .message mem
  exact owned.alone (mono left) (mono right)

theorem Owned.step {after : Session} (owned : Owned session) (step : Session.Step true session after) :
    Owned after := by
  cases step with
  | create least most free clear => exact owned.create free (clear rfl)
  | @connect id below live state =>
    have kept : (session.chans id).phase ≠ .destroyed := by
      rw [live]
      exact nofun
    have changed : Owned (session.setChan id { session.chans id with state := .connecting }) :=
      owned.setChan rfl fun kept => kept
    refine changed.send below ?_ ?_
    · simp only [Session.setChan, update_self]
      exact kept
    · simp only [Session.setChan, update_self]
      rfl
  | noReply => exact owned.setChan rfl id
  | write below live state =>
    refine owned.send below ?_ rfl
    rw [live]
    exact nofun
  | read => exact owned.setChan rfl id
  | dnShutdown below live =>
    refine owned.setChan rfl fun _ => ?_
    rw [live]
    exact nofun
  | @shutdown id below phase =>
    have kept : (session.chans id).phase ≠ .destroyed := by
      rw [phase]
      exact nofun
    have changed : Owned (session.setChan id { session.chans id with state := .stale, phase := .stopped }) :=
      owned.setChan rfl fun _ => kept
    unfold Session.shutdown
    dsimp only
    split
    · refine changed.send below ?_ ?_
      · simp only [Session.setChan, update_self]
        exact nofun
      · simp only [Session.setChan, update_self]
        rfl
    · exact changed
  | noBuffer allowed => contradiction
  | destroy below phase =>
    refine owned.destroy below ?_
    rw [phase]
    exact nofun
  | fetch idle head found =>
    refine owned.take head fun call is => ?_
    cases is
    exact ⟨rfl, found⟩
  | drop idle head unknown => exact owned.take head fun call is => by rw [idle] at is; contradiction
  | handle is => exact owned.handle is
  | discard is => exact owned.called_off
  | receive head step => exact owned.receive head step
  | rxInternal step => exact owned.rxStep step fun _ => nofun
  | rxEmit step =>
    have asks := rxStep_emits step
    have told := owned.tell (.asked asks rfl) (owned.asked asks).2
    exact told.rxStep step fun _ => nofun
  | txInternal step => exact owned.txStep step
  | txEmit step =>
  have carries := txStep_emits step
  have told := owned.tell (.carried carries rfl) (owned.carried carries).2.2
  exact told.txStep step

end Owned

end Trusty.Tipc
