import Trusty.Ipc.World
import Trusty.Ipc.MsgQueueProperties
import Trusty.Ipc.AcceptProperties

/-!
# The invariant of a run

What callers hold, have closed and asked for agrees with the state of the
kernel, and each queue holds the messages of its pipe.
-/

namespace Trusty.Ipc

open IpcState

open Function (update update_self update_of_ne)

namespace World

structure Traced (world : World) : Prop where
  shut : ∀ chan data, world.kernel.chans chan = some data → world.shut chan = true →
    data.state = .disconnecting ∧ data.peer = none
  shutOld : ∀ chan, world.shut chan = true → chan < world.kernel.nextChan
  clients : ∀ chan data, world.kernel.chans chan = some data → data.server = false →
    ∃ uuid path, world.asked chan = some (uuid, path) ∧ data.uuid = some uuid ∧
      (data.path = none ∨ data.path = some path)
  granted : ∀ attachment ∈ world.kernel.attached, ∃ uuid path,
    world.asked attachment.client = some (uuid, path) ∧ attachment.Granted (some uuid) path
  logged : world.kernel.Logged
  pipes : ∀ chan data mq, world.kernel.chans chan = some data → data.msgQueue = some mq →
    mq.Refines (world.pipe chan)
  silent : ∀ chan, (world.kernel.nextChan ≤ chan ∨
    ∃ data, world.kernel.chans chan = some data ∧ data.msgQueue = none) → world.pipe chan = .empty

structure Ok (world : World) : Prop where
  resting : Resting world.portHeld world.kernel
  held : world.kernel.refs = world.held
  traced : world.Traced

theorem boot_resting : Resting boot.portHeld boot.kernel := by
  refine ⟨?_, ?_⟩
  · constructor
    · intro ref object
      cases ref <;> simp [boot, IpcState.holder, Tmp.rest]
    · rintro chan ⟨role, held⟩
      cases held
    all_goals simp [boot]
  · constructor <;> simp [boot]

theorem boot_ok : Ok .boot := by
  have logged : boot.kernel.Logged := ⟨nofun, List.nodup_nil⟩
  refine ⟨boot_resting, rfl, ⟨?_, ?_, ?_, ?_, logged, ?_, fun _ _ => rfl⟩⟩ <;> simp [boot]

theorem Traced.later {world next : World} (traced : world.Traced) (later : Later world.kernel next.kernel)
    (shut : next.shut = world.shut) (asked : next.asked = world.asked) (pipe : next.pipe = world.pipe)
    (attached : ∀ attachment ∈ next.kernel.attached, attachment ∈ world.kernel.attached ∨
      ∃ uuid path, world.asked attachment.client = some (uuid, path) ∧
        attachment.Granted (some uuid) path) (logged : world.kernel.Logged → next.kernel.Logged) : next.Traced := by
  constructor
  · intro chan nextData found closed
    rw [shut] at closed
    obtain ⟨data, before, onward⟩ := later.old chan nextData (traced.shutOld chan closed) found
    obtain ⟨disconnecting, alone⟩ := traced.shut chan data before closed
    exact ⟨onward.disconnecting disconnecting, onward.closed disconnecting alone⟩
  · intro chan closed
    rw [shut] at closed
    exact lt_of_lt_of_le (traced.shutOld chan closed) later.nextChan
  · intro chan nextData found client
    by_cases below : chan < world.kernel.nextChan
    · obtain ⟨data, before, onward⟩ := later.old chan nextData below found
      obtain ⟨uuid, path, known, sameUuid, samePath⟩ := traced.clients chan data before (onward.server ▸ client)
      refine ⟨uuid, path, asked ▸ known, onward.uuid.trans sameUuid, ?_⟩
      have moved := onward.path
      grind
    · have server := (later.new chan nextData (Nat.le_of_not_lt below) found).1
      rw [client] at server
      cases server
  · intro attachment member
    rw [asked]
    rcases attached attachment member with old | granted
    · exact traced.granted attachment old
    · exact granted
  · exact logged traced.logged
  · intro chan nextData mq found made
    rw [pipe]
    have new : ∀ numItems itemSz, mq = .create numItems itemSz → world.pipe chan = .empty →
        mq.Refines (world.pipe chan) := by
      rintro numItems itemSz rfl empty
      rw [empty]
      exact MsgQueue.create_refines numItems itemSz
    by_cases below : chan < world.kernel.nextChan
    · obtain ⟨data, before, onward⟩ := later.old chan nextData below found
      cases queue : data.msgQueue with
      | none =>
        obtain ⟨numItems, itemSz, created⟩ := onward.created queue mq made
        exact new numItems itemSz created (traced.silent chan (.inr ⟨data, before, queue⟩))
      | some old =>
      have same := onward.queue (by simp [queue])
      rw [same] at made
      exact traced.pipes chan data mq before made
    · have above := Nat.le_of_not_lt below
      obtain ⟨numItems, itemSz, created⟩ := (later.new chan nextData above found).2 mq made
      exact new numItems itemSz created (traced.silent chan (.inl above))
  · intro chan quiet
    rw [pipe]
    rcases quiet with above | ⟨nextData, found, none⟩
    · exact traced.silent chan (.inl (le_trans later.nextChan above))
    by_cases below : chan < world.kernel.nextChan
    · obtain ⟨data, before, onward⟩ := later.old chan nextData below found
      refine traced.silent chan (.inr ⟨data, before, ?_⟩)
      cases queue : data.msgQueue with
      | none => rfl
      | some old =>
      have same := onward.queue (by simp [queue])
      rw [none, queue] at same
      cases same
    · exact traced.silent chan (.inl (Nat.le_of_not_lt below))

variable {world : World}

theorem Traced.newClient (traced : world.Traced)
    (fresh : ∀ chan, world.kernel.nextChan ≤ chan → world.kernel.chans chan = none) {start : Chan} {cid : Uuid}
    {path : Path} (newClient : start.NewClient cid path) (held : ChanId → Nat) :
    Traced { world with
      kernel := world.kernel.allocChan start (.tmp .client)
      held := held
      asked := update world.asked world.kernel.nextChan (some (cid, path)) } := by
  have look : ∀ chan data, (world.kernel.allocChan start (.tmp .client)).chans chan = some data ↔
      chan = world.kernel.nextChan ∧ data = start ∨
        chan ≠ world.kernel.nextChan ∧ world.kernel.chans chan = some data := by
    intro chan data
    simp only [IpcState.allocChan, Function.update_apply]
    grind
  constructor
  · intro chan data found closed
    rcases (look chan data).mp found with ⟨rfl, _⟩ | ⟨_, old⟩
    · exact absurd (traced.shutOld _ closed) (lt_irrefl _)
    · exact traced.shut chan data old closed
  · exact fun chan closed => Nat.lt_succ_of_lt (traced.shutOld chan closed)
  · intro chan data found client
    rcases (look chan data).mp found with ⟨rfl, rfl⟩ | ⟨ne, old⟩
    · exact ⟨cid, path, update_self .., newClient.uuid, newClient.path⟩
    · simp only [update_of_ne ne]
      exact traced.clients chan data old client
  · intro attachment member
    have ne := ne_of_lt (traced.logged.kept attachment member).clientOld
    simp only [update_of_ne ne]
    exact traced.granted attachment member
  · exact traced.logged.allocChan start _
  · intro chan data mq found made
    rcases (look chan data).mp found with ⟨_, rfl⟩ | ⟨_, old⟩
    · rw [newClient.noQueue] at made
      cases made
    · exact traced.pipes chan data mq old made
  · rintro chan (above | ⟨data, found, none⟩)
    · exact traced.silent chan (.inl (Nat.le_of_succ_le above))
    · rcases (look chan data).mp found with ⟨rfl, _⟩ | ⟨_, old⟩
      · exact traced.silent _ (.inl le_rfl)
      · exact traced.silent chan (.inr ⟨data, old, none⟩)

structure Alike (data next : Chan) : Prop where
  uuid : next.uuid = data.uuid
  server : next.server = data.server
  state : next.state = data.state
  peer : next.peer = data.peer
  node : next.node = data.node
  refcnt : next.refcnt = data.refcnt
  path : next.path = data.path
  queue : next.msgQueue.isSome = data.msgQueue.isSome
  size : ChansOk.SameQueueSize data next

variable {chan : ChanId}

theorem Alike.refl (data : Chan) : Alike data data := ⟨rfl, rfl, rfl, rfl, rfl, rfl, rfl, rfl, .of_eq rfl⟩

section

variable (ok : world.Ok) {data : Chan} (found : world.kernel.chans chan = some data)
include ok found

theorem Ok.touch (next : Chan) (alike : Alike data next) (pipe : Pipe (List UInt8))
    (refines : ∀ mq, next.msgQueue = some mq → mq.Refines pipe) (silent : next.msgQueue = none → pipe = .empty) :
    Ok { world with
      kernel := world.kernel.setChan chan (some next)
      pipe := update world.pipe chan pipe } := by
  obtain ⟨resting, held, traced⟩ := ok
  have look : ∀ other otherNext, (world.kernel.setChan chan (some next)).chans other =
      some otherNext → ∃ its, world.kernel.chans other = some its ∧ Alike its otherNext := by
    intro other otherNext alive
    rw [setChan_chans] at alive
    split at alive
    · rename_i same
      cases alive
      exact ⟨data, same ▸ found, alike⟩
    · exact ⟨otherNext, alive, .refl otherNext⟩
  refine ⟨⟨?_, resting.ports.congr rfl rfl rfl⟩, ?_, ⟨?_, traced.shutOld, ?_, traced.granted, ?_, ?_, ?_⟩⟩
  · exact resting.chans.retouch found alike.state alike.peer alike.server alike.node
      (by rw [alike.refcnt]) alike.path alike.size alike.queue
  · exact (refs_setChan found next alike.refcnt).trans held
  · intro other otherNext alive closed
    obtain ⟨its, before, same⟩ := look other otherNext alive
    rw [same.state, same.peer]
    exact traced.shut other its before closed
  · intro other otherNext alive client
    obtain ⟨its, before, same⟩ := look other otherNext alive
    rw [same.uuid, same.path]
    exact traced.clients other its before (same.server ▸ client)
  · refine ⟨fun attachment member => ?_, traced.logged.servers⟩
    have kept := traced.logged.kept attachment member
    refine ⟨kept.clientOld, kept.serverOld, ?_, ?_⟩
    · intro otherNext alive open_
      obtain ⟨its, before, same⟩ := look _ otherNext alive
      rw [same.peer]
      exact kept.client its before (same.state ▸ open_)
    · intro otherNext alive open_
      obtain ⟨its, before, same⟩ := look _ otherNext alive
      rw [same.peer]
      exact kept.server its before (same.state ▸ open_)
  · intro other otherNext mq alive made
    rw [setChan_chans] at alive
    split at alive
    · rename_i same
      cases alive
      rw [same]
      simp only [update_self]
      exact refines mq made
    · rename_i ne
      simp only [update_of_ne ne]
      exact traced.pipes other otherNext mq alive made
  · rintro other quiet
    by_cases same : other = chan
    · subst same
      simp only [update_self]
      rcases quiet with above | ⟨otherNext, alive, none⟩
      · rw [resting.chans.fresh other above] at found
        cases found
      · rw [setChan_chans_self] at alive
        cases alive
        exact silent none
    · simp only [update_of_ne same]
      refine traced.silent other (quiet.imp id ?_)
      rintro ⟨otherNext, alive, none⟩
      rw [setChan_chans_ne _ _ _ _ same] at alive
      exact ⟨otherNext, alive, none⟩

theorem Ok.touchFlags (aux : AuxState) :
    Ok { world with kernel := world.kernel.setChan chan (some { data with aux := aux }) } := by
  have touched := ok.touch found { data with aux := aux } { Alike.refl data with size := .of_eq rfl } (world.pipe chan)
    (fun mq made => ok.traced.pipes chan data mq found made)
    (fun none => ok.traced.silent chan (.inr ⟨data, found, none⟩))
  rwa [Function.update_eq_self] at touched

end

theorem Ok.touchQueue (ok : world.Ok) {data : Chan} {mq : MsgQueue} (found : world.kernel.chans chan = some data)
    (queue : data.msgQueue = some mq) {next : MsgQueue} (numItems : next.numItems = mq.numItems)
    (itemSz : next.itemSz = mq.itemSz) {pipe : Pipe (List UInt8)} (refines : next.Refines pipe) :
    Ok { world with
      kernel := world.kernel.setChan chan (some { data with msgQueue := some next })
      pipe := update world.pipe chan pipe } := by
  refine ok.touch found { data with msgQueue := some next } ?_ pipe ?_ nofun
  · refine { Alike.refl data with queue := by rw [queue]; rfl, size := ?_ }
    rintro other made
    cases made
    exact ⟨mq, queue, numItems, itemSz⟩
  · rintro other made
    cases made
    exact refines

theorem Ok.alive (ok : world.Ok) (held : 0 < world.held chan) :
    ∃ data, world.kernel.chans chan = some data ∧ data.refcnt = world.held chan := by
  have refs := congrFun ok.held chan
  cases found : world.kernel.chans chan with
  | none =>
    rw [IpcState.refs, found] at refs
    exact absurd refs (ne_of_lt held)
  | some data => exact ⟨data, rfl, (refs_eq found).symm.trans refs⟩

end World

end Trusty.Ipc
