import Trusty.Lib.Pipe
import Trusty.Ipc.IovecProperties
import Trusty.Ipc.MsgQueue

/-!
# Message queues are pipes

The items of a queue are partitioned into its three lists, and what the calls
on the queue return is what a pipe returns.
-/

namespace Trusty.Ipc

open List

namespace MsgQueue

structure Partitioned (mq : MsgQueue) : Prop where
  free_nodup : mq.freeList.Nodup
  filled_nodup : mq.filledList.Nodup
  read_nodup : mq.readList.Nodup
  free_iff : ∀ id, id ∈ mq.freeList ↔ id < mq.numItems ∧ (mq.items id).state = .free
  filled_iff : ∀ id, id ∈ mq.filledList ↔ id < mq.numItems ∧ (mq.items id).state = .filled
  read_iff : ∀ id, id ∈ mq.readList ↔ id < mq.numItems ∧ (mq.items id).state = .read

def content (mq : MsgQueue) (id : Nat) : List UInt8 :=
  mq.buf.load (mq.getBuf id) (mq.items id).len

/-- The queue holds the messages of the pipe that have not come out, and those
that can be looked at. -/
structure Refines (mq : MsgQueue) (pipe : Pipe (List UInt8)) : Prop where
  partitioned : mq.Partitioned
  valid : pipe.Valid
  filled : mq.filledList.map mq.content = pipe.sent.drop pipe.got
  message : ∀ id, pipe.message id = if id ∈ mq.readList then some (mq.content id) else none
  small : ∀ id, (mq.items id).len ≤ mq.itemSz
  plain : ∀ id, (mq.items id).numHandles = 0

variable {mq : MsgQueue} {pipe : Pipe (List UInt8)}

theorem Partitioned.perm (parts : mq.Partitioned) :
    (mq.freeList ++ mq.filledList ++ mq.readList).Perm (range mq.numItems) := by
  apply (perm_ext_iff_of_nodup _ nodup_range).mpr
  · intro id
    rw [mem_append, mem_append, parts.free_iff, parts.filled_iff, parts.read_iff, mem_range]
    cases (mq.items id).state <;> simp
  refine Nodup.append (.append parts.free_nodup parts.filled_nodup ?_) parts.read_nodup ?_
  · intro id free filled
    have free := (parts.free_iff id).mp free
    have filled := (parts.filled_iff id).mp filled
    simp [free.2] at filled
  intro id others read
  have read := (parts.read_iff id).mp read
  rcases mem_append.mp others with free | filled
  · simp [parts.free_iff, read.2] at free
  · simp [parts.filled_iff, read.2] at filled

theorem Partitioned.inFlight_le (parts : mq.Partitioned) : mq.filledList.length + mq.readList.length ≤ mq.numItems := by
  have length := parts.perm.length_eq
  rw [length_append, length_append, length_range] at length
  omega

variable {other : MsgQueue}

theorem Partitioned.congr (parts : mq.Partitioned) (numItems : other.numItems = mq.numItems)
    (states : ∀ id, (other.items id).state = (mq.items id).state) (free : other.freeList = mq.freeList)
    (filled : other.filledList = mq.filledList) (read : other.readList = mq.readList) : other.Partitioned := by
  constructor <;> simp only [numItems, states, free, filled, read]
  exacts [parts.free_nodup, parts.filled_nodup, parts.read_nodup, parts.free_iff, parts.filled_iff, parts.read_iff]

variable {id : Nat}

theorem Partitioned.move (parts : mq.Partitioned) (inside : id < mq.numItems) {state : ItemState}
    (numItems : other.numItems = mq.numItems) (own : (other.items id).state = state)
    (others : ∀ number, number ≠ id → (other.items number).state = (mq.items number).state)
    (free : other.freeList = if state = .free then id :: mq.freeList.erase id
      else mq.freeList.erase id) (filled : other.filledList = if state = .filled then mq.filledList.erase id ++ [id]
      else mq.filledList.erase id) (read : other.readList = if state = .read then mq.readList.erase id ++ [id]
      else mq.readList.erase id) : other.Partitioned := by
  have freeErase := fun number => parts.free_nodup.mem_erase_iff (a := number) (b := id)
  have filledErase := fun number => parts.filled_nodup.mem_erase_iff (a := number) (b := id)
  have readErase := fun number => parts.read_nodup.mem_erase_iff (a := number) (b := id)
  constructor
  · rw [free]
    split
    · exact nodup_cons.mpr ⟨by simp [freeErase], parts.free_nodup.erase id⟩
    · exact parts.free_nodup.erase id
  · rw [filled]
    split
    · rw [← concat_eq_append]
      exact Nodup.concat (by simp [filledErase]) (parts.filled_nodup.erase id)
    · exact parts.filled_nodup.erase id
  · rw [read]
    split
    · rw [← concat_eq_append]
      exact Nodup.concat (by simp [readErase]) (parts.read_nodup.erase id)
    · exact parts.read_nodup.erase id
  · intro number
    rw [free, numItems]
    by_cases same : number = id
    · subst same
      cases state <;> simp [own, inside, freeErase]
    · split <;> simp [freeErase, same, parts.free_iff, others number same]
  · intro number
    rw [filled, numItems]
    by_cases same : number = id
    · subst same
      cases state <;> simp [own, inside, filledErase]
    · split <;> simp [filledErase, same, parts.filled_iff, others number same]
  · intro number
    rw [read, numItems]
    by_cases same : number = id
    · subst same
      cases state <;> simp [own, inside, readErase]
    · split <;> simp [readErase, same, parts.read_iff, others number same]

theorem getBuf_apart (mq : MsgQueue) {other index : Nat} (ne : other ≠ id) (begins : mq.getBuf other ≤ index)
    (ends : index < mq.getBuf other + mq.itemSz) : index < mq.getBuf id ∨ mq.getBuf id + mq.itemSz ≤ index := by
  unfold getBuf at *
  rcases lt_or_gt_of_ne ne with below | above
  · have step : other * mq.itemSz + mq.itemSz ≤ id * mq.itemSz := by
      rw [← Nat.succ_mul]
      exact Nat.mul_le_mul_right _ below
    omega
  · have step : id * mq.itemSz + mq.itemSz ≤ other * mq.itemSz := by
      rw [← Nat.succ_mul]
      exact Nat.mul_le_mul_right _ above
    omega

theorem content_congr {number : Nat} (ne : number ≠ id) (small : (mq.items number).len ≤ mq.itemSz)
    (itemSz : other.itemSz = mq.itemSz) (len : (other.items number).len = (mq.items number).len)
    (outside : ∀ index, index < mq.getBuf id ∨ mq.getBuf id + mq.itemSz ≤ index → other.buf index = mq.buf index) :
    other.content number = mq.content number := by
  have start : other.getBuf number = mq.getBuf number := by
    unfold getBuf
    rw [itemSz]
  unfold content
  rw [start, len]
  apply Buffer.load_congr
  intro index begins ends
  exact outside index (mq.getBuf_apart ne begins (by omega))

theorem Refines.free (refines : mq.Refines pipe) (free : id ∈ mq.freeList) (parts : other.Partitioned)
    (itemSz : other.itemSz = mq.itemSz) (filled : other.filledList = mq.filledList)
    (read : other.readList = mq.readList) (items : ∀ number, number ≠ id → other.items number = mq.items number)
    (len : (other.items id).len ≤ mq.itemSz) (plain : (other.items id).numHandles = 0)
    (outside : ∀ index, index < mq.getBuf id ∨ mq.getBuf id + mq.itemSz ≤ index → other.buf index = mq.buf index) :
    other.Refines pipe := by
  have own := (refines.partitioned.free_iff id).mp free
  have same : ∀ number, number ≠ id → other.content number = mq.content number := fun number ne =>
      content_congr ne (refines.small number) itemSz (by rw [items number ne]) outside
  refine ⟨parts, refines.valid, ?_, ?_, ?_, ?_⟩
  · rw [filled, ← refines.filled]
    apply map_congr_left
    intro number listed
    apply same
    rintro rfl
    simp [refines.partitioned.filled_iff, own.2] at listed
  · intro number
    rw [read, refines.message number]
    by_cases listed : number ∈ mq.readList
    · have ne : number ≠ id := by
        rintro rfl
        simp [refines.partitioned.read_iff, own.2] at listed
      rw [if_pos listed, if_pos listed, same number ne]
    · rw [if_neg listed, if_neg listed]
  · intro number
    rw [itemSz]
    by_cases ne : number = id
    · rw [ne]
      exact len
    · rw [items number ne]
      exact refines.small number
  · intro number
    by_cases ne : number = id
    · rw [ne]
      exact plain
    · rw [items number ne]
      exact refines.plain number

theorem create_refines (numItems itemSz : Nat) : (create numItems itemSz).Refines .empty where
  partitioned := by
    constructor <;> simp [create, nodup_range]
  valid := Pipe.valid_empty
  filled := rfl
  message := fun _ => rfl
  small := fun _ => Nat.zero_le _
  plain := fun _ => rfl

theorem Refines.fill (refines : mq.Refines pipe) {len : Nat} (free : id ∈ mq.freeList) (small : len ≤ mq.itemSz) :
    (((mq.listDelete id).listAddFilled id).setItem id ⟨.filled, 0, len⟩).Refines
      (pipe.send (mq.buf.load (mq.getBuf id) len)) := by
  have own := (refines.partitioned.free_iff id).mp free
  have unfilled : id ∉ mq.filledList := by simp [refines.partitioned.filled_iff, own.2]
  have unread : id ∉ mq.readList := by simp [refines.partitioned.read_iff, own.2]
  have same : ∀ number, number ≠ id →
      (((mq.listDelete id).listAddFilled id).setItem id ⟨.filled, 0, len⟩).content number = mq.content number := by
    intro number ne
    simp [content, setItem, listDelete, listAddFilled, getBuf, ne]
  constructor
  · apply refines.partitioned.move own.1
    · rfl
    · simp [setItem]
      rfl
    · intro number ne
      simp [setItem, listDelete, listAddFilled, ne]
    all_goals rfl
  · exact refines.valid.send _
  · change (mq.filledList.erase id ++ [id]).map _ = (pipe.sent ++ [_]).drop pipe.got
    rw [erase_of_not_mem unfilled, map_append, drop_append_of_le_length refines.valid.got_le, ← refines.filled]
    congr 1
    · apply map_congr_left
      intro number listed
      exact same number fun equal => unfilled (equal ▸ listed)
    · simp [content, setItem, listDelete, listAddFilled, getBuf]
  · intro number
    rw [refines.valid.message_send, refines.message number]
    change _ = if number ∈ mq.readList.erase id then _ else _
    rw [erase_of_not_mem unread]
    by_cases listed : number ∈ mq.readList
    · rw [if_pos listed, if_pos listed, same number fun equal => unread (equal ▸ listed)]
    · rw [if_neg listed, if_neg listed]
  · intro number
    by_cases equal : number = id
    · simpa [setItem, listDelete, listAddFilled, equal] using small
    · simpa [setItem, listDelete, listAddFilled, equal] using refines.small number
  · intro number
    by_cases equal : number = id
    · simp [setItem, equal]
    · simpa [setItem, listDelete, listAddFilled, equal] using refines.plain number

variable {msg : MsgDesc}

theorem writeItem_of_plain (plain : msg.numHandles = 0) :
    mq.writeItem id msg = match msg.gather mq.buf (mq.getBuf id) mq.itemSz with
      | (buf, .error reason) =>
        (.error reason, (mq.setItem id ⟨(mq.items id).state, 0, 0⟩).setBuf buf)
      | (buf, .ok len) =>
        (.ok len, (((((mq.setItem id ⟨(mq.items id).state, 0, 0⟩).setBuf buf).listDelete
          id).listAddFilled id).setItem id ⟨.filled, 0, len⟩)) := by
  simp only [writeItem, plain, ne_eq, not_true, if_false]
  rfl

/-- A message that has been read from the caller is sent; one that has not
leaves the pipe as it is. -/
theorem Refines.writeItem (refines : mq.Refines pipe) (free : id ∈ mq.freeList) (msg : MsgDesc) :
    (mq.writeItem id msg).2.numItems = mq.numItems ∧ (mq.writeItem id msg).2.itemSz = mq.itemSz ∧
      match mq.writeItem id msg with
      | (.error _, next) => next.Refines pipe
      | (.ok len, next) => ∃ bytes : List UInt8, msg.contents.take mq.itemSz = bytes.map some ∧
          len = bytes.length ∧ next.Refines (pipe.send bytes) := by
  -- Clearing the free item, and whatever the copy has stored, concern nobody.
  have cleared : ∀ buf : Buffer, (∀ index, index < mq.getBuf id ∨
      mq.getBuf id + mq.itemSz ≤ index → buf index = mq.buf index) →
      ((mq.setItem id ⟨(mq.items id).state, 0, 0⟩).setBuf buf).Refines pipe := by
    intro buf outside
    apply refines.free free
    · apply refines.partitioned.congr
      · rfl
      · intro number
        by_cases equal : number = id <;> simp [setItem, setBuf, equal]
      all_goals rfl
    · rfl
    · rfl
    · rfl
    · intro number ne
      simp [setItem, setBuf, ne]
    · simp [setItem, setBuf]
    · simp [setItem, setBuf]
    · exact outside
  have gathers := msg.gather_gathers mq.buf (mq.getBuf id) mq.itemSz
  by_cases handles : msg.numHandles = 0
  · rw [writeItem_of_plain handles]
    cases gathered : msg.gather mq.buf (mq.getBuf id) mq.itemSz with
    | mk buf result =>
    rw [gathered] at gathers
    cases result with
    | error reason => exact ⟨rfl, rfl, cleared buf gathers.outside⟩
    | ok len =>
    obtain ⟨bytes, taken, counted, loaded⟩ := gathers.stored len rfl
    have small : len ≤ mq.itemSz := by
      have length := congrArg length taken
      rw [length_take, length_map] at length
      omega
    refine ⟨rfl, rfl, bytes, taken, by omega, ?_⟩
    have filled := (cleared buf gathers.outside).fill free small
    have sent : buf.load (mq.getBuf id) len = bytes := by
      rw [counted, zero_add]
      exact loaded
    rw [← sent]
    exact filled
  · have refused : mq.writeItem id msg = (.error .notSupported, mq.setItem id ⟨(mq.items id).state, 0, 0⟩) := by
      simp [MsgQueue.writeItem, handles]
    rw [refused]
    exact ⟨rfl, rfl, cleared mq.buf fun _ _ => rfl⟩

theorem Refines.next (refines : mq.Refines pipe) : pipe.next = mq.filledList.head?.map mq.content := by
  rw [Pipe.next, ← head?_map, refines.filled, head?_drop]

theorem Refines.getFilled (refines : mq.Refines pipe) (head : mq.filledList.head? = some id) :
    ∃ next, mq.getFilledLocked = some next ∧ next.numItems = mq.numItems ∧
      next.itemSz = mq.itemSz ∧ next.Refines (pipe.get id) ∧ pipe.reading id = none := by
  obtain ⟨rest, filled⟩ : ∃ rest, mq.filledList = id :: rest := ⟨mq.filledList.tail, eq_cons_of_mem_head? head⟩
  have own := (refines.partitioned.filled_iff id).mp (filled ▸ mem_cons_self)
  have unread : id ∉ mq.readList := by simp [refines.partitioned.read_iff, own.2]
  have fresh : id ∉ rest := by
    have nodup := refines.partitioned.filled_nodup
    rw [filled] at nodup
    exact (nodup_cons.mp nodup).1
  have contents : mq.content id :: rest.map mq.content = pipe.sent.drop pipe.got := by
    rw [← refines.filled, filled, map_cons]
  have waiting : pipe.got < pipe.sent.length := by
    have length := congrArg length contents
    rw [length_drop, length_cons] at length
    omega
  have unreading : pipe.reading id = none := by
    have none := refines.message id
    rw [if_neg unread] at none
    cases read : pipe.reading id with
    | none => rfl
    | some index =>
    have below := refines.valid.reading_lt id index read
    simp only [Pipe.message, read, Option.bind_some, getElem?_eq_none_iff] at none
    omega
  refine ⟨((mq.listDelete id).listAddRead id).setItem id
    ⟨.read, (mq.items id).numHandles, (mq.items id).len⟩, by rw [getFilledLocked, head],
    rfl, rfl, ?_, unreading⟩
  have same : ∀ number, (((mq.listDelete id).listAddRead id).setItem id
      ⟨.read, (mq.items id).numHandles, (mq.items id).len⟩).content number = mq.content number := by
    intro number
    by_cases equal : number = id <;> simp [content, setItem, listDelete, listAddRead, getBuf, equal]
  constructor
  · apply refines.partitioned.move own.1
    · rfl
    · simp [setItem]
      rfl
    · intro number ne
      simp [setItem, listDelete, listAddRead, ne]
    all_goals rfl
  · exact refines.valid.get waiting id
  · change (mq.filledList.erase id).map _ = pipe.sent.drop (pipe.got + 1)
    rw [filled, erase_cons_head, ← drop_drop, ← contents]
    exact map_congr_left fun number _ => same number
  · intro number
    change _ = if number ∈ mq.readList.erase id ++ [id] then _ else _
    rw [erase_of_not_mem unread, same]
    by_cases equal : number = id
    · subst equal
      have next : pipe.next = some (mq.content number) := by
        rw [Pipe.next, ← head?_drop, ← contents, head?_cons]
      rw [Pipe.message_get, next]
      simp
    · rw [Pipe.message_get_ne equal, refines.message number]
      simp [equal]
  · intro number
    by_cases equal : number = id
    · simpa [setItem, listDelete, listAddRead, equal] using refines.small id
    · simpa [setItem, listDelete, listAddRead, equal] using refines.small number
  · intro number
    by_cases equal : number = id
    · simpa [setItem, listDelete, listAddRead, equal] using refines.plain id
    · simpa [setItem, listDelete, listAddRead, equal] using refines.plain number

variable {msgId : Nat}

section

variable (refines : mq.Refines pipe)
include refines

/-- A read that succeeds delivers the bytes of the message from the offset on,
as far as the vectors have room. -/
theorem Refines.read {offset total : Nat} (done : (mq.readLocked msgId offset msg).2 = .ok total) :
    ∃ message, pipe.message msgId = some message ∧ offset ≤ message.length ∧
      (mq.readLocked msgId offset msg).1.flatten = (message.drop offset).take msg.contents.length ∧
      total = ((message.drop offset).take msg.contents.length).length := by
  unfold readLocked at done ⊢
  by_cases inside : msgId < mq.numItems
  · simp only [inside, not_true, if_false] at done ⊢
    by_cases state : (mq.items msgId).state = .read
    · simp only [state, ne_eq, not_true, if_false, refines.plain msgId] at done ⊢
      by_cases within : offset > (mq.items msgId).len
      · simp [within] at done
      simp only [within, if_false] at done ⊢
      by_cases handles : msg.numHandles = 0
      · simp only [handles, not_true, if_false] at done ⊢
        have listed := (refines.partitioned.read_iff msgId).mpr ⟨inside, state⟩
        have scatters := msg.scatter_scatters mq.buf (mq.getBuf msgId + offset) ((mq.items msgId).len - offset)
        obtain ⟨flat, counted⟩ := scatters total done
        have rest : (mq.content msgId).drop offset =
            mq.buf.load (mq.getBuf msgId + offset) ((mq.items msgId).len - offset) :=
          Buffer.drop_load _ _
        refine ⟨mq.content msgId, by rw [refines.message, if_pos listed], ?_, ?_, ?_⟩
        · rw [content, Buffer.length_load]
          omega
        · rw [rest]
          simpa using flat
        · rw [rest, counted, length_take, zero_add]
      · simp [handles] at done
    · simp [state] at done
  · simp [inside] at done

theorem Refines.inRead {message : List UInt8} (known : pipe.message msgId = some message) :
    msgId < mq.numItems ∧ (mq.items msgId).state = .read ∧ message = mq.content msgId := by
  rw [refines.message] at known
  split at known
  · rename_i listed
    cases known
    obtain ⟨inside, state⟩ := (refines.partitioned.read_iff msgId).mp listed
    exact ⟨inside, state, rfl⟩
  · cases known

theorem Refines.read_ok {offset : Nat} {message : List UInt8} (known : pipe.message msgId = some message)
    (within : offset ≤ message.length) (plain : msg.numHandles = 0) (valid : none ∉ msg.contents) :
    ∃ total, (mq.readLocked msgId offset msg).2 = .ok total := by
  obtain ⟨inside, state, rfl⟩ := refines.inRead known
  rw [content, Buffer.length_load] at within
  have short : ¬offset > (mq.items msgId).len := Nat.not_lt_of_le within
  simp only [readLocked, inside, not_true, if_false, state, ne_eq, refines.plain msgId, short, plain]
  exact MsgDesc.scatter_ok valid ..

theorem Refines.putRead (msgId : Nat) : (mq.putReadLocked msgId).2.numItems = mq.numItems ∧
      (mq.putReadLocked msgId).2.itemSz = mq.itemSz ∧
      match mq.putReadLocked msgId with
      | (.error _, next) => next = mq ∧ pipe.message msgId = none
      | (.ok _, next) => (pipe.message msgId).isSome ∧ next.Refines (pipe.put msgId) := by
  unfold putReadLocked
  by_cases refused : ¬msgId < mq.numItems ∨ (mq.items msgId).state ≠ .read
  · rw [if_pos refused]
    refine ⟨rfl, rfl, rfl, ?_⟩
    cases known : pipe.message msgId with
    | none => rfl
    | some message =>
    obtain ⟨inside, state, _⟩ := refines.inRead known
    exact absurd refused (by simp [inside, state])
  simp only [if_neg refused]
  obtain ⟨inside, state⟩ : msgId < mq.numItems ∧ (mq.items msgId).state = .read := by
    simpa [not_or] using refused
  have listed := (refines.partitioned.read_iff msgId).mpr ⟨inside, state⟩
  have unfilled : msgId ∉ mq.filledList := by simp [refines.partitioned.filled_iff, state]
  have same : ∀ number, (((mq.listDelete msgId).listAddFree msgId).setItem msgId
      ⟨.free, (mq.items msgId).numHandles, (mq.items msgId).len⟩).content number = mq.content number := by
    intro number
    by_cases equal : number = msgId <;> simp [content, setItem, listDelete, listAddFree, getBuf, equal]
  refine ⟨rfl, rfl, by rw [refines.message, if_pos listed]; rfl, ?_⟩
  constructor
  · apply refines.partitioned.move inside
    · rfl
    · simp [setItem]
      rfl
    · intro number ne
      simp [setItem, listDelete, listAddFree, ne]
    all_goals rfl
  · exact refines.valid.put msgId
  · change (mq.filledList.erase msgId).map _ = pipe.sent.drop pipe.got
    rw [erase_of_not_mem unfilled, ← refines.filled]
    exact map_congr_left fun number _ => same number
  · intro number
    change _ = if number ∈ mq.readList.erase msgId then _ else _
    rw [same]
    by_cases equal : number = msgId
    · subst equal
      have gone : number ∉ mq.readList.erase number := by
        simp [refines.partitioned.read_nodup.mem_erase_iff]
      rw [Pipe.message_put, if_neg gone]
    · rw [Pipe.message_put_ne equal, refines.message number]
      simp [refines.partitioned.read_nodup.mem_erase_iff, equal]
  · intro number
    by_cases equal : number = msgId
    · simpa [setItem, listDelete, listAddFree, equal] using refines.small msgId
    · simpa [setItem, listDelete, listAddFree, equal] using refines.small number
  · intro number
    by_cases equal : number = msgId
    · simpa [setItem, listDelete, listAddFree, equal] using refines.plain msgId
    · simpa [setItem, listDelete, listAddFree, equal] using refines.plain number

end

end MsgQueue

end Trusty.Ipc
