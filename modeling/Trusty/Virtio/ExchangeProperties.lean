import Trusty.Virtio.Exchange

/-!
# Buffers are exchanged exactly

The device takes what the driver made available, in that order, and each buffer goes
back once, for any number of turns of the 16 bit indices, as long as a probe finds
the cursor of the device at zero.
-/

namespace Trusty.Virtio

open Interaction List UInt32 Function

variable {width : Nat}

abbrev turn : Nat := 65536

/-!
## The invariant
-/

structure Agrees (num : Nat) (taken held : List UInt16) (cursor : UInt16) (ring : Ring) : Prop where
  same : ring.num = num
  size : ring.num = 0 ∨ ∃ bits ≤ 15, ring.num = 2 ^ bits
  availIdx : ring.availIdx.toNat = ring.offered.length % turn
  usedIdx : ring.usedIdx.toNat = ring.returned.length % turn
  cursor : cursor.toNat = taken.length % turn
  inOrder : taken <+: ring.offered
  bounded : ring.offered.length ≤ ring.returned.length + ring.num
  below : ∀ head ∈ ring.offered, head.toNat < ring.num
  counted : (ring.returned ++ held.map UInt16.toUInt32).Perm (taken.map UInt16.toUInt32)
  slots : ∀ i < ring.offered.length, ring.offered.length ≤ i + ring.num →
    ring.offered[i]? = some (ring.availRing (i % ring.num))

structure Orderly (queue : Queue width) : Prop where
  agrees : Agrees queue.ring.num queue.taken queue.held queue.vq.lastAvailIdx queue.ring
  num : queue.vq.vringAddr ≠ 0 → queue.vq.vring.num.toNat = queue.ring.num ∧ queue.ring.num ≠ 0
  closed : queue.vq.vringAddr = 0 → queue.held = []

variable {head : UInt16}

section Agrees

variable {num : Nat} {taken held : List UInt16} {cursor : UInt16} {ring : Ring}

section

variable (agrees : Agrees num taken held cursor ring)
include agrees

theorem Agrees.dvd (positive : ring.num ≠ 0) : ring.num ∣ turn ∧ ring.num ≤ 32768 := by
  obtain ⟨bits, small, is⟩ := agrees.size.resolve_left positive
  rw [is]
  exact ⟨pow_dvd_pow 2 (show bits ≤ 16 by omega), Nat.pow_le_pow_right (by decide) small⟩

theorem Agrees.slot (positive : ring.num ≠ 0) (index : Nat) : index % turn % ring.num = index % ring.num :=
  Nat.mod_mod_of_dvd index (agrees.dvd positive).1

theorem Agrees.lengths : ring.returned.length + held.length = taken.length ∧ taken.length ≤ ring.offered.length := by
  have lengths := agrees.counted.length_eq
  simp only [length_append, length_map] at lengths
  exact ⟨lengths, agrees.inOrder.length_le⟩

end

theorem mod_ne_of_lt {first second : Nat} (less : first < second) (near : second < first + num) :
    first % num ≠ second % num := by
  intro same
  have divides : num ∣ second - first := (Nat.modEq_iff_dvd' less.le).mp same
  have large := Nat.le_of_dvd (by omega) divides
  omega

theorem Agrees.offer (agrees : Agrees num taken held cursor ring) (below : head.toNat < ring.num)
    (room : ring.offered.length < ring.returned.length + ring.num) :
    Agrees num taken held cursor (ring.offer head) := by
  have positive : ring.num ≠ 0 := by omega
  have place : ring.availIdx.toNat % ring.num = ring.offered.length % ring.num := by
    rw [agrees.availIdx, agrees.slot positive]
  refine { agrees with
    availIdx := ?_, inOrder := agrees.inOrder.trans (prefix_append _ _), bounded := ?_,
    below := ?_, slots := ?_ }
  · show (ring.availIdx + 1).toNat = (ring.offered ++ [head]).length % turn
    rw [UInt16.toNat_add, agrees.availIdx, length_append]
    simp
  · show (ring.offered ++ [head]).length ≤ ring.returned.length + ring.num
    rw [length_append]
    exact room
  · intro other mem
    rcases mem_append.mp mem with old | new
    · exact agrees.below other old
    · rwa [mem_singleton.mp new]
  intro i inside near
  rw [show (ring.offer head).offered = ring.offered ++ [head] from rfl] at inside near ⊢
  show _ = some (update ring.availRing (ring.availIdx.toNat % ring.num) head (i % ring.num))
  rw [length_append, length_singleton] at inside near
  rw [place]
  by_cases last : i = ring.offered.length
  · rw [last, update_self]
    simp
  have other : i % ring.num ≠ ring.offered.length % ring.num :=
    mod_ne_of_lt (by omega) (by change _ ≤ i + ring.num at near; omega)
  rw [update_of_ne other, getElem?_append_left (by omega)]
  exact agrees.slots i (by omega) (by change _ ≤ i + ring.num at near; omega)

theorem Agrees.stable {shape : UInt16 → Prop} : Stable (driver shape) (Agrees num taken held cursor) := by
  intro ring later agrees moved
  cases moved with
  | offer below room => exact agrees.offer below room

theorem head_stable {shape : UInt16 → Prop} {index : Nat} :
    Stable (driver shape) fun ring => ring.offered[index]? = some head := by
  intro ring later is moved
  cases moved with
  | offer _ _ =>
  have inside : index < ring.offered.length := (List.getElem?_eq_some_iff.mp is).1
  show (ring.offered ++ [_])[index]? = some head
  rwa [List.getElem?_append_left inside]

theorem waiting_stable {shape : UInt16 → Prop} {count : Nat} :
    Stable (driver shape) fun ring => count < ring.offered.length := by
  intro ring later less moved
  cases moved with
  | offer _ _ =>
  show count < (ring.offered ++ [_]).length
  rw [length_append]
  omega

section

variable (agrees : Agrees num taken held cursor ring)

include agrees

theorem Agrees.usedFlags (flags : UInt16) : Agrees num taken held cursor { ring with usedFlags := flags } :=
  { agrees with }

theorem Agrees.take (next : ring.offered[taken.length]? = some head) :
    Agrees num (taken ++ [head]) (held ++ [head]) (cursor + 1) ring := by
  refine { agrees with cursor := ?_, inOrder := ?_, counted := ?_ }
  · rw [UInt16.toNat_add, agrees.cursor, length_append]
    simp
  · obtain ⟨rest, is⟩ := agrees.inOrder
    rw [← is, getElem?_append_right le_rfl, Nat.sub_self] at next
    cases rest with
    | nil => simp at next
    | cons first rest =>
    obtain rfl : first = head := by simpa using next
    exact ⟨rest, by rw [← is, append_assoc]; rfl⟩
  · rw [map_append, map_append, ← append_assoc]
    exact agrees.counted.append_right _

theorem Agrees.available (positive : ring.num ≠ 0) :
    (ring.availIdx - cursor).toNat = ring.offered.length - taken.length := by
  have small := (agrees.dvd positive).2
  have bounded := agrees.bounded
  have lengths := agrees.lengths
  rw [UInt16.toNat_sub, agrees.availIdx, agrees.cursor]
  unfold turn
  omega

theorem Agrees.waiting (more : cursor ≠ ring.availIdx) : taken.length < ring.offered.length := by
  have lengths := agrees.lengths
  by_contra none
  have same : taken.length = ring.offered.length := by omega
  exact more (UInt16.toNat.inj (by rw [agrees.cursor, agrees.availIdx, same]))

end

end Agrees

/-!
## Taking a buffer
-/

def RingOp.Calm : RingOp → Prop
  | .panic _ | .divideByZero => False
  | _ => True

def Single (shape : UInt16 → Prop) : Prop :=
  ∀ flags, shape flags → writes flags = true ∧ hasNext flags = false

section Taking

variable {shape : UInt16 → Prop} {kept : Ring → Prop} {α : Type}

theorem upholds_read {post : α → Ring → Prop} {op : RingOp} {next : op.Reply → RingM α}
    {ring : Ring} (stable : Stable (driver shape) kept) (holds : kept ring) (calm : op.Calm)
    (same : ∀ later reply after, (driver shape).answer later op reply after → after = later)
    (continues : ∀ later reply, kept later → (driver shape).answer later op reply later →
      Upholds (driver shape) (fun op _ => op.Calm) post (next reply) later) :
    Upholds (driver shape) (fun op _ => op.Calm) post (.ask op next) ring := by
  apply upholds_ask stable holds (fun _ _ => calm)
  intro later reply after keeps answered
  obtain rfl := same later reply after answered
  exact continues after reply keeps answered

theorem walkChain_upholds (stable : Stable (driver shape) kept) (num : UInt32)
    (index : UInt16) (buf : VqueueBuf) {ring : Ring} (holds : kept ring) :
    Upholds (driver shape) (fun op _ => op.Calm)
      (fun result after => kept after ∧ result.2.head = buf.head ∧ result.1.takes = true ∧
        (Single shape → ¬num ≤ index.toUInt32 →
          buf.outIovs.iovs.length < buf.outIovs.cnt → result.1 = .noError))
      (walkChain width num index buf) ring := by
  induction is : buf.room using Nat.strong_induction_on generalizing index buf ring with
  | _ room ih =>
  unfold walkChain
  split
  · exact upholds_done stable holds fun later keeps =>
      ⟨keeps, rfl, rfl, fun _ inside => absurd ‹_› inside⟩
  simp only [descFlags, ask_bind, done_bind]
  refine upholds_read stable holds trivial (fun _ _ _ answered => answered.2) ?_
  intro later flags keeps answered
  split
  · refine upholds_read stable keeps trivial (fun _ _ _ answered => answered) ?_
    intro later len keeps _
    refine upholds_read stable keeps trivial (fun _ _ _ answered => answered) ?_
    intro later addr keeps _
    refine upholds_read stable keeps trivial (fun _ _ _ answered => answered) ?_
    intro later more keeps _
    refine upholds_read stable keeps trivial (fun _ _ _ answered => answered) ?_
    intro later next keeps _
    refine upholds_read stable keeps trivial (fun _ _ _ answered => answered.2) ?_
    intro later again keeps againShape
    have head : ∀ iovs, (buf.setIovsFor flags iovs).head = buf.head := by
      intro iovs
      unfold VqueueBuf.setIovsFor
      split <;> rfl
    split
    · rename_i more
      apply (ih _ (is ▸ buf.room_add ‹_›) next _ keeps rfl).mono
      intro result after ⟨keeps, same, takes, _⟩
      refine ⟨keeps, by rw [same, head], takes, fun single => ?_⟩
      rw [(single again againShape.1).2] at more
      contradiction
    · exact upholds_done stable keeps fun _ keeps =>
        ⟨keeps, head _, rfl, fun _ _ _ => rfl⟩
  · rename_i full
    refine upholds_done stable keeps fun _ keeps => ⟨keeps, rfl, rfl, ?_⟩
    intro single _ free
    rw [VqueueBuf.iovsFor, if_pos (single flags answered.1).1] at full
    contradiction

variable {num : Nat} {taken held : List UInt16} {cursor : UInt16} {ring : Ring}

theorem availEmpty_upholds (agrees : Agrees num taken held cursor ring) : Upholds (driver shape) (fun op _ => op.Calm)
      (fun empty after => Agrees num taken held cursor after ∧ (empty = false → taken.length < after.offered.length))
      (availEmpty cursor) ring := by
  have stable : Stable (driver shape) (Agrees num taken held cursor) := Agrees.stable
  have stableWaiting : Stable (driver shape)
      fun ring => Agrees num taken held cursor ring ∧ taken.length < ring.offered.length :=
    Agrees.stable.and waiting_stable
  unfold availEmpty
  simp only [availIdx, usedFlags, setUsedFlags, ask_bind, done_bind]
  refine upholds_read stable agrees trivial (fun _ _ _ answered => answered.2) ?_
  intro later idx agrees answered
  split
  · refine upholds_read stable agrees trivial (fun _ _ _ answered => answered.2) ?_
    intro later flags agrees _
    refine upholds_ask stable agrees (fun _ _ => trivial) ?_
    intro later _ after agrees answered
    obtain rfl := answered
    refine upholds_read stable (agrees.usedFlags _) trivial (fun _ _ _ answered => answered.2) ?_
    intro later again agrees answered
    split
    · exact upholds_done stable agrees fun _ agrees => ⟨agrees, nofun⟩
    rename_i more
    rw [answered.1] at more
    refine upholds_read stableWaiting ⟨agrees, agrees.waiting more⟩ trivial (fun _ _ _ answered => answered.2) ?_
    intro later flags holds _
    refine upholds_ask stableWaiting holds (fun _ _ => trivial) ?_
    intro later _ after holds answered
    obtain rfl := answered
    exact upholds_done stableWaiting ⟨holds.1.usedFlags _, holds.2⟩ fun _ holds =>
      ⟨holds.1, fun _ => holds.2⟩
  · rename_i more
    rw [answered.1] at more
    exact upholds_done stableWaiting ⟨agrees, agrees.waiting more⟩ fun _ holds =>
      ⟨holds.1, fun _ => holds.2⟩

/-- What a call of `vqueue_get_avail_buf` does to the queue and the ring. -/
structure Got (num : Nat) (vq : Vqueue width) (taken held : List UInt16) (status : VqueueStatus)
    (after : Vqueue width) (head : UInt16) (ring : Ring) : Prop where
  address : after.vringAddr = vq.vringAddr
  layout : after.vring = vq.vring
  closed : vq.vringAddr = 0 → status.takes = false
  took : status.takes = true →
    Agrees num (taken ++ [head]) (held ++ [head]) after.lastAvailIdx ring
  nothing : status.takes = false → Agrees num taken held after.lastAvailIdx ring

theorem modulo_eq {value : UInt16} {num : UInt32} (positive : num.toNat ≠ 0) :
    modulo value num = .done (value.toUInt32 % num) := by
  unfold modulo
  rw [if_neg fun zero => positive (by rw [zero]; rfl)]
  rfl

section

variable {vq : Vqueue width} (agrees : Agrees num taken held vq.lastAvailIdx ring)
include agrees

theorem takeAvailBuf_upholds (opened : vq.vringAddr ≠ 0) (is : vq.vring.num.toNat = num) (positive : num ≠ 0)
    (waiting : taken.length < ring.offered.length) (buf : VqueueBuf) :
    Upholds (driver shape) (fun op _ => op.Calm)
      (fun result after => Got num vq taken held result.1 result.2.1 result.2.2.head after ∧
        (Single shape → 0 < buf.outIovs.cnt → result.1 = .noError))
      (takeAvailBuf vq buf) ring := by
  have stable : Stable (driver shape) fun after =>
      Agrees num taken held vq.lastAvailIdx after ∧ taken.length < after.offered.length :=
    Agrees.stable.and waiting_stable
  have slot : (vq.lastAvailIdx.toUInt32 % vq.vring.num).toNat = taken.length % num := by
    rw [UInt32.toNat_mod, UInt16.toNat_toUInt32, is, agrees.cursor, ← agrees.same]
    exact agrees.slot (by rw [agrees.same]; exact positive) _
  unfold takeAvailBuf
  rw [modulo_eq (by omega)]
  simp only [availRing, ask_bind, done_bind]
  refine upholds_read stable ⟨agrees, waiting⟩ trivial (fun _ _ _ answered => answered.2) ?_
  intro later head ⟨agrees, waiting⟩ answered
  have same := agrees.same
  have lengths := agrees.lengths
  have bounded := agrees.bounded
  have next : later.offered[taken.length]? = some head := by
    rw [answered.1, slot, ← same]
    exact agrees.slots _ waiting (by omega)
  have below := agrees.below head (mem_of_getElem? next)
  have inside : ¬vq.vring.num ≤ head.toUInt32 := by
    rw [le_iff_toNat_le, UInt16.toNat_toUInt32]
    omega
  rw [if_neg inside]
  apply upholds_bind
  apply (walkChain_upholds (Agrees.stable.and head_stable) _ head _ ⟨agrees, next⟩).mono
  intro result after ⟨⟨agrees, next⟩, same, takes, single⟩
  refine upholds_done (Agrees.stable.and head_stable) ⟨agrees, next⟩ fun final holds => ?_
  refine ⟨⟨rfl, rfl, fun closed => absurd closed opened, fun _ => ?_, fun none => ?_⟩, fun is room => ?_⟩
  · rw [same]
    exact holds.1.take holds.2
  · rw [takes] at none
    contradiction
  · exact single is inside room

theorem get_upholds (is : vq.vringAddr ≠ 0 → vq.vring.num.toNat = num ∧ num ≠ 0) (buf : VqueueBuf) :
    Upholds (driver shape) (fun op _ => op.Calm)
      (fun result after => Got num vq taken held result.1 result.2.1 result.2.2.head after ∧
        (Single shape → 0 < buf.outIovs.cnt → result.1.takes = true → result.1 = .noError))
      (vqueueGetAvailBufLocked vq buf) ring := by
  have stable : Stable (driver shape) (Agrees num taken held vq.lastAvailIdx) := Agrees.stable
  unfold vqueueGetAvailBufLocked
  split
  · exact upholds_done stable agrees fun _ agrees =>
      ⟨⟨rfl, rfl, fun _ => rfl, nofun, fun _ => agrees⟩, nofun⟩
  rename_i opened
  obtain ⟨is, positive⟩ := is opened
  simp only [availIdx, ask_bind, done_bind]
  refine upholds_read stable agrees trivial (fun _ _ _ answered => answered.2) ?_
  intro later idx agrees answered
  have same := agrees.same
  have small := (agrees.dvd (by omega)).2
  have available := agrees.available (by omega)
  have lengths := agrees.lengths
  have bounded := agrees.bounded
  have enough : ¬vq.vring.num.toUInt16 < idx - vq.lastAvailIdx := by
    rw [UInt16.lt_iff_toNat_lt, answered.1, available, toNat_toUInt16, is]
    omega
  rw [if_neg enough]
  apply upholds_bind
  apply (availEmpty_upholds agrees).mono
  intro empty after ⟨agrees, waiting⟩
  cases empty with
  | true => exact upholds_done stable agrees fun _ agrees =>
    ⟨⟨rfl, rfl, fun _ => rfl, nofun, fun _ => agrees⟩, nofun⟩
  | false =>
  apply (takeAvailBuf_upholds agrees opened is positive (waiting rfl) buf).mono
  exact fun _ _ got => ⟨got.1, fun single room _ => got.2 single room⟩

end

end Taking

/-!
## Returning a buffer
-/

section Returning

variable {shape : UInt16 → Prop} {num : Nat} {taken held : List UInt16} {cursor : UInt16}
  {ring : Ring}

section

variable (agrees : Agrees num taken held cursor ring)
include agrees

theorem Agrees.usedRing (entries : Nat → UInt32) : Agrees num taken held cursor { ring with usedRing := entries } :=
  { agrees with }

theorem Agrees.publish (holds : head ∈ held) (ready : ring.usedRing (ring.usedIdx.toNat % ring.num) = head.toUInt32) :
    Agrees num taken (held.erase head) cursor { ring with
        usedIdx := ring.usedIdx + 1
        returned := ring.returned ++ [ring.usedRing (ring.usedIdx.toNat % ring.num)] } := by
  refine { agrees with usedIdx := ?_, bounded := ?_, counted := ?_ }
  · rw [UInt16.toNat_add, agrees.usedIdx, length_append]
    simp
  · show ring.offered.length ≤ (ring.returned ++ [_]).length + ring.num
    have bounded := agrees.bounded
    rw [length_append]
    omega
  · rw [ready, append_assoc]
    apply Perm.trans _ agrees.counted
    apply Perm.append_left
    exact ((perm_cons_erase holds).map UInt16.toUInt32).symm

theorem Agrees.held_below (holds : head ∈ held) : head.toNat < num := by
  have mem : head.toUInt32 ∈ taken.map UInt16.toUInt32 :=
    agrees.counted.subset (mem_append_right _ (mem_map_of_mem holds))
  obtain ⟨other, among, same⟩ := mem_map.mp mem
  have is : other = head := by
    apply UInt16.toNat.inj
    rw [← UInt16.toNat_toUInt32, same, UInt16.toNat_toUInt32]
  rw [← agrees.same, ← is]
  exact agrees.below other (agrees.inOrder.subset among)

end

theorem used_stable (kept : UInt16 → (Nat → UInt32) → Nat → Prop) :
    Stable (driver shape) fun ring => kept ring.usedIdx ring.usedRing ring.num := by
  intro ring later holds moved
  cases moved with
  | offer _ _ => exact holds

theorem add_upholds {vq : Vqueue width} (agrees : Agrees num taken held vq.lastAvailIdx ring) (holds : head ∈ held)
    (opened : vq.vringAddr ≠ 0) (is : vq.vring.num.toNat = num) (len : UInt32) :
    Upholds (driver shape) (fun op _ => op.Calm)
      (fun _ after => Agrees num taken (held.erase head) vq.lastAvailIdx after)
      (vqueueAddBufLocked vq head len) ring := by
  have below := agrees.held_below holds
  have inside : ¬vq.vring.num ≤ head.toUInt32 := by
    rw [le_iff_toNat_le, UInt16.toNat_toUInt32]
    omega
  have stable : Stable (driver shape) (Agrees num taken held vq.lastAvailIdx) := Agrees.stable
  have stableReady : Stable (driver shape) fun after =>
      Agrees num taken held vq.lastAvailIdx after ∧ after.usedRing (after.usedIdx.toNat % after.num) = head.toUInt32 :=
    Agrees.stable.and (used_stable fun idx entries num => entries (idx.toNat % num) = head.toUInt32)
  unfold vqueueAddBufLocked
  rw [if_neg opened, if_neg inside]
  simp only [usedIdx, setUsedId, setUsedLen, setUsedIdx, ask_bind, done_bind]
  refine upholds_read stable agrees trivial (fun _ _ _ answered => answered.2) ?_
  intro later idx agrees answered
  rw [modulo_eq (by omega), done_bind]
  have stableIdx : Stable (driver shape) fun after =>
      Agrees num taken held vq.lastAvailIdx after ∧ after.usedIdx = idx :=
    Agrees.stable.and (used_stable fun now _ _ => now = idx)
  refine upholds_ask stableIdx ⟨agrees, answered.1.symm⟩ (fun _ _ => trivial) ?_
  intro later _ after ⟨agrees, same⟩ stored
  obtain rfl := stored
  have slot : (idx.toUInt32 % vq.vring.num).toNat = later.usedIdx.toNat % later.num := by
    rw [UInt32.toNat_mod, UInt16.toNat_toUInt32, is, same, agrees.same]
  refine upholds_read stableReady ⟨agrees.usedRing _, ?_⟩ trivial (fun _ _ _ answered => answered) ?_
  · show update later.usedRing _ _ (later.usedIdx.toNat % later.num) = _
    rw [slot, update_self]
  intro later _ ready _
  refine upholds_read stableReady ready trivial (fun _ _ _ answered => answered.2) ?_
  intro later idx ready answered
  have stableSame : Stable (driver shape) fun after =>
      (Agrees num taken held vq.lastAvailIdx after ∧ after.usedRing (after.usedIdx.toNat % after.num) = head.toUInt32) ∧
        after.usedIdx = idx :=
    stableReady.and (used_stable fun now _ _ => now = idx)
  refine upholds_ask stableSame ⟨ready, answered.1.symm⟩ (fun _ _ => trivial) ?_
  intro later _ after ⟨⟨agrees, ready⟩, same⟩ stored
  obtain rfl := stored
  rw [← same]
  exact upholds_done Agrees.stable (agrees.publish holds ready) fun _ agrees => agrees

end Returning

/-!
## Every history
-/

variable {buf : VqueueBuf} {status : VqueueStatus}

section Histories

variable {role : Role} {shape : UInt16 → Prop} {queue after : Queue width}

/-- The cursor is at the start of a ring. -/
def AtStart (vq : Vqueue width) : Prop := vq.lastAvailIdx = 0

/-- A driver whose buffers the device all returns: its sending side only returns
chains of one buffer to write to. -/
def Suits (role : Role) (shape : UInt16 → Prop) : Prop := role = .tx → Single shape

theorem agrees_fresh {num : Nat} (size : num = 0 ∨ ∃ bits ≤ 15, num = 2 ^ bits) : Agrees num [] [] 0 (.fresh num) :=
  ⟨rfl, size, rfl, rfl, rfl, prefix_rfl, Nat.zero_le _, nofun, .rfl, nofun⟩

theorem Orderly.initial : Orderly (Queue.initial width) :=
  ⟨agrees_fresh (.inl rfl), fun opened => absurd rfl opened, fun _ => rfl⟩

theorem probeVring_spec {vq ready : Vqueue width} {vring : FwRscVdevVring}
    {spot : Option (BitVec width)} (started : probeVring vq vring spot = some ready) :
    ready.lastAvailIdx = vq.lastAvailIdx ∧ ready.vring.num = vring.num := by
  unfold probeVring vqueueInit at started
  dsimp only at started
  split at started
  · split at started
    · contradiction
    · cases started
      exact ⟨rfl, rfl⟩
  · contradiction

theorem Orderly.mapped (orderly : Orderly queue) {ring : Ring} {vq : Vqueue width}
    {taken held : List UInt16} (agrees : Agrees queue.ring.num taken held vq.lastAvailIdx ring)
    (address : vq.vringAddr = queue.vq.vringAddr) (layout : vq.vring = queue.vq.vring)
    (closed : queue.vq.vringAddr = 0 → held = []) : Orderly ⟨ring, vq, taken, held⟩ := by
  have num := agrees.same
  refine ⟨?_, fun opened => ?_, fun unmapped => closed (address ▸ unmapped)⟩
  · rw [num]
    exact agrees
  · rw [layout, num]
    exact orderly.num (address ▸ opened)

theorem Orderly.got (orderly : Orderly queue) (suits : Suits role shape) {inIovs outIovs : List Iov}
    {inLen outLen : UInt64} {vq : Vqueue width} {ring : Ring}
    (ran : (vqueueGetAvailBufLocked queue.vq (role.buf head inIovs outIovs inLen outLen)).Runs
      (driver shape) queue.ring (status, vq, buf) ring) : Orderly (queue.afterGet role status vq buf.head ring) := by
  obtain ⟨got, single⟩ := (get_upholds orderly.agrees orderly.num _).runs ran
  dsimp only at got single
  -- A chain that was taken is returned by the caller.
  have goesOn : role.goesOn status = status.takes := by
    cases role with
    | rx => rfl
    | tx =>
    cases takes : status.takes with
    | true =>
      rw [single (suits rfl) one_pos takes]
      rfl
    | false => cases status <;> first | rfl | contradiction
  cases takes : status.takes with
  | true =>
    have same : queue.afterGet role status vq buf.head ring =
        ⟨ring, vq, queue.taken ++ [buf.head], queue.held ++ [buf.head]⟩ := by
      simp [Queue.afterGet, goesOn, takes]
    rw [same]
    apply orderly.mapped (got.took takes) got.address got.layout
    intro closed
    rw [got.closed closed] at takes
    contradiction
  | false =>
  have same : queue.afterGet role status vq buf.head ring = ⟨ring, vq, queue.taken, queue.held⟩ := by
    simp [Queue.afterGet, goesOn, takes]
  rw [same]
  exact orderly.mapped (got.nothing takes) got.address got.layout orderly.closed

theorem Orderly.step (orderly : Orderly queue) (suits : Suits role shape)
    (step : Step role shape AtStart queue after) : Orderly after := by
  cases step with
  | offer offers =>
    cases offers with
    | offer below room =>
    exact orderly.mapped (orderly.agrees.offer below room) rfl rfl orderly.closed
  | get ran => exact orderly.got suits ran
  | add holds ran =>
    have opened : queue.vq.vringAddr ≠ 0 := by
      intro closed
      rw [orderly.closed closed] at holds
      contradiction
    have agrees := (add_upholds orderly.agrees holds opened (orderly.num opened).1 _).runs ran
    exact orderly.mapped agrees rfl rfl fun closed => absurd closed opened
  | reset joined =>
    exact ⟨orderly.agrees, fun opened => absurd rfl opened, fun _ => joined⟩
  | @probe vring _ vq closed found size started =>
  obtain ⟨cursor, num⟩ := probeVring_spec started
  refine ⟨?_, fun _ => ⟨by rw [num]; rfl, ?_⟩, fun _ => rfl⟩
  · rw [cursor, show queue.vq.lastAvailIdx = 0 from found]
    exact agrees_fresh (.inr size)
  · obtain ⟨bits, _, is⟩ := size
    rw [is]
    exact (Nat.two_pow_pos bits).ne'

theorem Orderly.exchanged (suits : Suits role shape) (reached : Exchanged role shape AtStart queue) :
    Orderly queue := by
  induction reached with
  | refl => exact .initial
  | tail _ step orderly => exact orderly.step suits step

/-- The device takes the buffers in the order in which they were made available,
has returned each one it does not hold exactly once, and does not panic. -/
theorem exchange_exact (suits : Suits role shape) (reached : Exchanged role shape AtStart queue) :
    queue.taken <+: queue.ring.offered ∧ (queue.ring.returned ++ queue.held.map UInt16.toUInt32).Perm
        (queue.taken.map UInt16.toUInt32) ∧
      ∀ buf, Upholds (driver shape) (fun op _ => op.Calm) (fun _ _ => True)
        (vqueueGetAvailBufLocked queue.vq buf) queue.ring := by
  have orderly := Orderly.exchanged suits reached
  refine ⟨orderly.agrees.inOrder, orderly.agrees.counted, fun buf => ?_⟩
  exact (get_upholds orderly.agrees orderly.num buf).mono fun _ _ _ => trivial

end Histories

/-!
## A cursor that is not at the start
-/

section Stale

variable {shape : UInt16 → Prop} {vq : Vqueue width} {ring : Ring}

theorem stale_cursor_panics (opened : vq.vringAddr ≠ 0) {num : Nat}
    (ahead : vq.vring.num.toUInt16 < 0 - vq.lastAvailIdx) (buf : VqueueBuf) :
    ¬Upholds (driver shape) (fun op _ => op.Calm) (fun _ _ => True) (vqueueGetAvailBufLocked vq buf) (.fresh num) := by
  intro upheld
  simp only [vqueueGetAvailBufLocked, if_neg opened, availIdx, ask_bind, done_bind] at upheld
  have reads : (driver shape).answer (.fresh num) .availIdx 0 (.fresh num) := ⟨rfl, rfl⟩
  have checked := upheld.answer reads
  rw [if_pos ahead] at checked
  exact (checked.answer reads).guarded

theorem get_runs {chain : VqueueBuf} (opened : vq.vringAddr ≠ 0) (positive : vq.vring.num.toNat ≠ 0)
    (enough : ¬vq.vring.num.toUInt16 < ring.availIdx - vq.lastAvailIdx) (waiting : vq.lastAvailIdx ≠ ring.availIdx)
    (is : head = ring.availRing (vq.lastAvailIdx.toUInt32 % vq.vring.num).toNat)
    (inside : ¬vq.vring.num ≤ head.toUInt32)
    (walk : (walkChain width vq.vring.num head
      ⟨head, buf.inIovs.clear, buf.outIovs.clear⟩).Runs (driver shape) ring (status, chain) ring) :
    (vqueueGetAvailBufLocked vq buf).Runs (driver shape) ring
      (status, { vq with lastAvailIdx := vq.lastAvailIdx + 1 }, chain) ring := by
  have readsIdx : (driver shape).answer ring .availIdx ring.availIdx ring := ⟨rfl, rfl⟩
  have readsHead : (driver shape).answer ring
      (.availRing (vq.lastAvailIdx.toUInt32 % vq.vring.num)) head ring := ⟨is, rfl⟩
  simp only [vqueueGetAvailBufLocked, if_neg opened, availIdx, ask_bind, done_bind]
  refine .ask .refl readsIdx ?_
  rw [if_neg enough]
  simp only [availEmpty, availIdx, ask_bind, done_bind]
  refine .ask .refl readsIdx ?_
  rw [if_neg waiting]
  simp only [pure_eq, done_bind, takeAvailBuf, modulo_eq positive, availRing, ask_bind]
  refine .ask .refl readsHead ?_
  rw [if_neg inside]
  exact walk.bind (.done .refl)

section

variable {num : UInt32} {index : UInt16} (inside : ¬num ≤ index.toUInt32)
  (reads : shape 0)
include inside reads

theorem walkChain_runs (free : buf.inIovs.iovs.length < buf.inIovs.cnt) :
    (walkChain width num index buf).Runs (driver shape) ring
      (.noError, { buf with inIovs := buf.inIovs.add width ⟨truncate width 0, 0⟩ 0 }) ring := by
  have flags : (driver shape).answer ring (.descFlags index) 0 ring := ⟨reads, rfl⟩
  have len : (driver shape).answer ring (.descLen index) 0 ring := rfl
  have addr : (driver shape).answer ring (.descAddr index) 0 ring := rfl
  have next : (driver shape).answer ring (.descNext index) 0 ring := rfl
  unfold walkChain
  simp only [if_neg inside, descFlags, descLen, descAddr, descNext, ask_bind, done_bind]
  refine .ask .refl flags ?_
  rw [dif_pos (show (buf.iovsFor 0).iovs.length < (buf.iovsFor 0).cnt from free)]
  refine .ask .refl len (.ask .refl addr (.ask .refl len (.ask .refl next (.ask .refl flags ?_))))
  rw [if_neg (show ¬hasNext 0 = true by decide), VqueueBuf.setIovsFor, VqueueBuf.iovsFor,
    if_neg (show ¬writes 0 = true by decide), if_neg (show ¬writes 0 = true by decide)]
  exact .done .refl

theorem walkChain_tooBig (full : ¬buf.inIovs.iovs.length < buf.inIovs.cnt) :
    (walkChain width num index buf).Runs (driver shape) ring (.tooBig, buf) ring := by
  have flags : (driver shape).answer ring (.descFlags index) 0 ring := ⟨reads, rfl⟩
  unfold walkChain
  simp only [if_neg inside, descFlags, ask_bind, done_bind]
  refine .ask .refl flags ?_
  rw [dif_neg (show ¬(buf.iovsFor 0).iovs.length < (buf.iovsFor 0).cnt from full)]
  exact .done .refl

end

def Ring.publish (ring : Ring) (slot : Nat) (id : UInt32) : Ring :=
  let entries := update ring.usedRing slot id
  { ring with
    usedRing := entries
    usedIdx := ring.usedIdx + 1
    returned := ring.returned ++ [entries (ring.usedIdx.toNat % ring.num)] }

theorem add_runs {len : UInt32} (opened : vq.vringAddr ≠ 0) (positive : vq.vring.num.toNat ≠ 0)
    (inside : ¬vq.vring.num ≤ head.toUInt32) :
    (vqueueAddBufLocked vq head len).Runs (driver shape) ring .noError
      (ring.publish (ring.usedIdx.toUInt32 % vq.vring.num).toNat head.toUInt32) := by
  have idx : (driver shape).answer ring .usedIdx ring.usedIdx ring := ⟨rfl, rfl⟩
  unfold vqueueAddBufLocked
  rw [if_neg opened, if_neg inside]
  simp only [usedIdx, setUsedId, setUsedLen, setUsedIdx, ask_bind, done_bind]
  refine .ask .refl idx ?_
  rw [modulo_eq positive, done_bind]
  generalize ring.usedIdx.toUInt32 % vq.vring.num = slot
  have id : (driver shape).answer ring (.setUsedId slot head.toUInt32) ()
      { ring with usedRing := update ring.usedRing slot.toNat head.toUInt32 } := rfl
  have size : ∀ ring, (driver shape).answer ring (.setUsedLen slot len) () ring := fun _ => rfl
  have again : ∀ ring, (driver shape).answer ring .usedIdx ring.usedIdx ring := fun _ => ⟨rfl, rfl⟩
  have published : (driver shape).answer { ring with usedRing := update ring.usedRing slot.toNat head.toUInt32 }
      (.setUsedIdx (ring.usedIdx + 1)) () (ring.publish slot.toNat head.toUInt32) := rfl
  exact .ask .refl id (.ask .refl (size _) (.ask .refl (again _) (.ask .refl published (.done .refl))))

end Stale

def smallRing : FwRscVdevVring := ⟨0x1000, 4096, 1, 0⟩

/-- A queue that was set up for the small ring, with the cursor at `cursor`. -/
def smallQueue (cursor : UInt16) : Vqueue 32 :=
  { vring := vringInit 1 0x80000000 4096
    vringAddr := 0x80000000
    vringSz := ulong 32 (vringSize 1 (ulong 32 4096))
    lastAvailIdx := cursor }

theorem smallQueue_started (vq : Vqueue 32) :
    probeVring vq smallRing (some 0x80000000) = some (smallQueue vq.lastAvailIdx) := by
  have address : ((smallRing.reserved.toUInt64 <<< 32 ||| smallRing.da.toUInt64).toBitVec) =
      (BitVec.setWidth 64 (BitVec.setWidth 32
        (smallRing.reserved.toUInt64 <<< 32 ||| smallRing.da.toUInt64).toBitVec)) := by
    decide
  rfl

def offeredRing : Ring := (Ring.fresh 1).offer 0

section Small

variable {role : Role} {allowed : Vqueue 32 → Prop}

theorem small_offered (start : allowed (Queue.initial 32).vq) :
    Exchanged role (fun _ => True) allowed ⟨offeredRing, smallQueue 0, [], []⟩ := by
  have probed : Step role (fun _ => True) allowed (.initial 32) ⟨.fresh 1, smallQueue 0, [], []⟩ :=
    .probe rfl start ⟨0, by decide, rfl⟩ (smallQueue_started _)
  exact .tail (.single probed) (.offer (.offer (by decide) (by decide)))

theorem small_got {chain : VqueueBuf}
    (walk : (walkChain 32 1 0 (role.buf 0 [] [] 0 0)).Runs (driver fun _ => True) offeredRing
      (status, chain) offeredRing) :
    (vqueueGetAvailBufLocked (smallQueue 0) (role.buf 0 [] [] 0 0)).Runs (driver fun _ => True)
      offeredRing (status, smallQueue 1, chain) offeredRing := by
  have next : (0 : UInt16) = offeredRing.availRing
      ((smallQueue 0).lastAvailIdx.toUInt32 % (smallQueue 0).vring.num).toNat := by decide
  have inside : ¬(smallQueue 0).vring.num ≤ (0 : UInt16).toUInt32 := by decide
  refine get_runs (by decide) (by decide) (by decide) (by decide) next inside ?_
  cases role with
  | rx | tx => exact walk

end Small

/-- After one buffer, a reset and a second probe the device panics. A chain that
`tipc_send_data` cannot use is never returned. -/
theorem exchange_not_exact : (∃ queue : Queue 32, Exchanged .rx (fun _ => True) (fun _ => True) queue ∧
      ¬Upholds (driver fun _ => True) (fun op _ => op.Calm) (fun _ _ => True)
        (vqueueGetAvailBufLocked queue.vq (Role.rx.buf 0 [] [] 0 0)) queue.ring) ∧
      ∃ queue : Queue 32, Exchanged .tx (fun _ => True) (fun _ => True) queue ∧
        queue.held = [] ∧ queue.taken = [0] ∧ queue.ring.returned = [] := by
  constructor
  · have walk : (walkChain 32 1 0 (Role.rx.buf 0 [] [] 0 0)).Runs (driver fun _ => True)
        offeredRing _ offeredRing := walkChain_runs (by decide) trivial (by decide)
    have got := small_got walk
    have added : (vqueueAddBufLocked (smallQueue 1) 0 0).Runs (driver fun _ => True) offeredRing
        .noError _ := add_runs (by decide) (by decide) (by decide)
    refine ⟨⟨.fresh 1, smallQueue 1, [], []⟩, ?_, stale_cursor_panics (by decide) (by decide) _⟩
    have offered : Exchanged .rx (fun _ => True) (fun _ => True)
        ⟨offeredRing, smallQueue 0, [], []⟩ := small_offered trivial
    have taken := offered.tail (.get got)
    have returned := taken.tail (.add (mem_singleton.mpr rfl) added)
    have closed := returned.tail (.reset rfl)
    exact closed.tail (.probe rfl trivial ⟨0, by decide, rfl⟩ (smallQueue_started _))
  · have walk : (walkChain 32 1 0 (Role.tx.buf 0 [] [] 0 0)).Runs (driver fun _ => True)
        offeredRing _ offeredRing := walkChain_tooBig (by decide) trivial (by decide)
    have got := small_got walk
    have offered : Exchanged .tx (fun _ => True) (fun _ => True)
        ⟨offeredRing, smallQueue 0, [], []⟩ := small_offered trivial
    exact ⟨_, offered.tail (.get got), rfl, rfl, rfl⟩

theorem small_exchange_exact : Exchanged .rx (fun _ => True) AtStart ⟨offeredRing, smallQueue 1, [0], [0]⟩ ∧
      [0] <+: offeredRing.offered := by
  have walk : (walkChain 32 1 0 (Role.rx.buf 0 [] [] 0 0)).Runs (driver fun _ => True)
      offeredRing _ offeredRing := walkChain_runs (by decide) trivial (by decide)
  have start : AtStart (Queue.initial 32).vq := rfl
  have offered : Exchanged .rx (fun _ => True) AtStart ⟨offeredRing, smallQueue 0, [], []⟩ := small_offered start
  have reached := offered.tail (.get (small_got walk))
  exact ⟨reached, (exchange_exact nofun reached).1⟩

end Trusty.Virtio
