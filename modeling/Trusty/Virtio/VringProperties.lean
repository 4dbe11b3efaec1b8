import Trusty.Virtio.Vqueue

/-!
# Bounds of a virtqueue

Which rings keep every access of the device inside their mapping, whatever the normal
world writes there.
-/

namespace Trusty.Virtio

open Interaction Align BitVec UInt32

variable {width : Nat}

/-!
## Places
-/

def RingOp.place (vring : Vring width) : RingOp → BitVec width × Nat × Nat
  | .availIdx => (vring.avail, 2, 2)
  | .availRing slot => (vring.avail, 4 + 2 * slot.toNat, 2)
  | .descAddr index => (vring.desc, 16 * index.toNat, 8)
  | .descLen index => (vring.desc, 16 * index.toNat + 8, 4)
  | .descFlags index => (vring.desc, 16 * index.toNat + 12, 2)
  | .descNext index => (vring.desc, 16 * index.toNat + 14, 2)
  | .usedFlags | .setUsedFlags _ => (vring.used, 0, 2)
  | .usedIdx | .setUsedIdx _ => (vring.used, 2, 2)
  | .setUsedId slot _ => (vring.used, 4 + 8 * slot.toNat, 4)
  | .setUsedLen slot _ => (vring.used, 4 + 8 * slot.toNat + 4, 4)
  | .panic _ | .divideByZero => (0, 0, 0)

/-- `size` bytes from `offset` on, in the address arithmetic of the machine, are
among the `mapped` bytes from `base` on. -/
def Within (base : BitVec width) (mapped : Nat) (place : BitVec width × Nat × Nat) : Prop :=
  base.toNat ≤ (place.1 + BitVec.ofNat width place.2.1).toNat ∧
    (place.1 + BitVec.ofNat width place.2.1).toNat + place.2.2 ≤ base.toNat + mapped

instance (base : BitVec width) (mapped : Nat) (place : BitVec width × Nat × Nat) :
    Decidable (Within base mapped place) :=
  inferInstanceAs (Decidable (_ ∧ _))

def RingOp.Contained (vring : Vring width) (base : BitVec width) (mapped : Nat) : RingOp → Prop
  | .panic _ => True
  | .divideByZero => False
  | op => Within base mapped (op.place vring)

@[simp] theorem RingOp.contained_panic {vring : Vring width} {base : BitVec width} {mapped : Nat}
    (reason : Panic) : (RingOp.panic reason).Contained vring base mapped :=
  trivial

def normalWorld : Environment RingOp RingOp.Reply Unit where
  move _ _ := False
  answer _ _ _ _ := True

abbrev Stays {α : Type} (vring : Vring width) (base : BitVec width) (mapped : Nat)
    (program : RingM α) : Prop :=
  Upholds normalWorld (fun op _ => op.Contained vring base mapped) (fun _ _ => True) program ()

structure Confined (vq : Vqueue width) (base : BitVec width) (mapped : Nat) : Prop where
  get : ∀ lastAvailIdx buf,
    Stays vq.vring base mapped (vqueueGetAvailBufLocked { vq with lastAvailIdx } buf)
  add : ∀ head len, Stays vq.vring base mapped (vqueueAddBufLocked vq head len)

/-- Memory the kernel may hand out: pages away from address zero. -/
structure Spot (base : BitVec width) (mapped : Nat) : Prop where
  wide : 32 ≤ width
  aligned : base.toNat % pageSize = 0
  nonzero : base ≠ 0
  ends : base.toNat + mapped ≤ 2 ^ width

def Vring.reach (vring : Vring width) : Nat := min vring.num.toNat 65536

/-- The part of the tables that 16 bit indices reach is inside the mapping. -/
@[mk_iff] structure Fits (vring : Vring width) (base : BitVec width) (mapped : Nat) : Prop where
  num : vring.num ≠ 0
  desc : vring.desc.toNat + 16 * vring.reach ≤ base.toNat + mapped
  availStart : base.toNat ≤ vring.avail.toNat + 2
  availEnd : vring.avail.toNat + 4 + 2 * vring.reach ≤ base.toNat + mapped
  usedStart : base.toNat ≤ vring.used.toNat
  usedEnd : vring.used.toNat + 4 + 8 * vring.reach ≤ base.toNat + mapped

instance (vring : Vring width) (base : BitVec width) (mapped : Nat) : Decidable (Fits vring base mapped) :=
  decidable_of_iff' _ (fits_iff ..)

/-!
## Address arithmetic
-/

section Addresses

variable {base : BitVec width} {mapped : Nat}

theorem Spot.far (spot : Spot base mapped) : pageSize ≤ base.toNat := by
  have positive : base.toNat ≠ 0 := fun zero => spot.nonzero (eq_of_toNat_eq (by simpa))
  have aligned := spot.aligned
  unfold pageSize at *
  omega

theorem toNat_offset (address : BitVec width) (offset : Nat) :
    (address + BitVec.ofNat width offset).toNat = (address.toNat + offset) % 2 ^ width := by
  simp

variable {address : BitVec width} {size : Nat}

theorem within_of_le (spot : Spot base mapped) {offset : Nat} (starts : base.toNat ≤ address.toNat + offset)
    (some : 0 < size) (stops : address.toNat + offset + size ≤ base.toNat + mapped) :
    Within base mapped (address, offset, size) := by
  have ends := spot.ends
  have exact : (address + BitVec.ofNat width offset).toNat = address.toNat + offset := by
    rw [toNat_offset, Nat.mod_eq_of_lt (by omega)]
  unfold Within
  rw [exact]
  exact ⟨starts, stops⟩

theorem le_of_within (spot : Spot base mapped) {offset : Nat} (before : address.toNat + offset ≤ base.toNat + mapped)
    (within : Within base mapped (address, offset, size)) : address.toNat + offset + size ≤ base.toNat + mapped := by
  have ends := spot.ends
  have far := spot.far
  obtain ⟨starts, stops⟩ := within
  rw [toNat_offset] at starts stops
  dsimp only at starts stops
  by_cases wraps : address.toNat + offset = 2 ^ width
  · rw [wraps, Nat.mod_self] at starts
    unfold pageSize at far
    omega
  · rw [Nat.mod_eq_of_lt (by omega)] at stops
    exact stops

theorem start_of_within (spot : Spot base mapped) (within : Within base mapped (address, 2, size)) :
    base.toNat ≤ address.toNat + 2 ∧ address.toNat + 2 + size ≤ base.toNat + mapped := by
  have far := spot.far
  unfold Within at within
  dsimp only at within
  rw [toNat_offset] at within
  unfold pageSize at far
  by_cases wraps : address.toNat + 2 < 2 ^ width
  · rwa [Nat.mod_eq_of_lt wraps] at within
  · rw [Nat.mod_eq_sub_mod (by omega), Nat.mod_eq_of_lt (by omega)] at within
    omega

end Addresses

/-!
## Programs with free answers
-/

section Free

variable {α : Type} {vring : Vring width} {base : BitVec width} {mapped : Nat}

@[simp] theorem stays_done (value : α) : Stays vring base mapped (.done value) := fun _ _ => trivial

@[simp] theorem stays_ask {op : RingOp} {next : op.Reply → RingM α} : Stays vring base mapped (.ask op next) ↔
      op.Contained vring base mapped ∧ ∀ reply, Stays vring base mapped (next reply) := by
  rw [Stays, upholds_ask_iff fun _ _ moved => moved]
  exact and_congr_right fun _ => ⟨fun upheld reply => upheld reply () trivial,
    fun continues reply _ _ => continues reply⟩

section

variable {β : Type} {program : RingM α} {rest : α → RingM β}

theorem Stays.of_bind (stays : Stays vring base mapped (program >>= rest)) : Stays vring base mapped program := by
  induction program with
  | done value => exact stays_done value
  | ask op next ih =>
  rw [ask_bind, stays_ask] at stays
  exact stays_ask.mpr ⟨stays.1, fun reply => ih reply (stays.2 reply)⟩

theorem stays_bind (first : Stays vring base mapped program)
    (continues : ∀ value, Stays vring base mapped (rest value)) : Stays vring base mapped (program >>= rest) :=
  upholds_bind (first.mono fun value _ _ => continues value)

end

end Free

/-!
## A ring that fits
-/

section Sufficient

variable {vring : Vring width} {base : BitVec width} {mapped : Nat}

section

variable (fits : Fits vring base mapped)
include fits

theorem Fits.reach_pos : 0 < vring.reach := by
  have positive : vring.num.toNat ≠ 0 := fun zero => fits.num (UInt32.toNat.inj (by simpa))
  unfold Vring.reach
  omega

section

variable (spot : Spot base mapped)
include spot

theorem Fits.availIdx_contained : RingOp.Contained vring base mapped .availIdx :=
  within_of_le spot fits.availStart (by decide) (by have := fits.availEnd; omega)

theorem Fits.availRing_contained {slot : UInt32} (below : slot.toNat < vring.reach) :
    RingOp.Contained vring base mapped (.availRing slot) :=
  within_of_le spot (by have := fits.availStart; omega) (by decide) (by have := fits.availEnd; omega)

theorem Fits.usedFlags_contained : RingOp.Contained vring base mapped .usedFlags :=
  within_of_le spot (by have := fits.usedStart; omega) (by decide) (by have := fits.usedEnd; omega)

theorem Fits.usedIdx_contained : RingOp.Contained vring base mapped .usedIdx :=
  within_of_le spot (by have := fits.usedStart; omega) (by decide) (by have := fits.usedEnd; omega)

theorem Fits.setUsed_contained {slot : UInt32} (below : slot.toNat < vring.reach) (value : UInt32) :
    RingOp.Contained vring base mapped (.setUsedId slot value) ∧
      RingOp.Contained vring base mapped (.setUsedLen slot value) := by
  have starts := fits.usedStart
  have ends := fits.usedEnd
  exact ⟨within_of_le spot (by omega) (by decide) (by omega), within_of_le spot (by omega) (by decide) (by omega)⟩

theorem Fits.desc_contained (table : vring.desc = base) {index : UInt16} (below : ¬vring.num ≤ index.toUInt32) :
    RingOp.Contained vring base mapped (.descAddr index) ∧ RingOp.Contained vring base mapped (.descLen index) ∧
      RingOp.Contained vring base mapped (.descFlags index) ∧
      RingOp.Contained vring base mapped (.descNext index) := by
  have reached : index.toNat < vring.reach := by
    have small := index.toNat_lt
    rw [le_iff_toNat_le, UInt16.toNat_toUInt32] at below
    unfold Vring.reach
    omega
  have starts : base.toNat ≤ vring.desc.toNat := by rw [table]
  have ends := fits.desc
  refine ⟨?_, ?_, ?_, ?_⟩ <;> exact within_of_le spot (by omega) (by decide) (by omega)

theorem Fits.walkChain_stays (table : vring.desc = base) (index : UInt16) (buf : VqueueBuf) :
    Stays vring base mapped (walkChain width vring.num index buf) := by
  induction is : buf.room using Nat.strong_induction_on generalizing index buf with
  | _ room ih =>
  unfold walkChain
  by_cases outside : vring.num ≤ index.toUInt32
  · simp [outside]
  have contained := fits.desc_contained spot table outside
  simp only [outside, if_false, descFlags, descLen, descAddr, descNext, ask_bind, done_bind, stays_ask]
  refine ⟨contained.2.2.1, fun flags => ?_⟩
  split
  · simp only [stays_ask, contained, true_and]
    intro len addr more next again
    split
    · exact ih _ (is ▸ buf.room_add ‹_›) next _ rfl
    · simp
  · simp

end

end

theorem Fits.modulo_stays {α : Type} (fits : Fits vring base mapped) (value : UInt16) {rest : UInt32 → RingM α}
    (continues : ∀ slot, slot.toNat < vring.reach → Stays vring base mapped (rest slot)) :
    Stays vring base mapped (modulo value vring.num >>= rest) := by
  unfold modulo
  rw [if_neg fits.num]
  apply continues
  have positive := fits.reach_pos
  have small := value.toNat_lt
  rw [UInt32.toNat_mod, UInt16.toNat_toUInt32]
  unfold Vring.reach at *
  have below := Nat.mod_lt value.toNat (show vring.num.toNat > 0 by omega)
  have shrinks := Nat.mod_le value.toNat vring.num.toNat
  omega

theorem Fits.availEmpty_stays (fits : Fits vring base mapped) (spot : Spot base mapped) (lastAvailIdx : UInt16) :
    Stays vring base mapped (availEmpty lastAvailIdx) := by
  have idx := fits.availIdx_contained spot
  have flags := fits.usedFlags_contained spot
  have setFlags : ∀ value, RingOp.Contained vring base mapped (.setUsedFlags value) := fun _ => flags
  unfold availEmpty
  simp only [availIdx, usedFlags, setUsedFlags, ask_bind, done_bind, stays_ask, idx, true_and]
  intro first
  split
  · simp only [stays_ask, flags, setFlags, idx, true_and]
    intro _ _ second
    split <;> simp [stays_ask, flags, setFlags]
  · simp

section

variable {vq : Vqueue width} (fits : Fits vq.vring base mapped) (spot : Spot base mapped)
include fits spot

theorem Fits.takeAvailBuf_stays (table : vq.vring.desc = base) (buf : VqueueBuf) :
    Stays vq.vring base mapped (takeAvailBuf vq buf) := by
  apply fits.modulo_stays
  intro slot below
  simp only [availRing, ask_bind, done_bind, stays_ask]
  refine ⟨fits.availRing_contained spot below, fun head => ?_⟩
  split
  · simp [panic]
  · exact stays_bind (fits.walkChain_stays spot table _ _) fun _ => stays_done _

theorem Fits.get_stays (table : vq.vring.desc = base) (buf : VqueueBuf) :
    Stays vq.vring base mapped (vqueueGetAvailBufLocked vq buf) := by
  have idx := fits.availIdx_contained spot
  unfold vqueueGetAvailBufLocked
  split
  · simp
  simp only [availIdx, ask_bind, done_bind, stays_ask, idx, true_and]
  intro first
  split
  · simp [panic, idx]
  apply stays_bind (fits.availEmpty_stays spot _)
  intro empty
  split
  · simp
  · exact fits.takeAvailBuf_stays spot table buf

theorem Fits.add_stays (head : UInt16) (len : UInt32) :
    Stays vq.vring base mapped (vqueueAddBufLocked vq head len) := by
  have idx := fits.usedIdx_contained spot
  have setIdx : ∀ value, RingOp.Contained vq.vring base mapped (.setUsedIdx value) := fun _ => idx
  unfold vqueueAddBufLocked
  split
  · simp
  split
  · simp
  simp only [usedIdx, ask_bind, done_bind, stays_ask, idx, true_and]
  intro first
  apply fits.modulo_stays
  intro slot below
  simp [setUsedId, setUsedLen, setUsedIdx, fits.setUsed_contained spot below, idx, setIdx]

end

end Sufficient

/-!
## A ring that does not fit
-/

section Necessary

variable {vq : Vqueue width} {base : BitVec width} {mapped : Nat}

def VqueueBuf.single : VqueueBuf := ⟨0, ⟨1, [], 0⟩, ⟨1, [], 0⟩⟩

section

variable (confined : Confined vq base mapped)

include confined

section

variable (mappedRing : vq.vringAddr ≠ 0)
include mappedRing

theorem Confined.take (lastAvailIdx : UInt16) (buf : VqueueBuf) : RingOp.Contained vq.vring base mapped .availIdx ∧
      RingOp.Contained vq.vring base mapped .usedFlags ∧
      Stays vq.vring base mapped (takeAvailBuf { vq with lastAvailIdx } buf) := by
  have upheld := confined.get lastAvailIdx buf
  have ne : lastAvailIdx ≠ lastAvailIdx + 1 := by simp
  simp only [vqueueGetAvailBufLocked, mappedRing, if_false, availIdx, ask_bind, done_bind, stays_ask] at upheld
  obtain ⟨contained, continues⟩ := upheld
  have checked := continues lastAvailIdx
  rw [if_neg (by simp)] at checked
  simp only [availEmpty, availIdx, usedFlags, setUsedFlags, ask_bind, done_bind, stays_ask]
    at checked
  have empty := checked.2 lastAvailIdx
  have full := checked.2 (lastAvailIdx + 1)
  rw [if_pos rfl] at empty
  rw [if_neg ne] at full
  simp only [ask_bind, stays_ask] at empty
  exact ⟨contained, empty.1, full⟩

theorem Confined.num : vq.vring.num ≠ 0 := by
  intro zero
  have upheld := (confined.take mappedRing 0 .single).2.2
  simp only [takeAvailBuf, modulo, zero, if_true, ask_bind, stays_ask] at upheld
  exact upheld.1

theorem Confined.chain (lastAvailIdx : UInt16) :
    RingOp.Contained vq.vring base mapped (.availRing (lastAvailIdx.toUInt32 % vq.vring.num)) ∧
      ∀ head : UInt16, ¬vq.vring.num ≤ head.toUInt32 →
        Stays vq.vring base mapped (walkChain width vq.vring.num head { VqueueBuf.single with head }) := by
  have upheld := (confined.take mappedRing lastAvailIdx .single).2.2
  simp only [takeAvailBuf, modulo, confined.num mappedRing, if_false, pure_eq, done_bind,
    availRing, ask_bind, stays_ask] at upheld
  refine ⟨upheld.1, fun head below => ?_⟩
  have stays := upheld.2 head
  rw [if_neg below] at stays
  exact stays.of_bind

theorem Confined.desc {index : UInt16} (below : ¬vq.vring.num ≤ index.toUInt32) :
    RingOp.Contained vq.vring base mapped (.descFlags index) ∧ RingOp.Contained vq.vring base mapped (.descLen index) ∧
      RingOp.Contained vq.vring base mapped (.descAddr index) ∧
      RingOp.Contained vq.vring base mapped (.descNext index) := by
  have upheld := (confined.chain mappedRing 0).2 index below
  unfold walkChain at upheld
  simp only [below, if_false, descFlags, ask_bind, done_bind, stays_ask] at upheld
  obtain ⟨flags, continues⟩ := upheld
  have rest := continues 0
  rw [dif_pos (by simp [VqueueBuf.iovsFor, writes, VqueueBuf.single])] at rest
  simp only [descLen, descAddr, descNext, ask_bind, done_bind, stays_ask] at rest
  exact ⟨flags, rest.1, (rest.2 0).1, (((rest.2 0).2 0).2 0).1⟩

theorem Confined.used (idx : UInt16) : RingOp.Contained vq.vring base mapped .usedIdx ∧
      RingOp.Contained vq.vring base mapped (.setUsedId (idx.toUInt32 % vq.vring.num) 0) ∧
      RingOp.Contained vq.vring base mapped (.setUsedLen (idx.toUInt32 % vq.vring.num) 0) := by
  have positive := confined.num mappedRing
  have below : ¬vq.vring.num ≤ (0 : UInt16).toUInt32 := by
    rw [le_iff_toNat_le]
    intro zero
    exact positive (UInt32.toNat.inj (by simpa using zero))
  have upheld := confined.add 0 0
  simp only [vqueueAddBufLocked, mappedRing, below, if_false, usedIdx, ask_bind, done_bind, stays_ask] at upheld
  obtain ⟨contained, continues⟩ := upheld
  have rest := continues idx
  simp only [modulo, positive, if_false, pure_eq, done_bind, setUsedId, setUsedLen, ask_bind, stays_ask] at rest
  exact ⟨contained, rest.1, (rest.2 ()).1⟩

end

end

theorem slot_of_lt {vring : Vring width} {slot : Nat} (below : slot < vring.reach) :
    ((UInt16.ofNat slot).toUInt32 % vring.num).toNat = slot ∧
      ¬vring.num ≤ (UInt16.ofNat slot).toUInt32 ∧ (UInt16.ofNat slot).toNat = slot := by
  unfold Vring.reach at below
  have value : (UInt16.ofNat slot).toNat = slot := UInt16.toNat_ofNat_of_lt' (show slot < 65536 by omega)
  refine ⟨?_, ?_, value⟩
  · rw [UInt32.toNat_mod, UInt16.toNat_toUInt32, value, Nat.mod_eq_of_lt (by omega)]
  · rw [UInt32.le_iff_toNat_le, UInt16.toNat_toUInt32, value]
    omega

theorem entries_end {start stride limit count : Nat} (starts : start ≤ limit)
    (follows : ∀ slot < count, start + stride * slot ≤ limit → start + stride * slot + stride ≤ limit) :
    start + stride * count ≤ limit := by
  induction count with
  | zero => exact starts
  | succ count ih =>
  have before := ih fun slot below => follows slot (by omega)
  have last := follows count (by omega) before
  rw [Nat.mul_succ]
  omega

theorem Confined.fits (confined : Confined vq base mapped) (spot : Spot base mapped) (mappedRing : vq.vringAddr ≠ 0)
    (table : vq.vring.desc = base) : Fits vq.vring base mapped := by
  obtain ⟨availIdx, usedFlags, _⟩ := confined.take mappedRing 0 .single
  obtain ⟨usedIdx, _⟩ := confined.used mappedRing 0
  obtain ⟨availStart, availRing⟩ := start_of_within spot availIdx
  have usedStart : base.toNat ≤ vq.vring.used.toNat := by
    have starts := usedFlags.1
    simpa [RingOp.place, Nat.mod_eq_of_lt vq.vring.used.isLt] using starts
  have usedRing := (start_of_within spot usedIdx).2
  have descEnd : vq.vring.desc.toNat + 16 * vq.vring.reach ≤ base.toNat + mapped := by
    apply entries_end (by rw [table]; omega)
    intro slot below before
    obtain ⟨_, inside, value⟩ := slot_of_lt below
    obtain ⟨flags, len, addr, next⟩ := confined.desc mappedRing inside
    have afterAddr := le_of_within spot (by omega) addr
    have afterLen := le_of_within spot (by omega) len
    have afterFlags := le_of_within spot (by omega) flags
    have afterNext := le_of_within spot (by omega) next
    omega
  have availEnd : vq.vring.avail.toNat + 4 + 2 * vq.vring.reach ≤ base.toNat + mapped := by
    apply entries_end (by omega)
    intro slot below before
    have entry := (confined.chain mappedRing (.ofNat slot)).1
    simp only [RingOp.Contained, RingOp.place, (slot_of_lt below).1] at entry
    have after := le_of_within spot (by omega) entry
    omega
  have usedEnd : vq.vring.used.toNat + 4 + 8 * vq.vring.reach ≤ base.toNat + mapped := by
    apply entries_end (by omega)
    intro slot below before
    obtain ⟨_, id, len⟩ := confined.used mappedRing (.ofNat slot)
    simp only [RingOp.Contained, RingOp.place, (slot_of_lt below).1] at id len
    have afterId := le_of_within spot (by omega) id
    have afterLen := le_of_within spot (by omega) len
    omega
  exact ⟨confined.num mappedRing, descEnd, availStart, availEnd, usedStart, usedEnd⟩

end Necessary

/-!
## The layout of a regular ring
-/

section Layout

theorem ulong_eq_cast (value : UInt32) : ulong width value = (value.toNat : BitVec width) := by
  apply eq_of_toNat_eq
  simp [ulong]

def mappedSize (width : Nat) (vring : FwRscVdevVring) : Nat :=
  (roundUpPage (ulong width (vringSize vring.num (ulong width vring.align)))).toNat

/-- A ring that is not empty, an alignment that divides the page size, and sizes
that are below the range of `unsigned int`. -/
structure Regular (vring : FwRscVdevVring) : Prop where
  num : vring.num ≠ 0
  align : ∃ bits ≤ 12, vring.align.toNat = 2 ^ bits
  size : 26 * vring.num.toNat + vring.align.toNat + 4106 < 2 ^ 32

theorem ulong_toNat (wide : 32 ≤ width) (value : UInt32) : (ulong width value).toNat = value.toNat := by
  have range : 2 ^ 32 ≤ 2 ^ width := Nat.pow_le_pow_right (by decide) wide
  have small := value.toNat_lt
  rw [ulong_eq_cast, cast_toNat (by omega)]

section

variable (wide : 32 ≤ width) {vring : FwRscVdevVring} {bits : Nat}
  (power : vring.align.toNat = 2 ^ bits)
  (size : 26 * vring.num.toNat + vring.align.toNat + 4106 < 2 ^ 32)
include wide power size

theorem vringSize_toNat : (vringSize vring.num (ulong width vring.align)).toNat =
      nextMultiple bits (18 * vring.num.toNat + 6) + 6 + 8 * vring.num.toNat := by
  have range : 2 ^ 32 ≤ 2 ^ width := Nat.pow_le_pow_right (by decide) wide
  have bounds := nextMultiple_bounds bits (18 * vring.num.toNat + 6)
  have more : (3 + vring.num).toNat = 3 + vring.num.toNat := by
    exact Nat.mod_eq_of_lt (by simp; omega)
  have tables : 16 * ulong width vring.num + 2 * ulong width (3 + vring.num) =
      ((18 * vring.num.toNat + 6 : Nat) : BitVec width) := by
    rw [ulong_eq_cast, ulong_eq_cast, more]
    push_cast
    ring
  have value : ((18 * vring.num.toNat + 6 : Nat) : BitVec width).toNat =
      18 * vring.num.toNat + 6 := cast_toNat (by omega)
  have aligned : up ((18 * vring.num.toNat + 6 : Nat) : BitVec width) (ulong width vring.align) =
      ((nextMultiple bits (18 * vring.num.toNat + 6) : Nat) : BitVec width) := by
    apply eq_of_toNat_eq
    rw [up_toNat (by omega) (by rw [ulong_toNat wide, power]) (by omega), value, cast_toNat (by omega)]
  have total : (up ((18 * vring.num.toNat + 6 : Nat) : BitVec width) (ulong width vring.align) +
      2 * 3 + 8 * ulong width vring.num) =
      ((nextMultiple bits (18 * vring.num.toNat + 6) + 6 + 8 * vring.num.toNat : Nat) : BitVec width) := by
    rw [aligned, ulong_eq_cast]
    push_cast
    ring
  unfold vringSize
  dsimp only
  rw [tables, total, toNat_ofBitVec, toNat_setWidth, cast_toNat (by omega), Nat.mod_eq_of_lt (by omega)]

theorem mappedSize_eq : mappedSize width vring =
      nextMultiple 12 (nextMultiple bits (18 * vring.num.toNat + 6) + 6 + 8 * vring.num.toNat) := by
  have range : 2 ^ 32 ≤ 2 ^ width := Nat.pow_le_pow_right (by decide) wide
  have bounds := nextMultiple_bounds bits (18 * vring.num.toNat + 6)
  have page : (BitVec.ofNat width pageSize).toNat = 2 ^ 12 := by
    exact Nat.mod_eq_of_lt (by unfold pageSize; omega)
  have value : (ulong width (vringSize vring.num (ulong width vring.align))).toNat =
      nextMultiple bits (18 * vring.num.toNat + 6) + 6 + 8 * vring.num.toNat := by
    rw [ulong_toNat wide, vringSize_toNat wide power size]
  unfold mappedSize roundUpPage
  rw [up_toNat (by omega) page (by omega), value]

end

theorem Regular.fits {vring : FwRscVdevVring} (regular : Regular vring) {base : BitVec width}
    (spot : Spot base (mappedSize width vring)) :
    Fits (vringInit vring.num base (ulong width vring.align)) base (mappedSize width vring) := by
  obtain ⟨num, ⟨bits, small, power⟩, size⟩ := regular
  have wide := spot.wide
  have ends := spot.ends
  have mapped := mappedSize_eq wide power size
  have bounds := nextMultiple_bounds bits (18 * vring.num.toNat + 6)
  have pages := nextMultiple_bounds 12 (nextMultiple bits (18 * vring.num.toNat + 6) + 6 + 8 * vring.num.toNat)
  have divides : 2 ^ bits ∣ 2 ^ 12 := pow_dvd_pow 2 small
  have baseAligned : 2 ^ bits ∣ base.toNat := divides.trans (Nat.dvd_of_mod_eq_zero spot.aligned)
  -- The mapping ends a whole step behind the start of the used ring.
  have step : nextMultiple bits (18 * vring.num.toNat + 6) + 2 ^ bits ≤ mappedSize width vring := by
    apply add_step_le (nextMultiple_dvd _ _) _ (by omega)
    rw [mapped]
    exact divides.trans (nextMultiple_dvd _ _)
  have avail : (base + ulong width vring.num * 16).toNat = base.toNat + 16 * vring.num.toNat := by
    have sum : base + ulong width vring.num * 16 = ((base.toNat + 16 * vring.num.toNat : Nat) : BitVec width) := by
      rw [ulong_eq_cast]
      push_cast
      rw [cast_self]
      ring
    rw [sum, cast_toNat (by omega)]
  have sum : base + ulong width vring.num * 16 + 4 + 2 * ulong width vring.num + 2 =
      ((base.toNat + (18 * vring.num.toNat + 6) : Nat) : BitVec width) := by
    rw [ulong_eq_cast]
    push_cast
    rw [cast_self]
    ring
  have value : ((base.toNat + (18 * vring.num.toNat + 6) : Nat) : BitVec width).toNat =
      base.toNat + (18 * vring.num.toNat + 6) := cast_toNat (by omega)
  have used : (vringInit vring.num base (ulong width vring.align)).used.toNat =
      base.toNat + nextMultiple bits (18 * vring.num.toNat + 6) := by
    unfold vringInit
    dsimp only
    rw [sum, up_toNat (by omega) (by rw [ulong_toNat wide, power]) (by omega), value, nextMultiple_add baseAligned]
  have reach : (vringInit vring.num base (ulong width vring.align)).reach ≤ vring.num.toNat := min_le_left _ _
  constructor
  · exact num
  · show base.toNat + _ ≤ _
    omega
  · show _ ≤ (base + ulong width vring.num * 16).toNat + 2
    omega
  · show (base + ulong width vring.num * 16).toNat + 4 + _ ≤ _
    omega
  · omega
  · omega

end Layout

/-!
## The rings of a device
-/

section Probe

variable {vq ready : Vqueue width} {vring : FwRscVdevVring} {base : BitVec width}

theorem probeVring_some (started : probeVring vq vring (some base) = some ready) :
    (mappedSize width vring = 0 ∧ ready.vringAddr = 0) ∨ (mappedSize width vring ≠ 0 ∧ ready.vringAddr = base ∧
        ready.vring = vringInit vring.num base (ulong width vring.align)) := by
  unfold probeVring vqueueInit vmmAllocPhysical at started
  dsimp only at started
  split at started
  · by_cases empty : roundUpPage (ulong width (vringSize vring.num (ulong width vring.align))) = 0
    · rw [if_pos empty] at started
      cases started
      exact .inl ⟨by simp [mappedSize, empty], rfl⟩
    have some : mappedSize width vring ≠ 0 := fun zero => empty (eq_of_toNat_eq (by simpa [mappedSize] using zero))
    rw [if_neg empty] at started
    split at started
    · contradiction
    rename_i found
    split at found
    · cases found
      cases started
      exact .inr ⟨some, rfl, rfl⟩
    · contradiction
  · contradiction

/-- The exact condition for the accesses of the device to stay inside what
`vqueue_init` maps, and the rings of which it holds by their shape. -/
theorem probeVring_confined_iff {descr : TipcVdevDescr} {ring : Fin 2} (_accepted : validateDescr descr = true)
    (started : probeVring vq (descr.vrings ring) (some base) = some ready)
    (spot : Spot base (mappedSize width (descr.vrings ring))) :
    (Confined ready base (mappedSize width (descr.vrings ring)) ↔ mappedSize width (descr.vrings ring) = 0 ∨ Fits
          (vringInit (descr.vrings ring).num base (ulong width (descr.vrings ring).align))
          base (mappedSize width (descr.vrings ring))) ∧
      (Regular (descr.vrings ring) → Confined ready base (mappedSize width (descr.vrings ring))) := by
  have exact : Confined ready base (mappedSize width (descr.vrings ring)) ↔
      mappedSize width (descr.vrings ring) = 0 ∨ Fits
          (vringInit (descr.vrings ring).num base (ulong width (descr.vrings ring).align))
          base (mappedSize width (descr.vrings ring)) := by
    rcases probeVring_some started with closed | opened
    · obtain ⟨empty, unmapped⟩ := closed
      refine ⟨fun _ => .inl empty, fun _ => ⟨fun _ _ => ?_, fun _ _ => ?_⟩⟩
      · simp [vqueueGetAvailBufLocked, unmapped]
      · simp [vqueueAddBufLocked, unmapped]
    obtain ⟨some, address, layout⟩ := opened
    have mappedRing : ready.vringAddr ≠ 0 := address ▸ spot.nonzero
    have table : ready.vring.desc = base := by rw [layout]; rfl
    rw [← layout]
    constructor
    · exact fun confined => .inr (confined.fits spot mappedRing table)
    intro condition
    have fits := condition.resolve_left some
    refine ⟨fun lastAvailIdx buf => ?_, fits.add_stays spot⟩
    have fitsToo : Fits ({ ready with lastAvailIdx } : Vqueue width).vring base _ := fits
    exact fitsToo.get_stays spot table buf
  exact ⟨exact, fun regular => exact.mpr (.inr (regular.fits spot))⟩

/-- A queue as `calloc` leaves it. -/
def Vqueue.fresh (width : Nat) : Vqueue width := ⟨⟨0, 0, 0, 0⟩, 0, 0, 0⟩

/-- A description with a ring without entries, and a ring whose size wraps around to
one page. -/
def TipcVdevDescr.hostile : TipcVdevDescr :=
  { type := rscVdev
    id := virtioIdTipc
    status := driverReady
    numOfVrings := tipcVqNum
    vrings := fun ring =>
      if ring = 0 then ⟨0x1000, 4096, 0, 0⟩ else ⟨0x1000, 4096, 165191050, 0⟩ }

def TipcVdevDescr.usual : TipcVdevDescr :=
  { TipcVdevDescr.hostile with vrings := fun _ => ⟨0x1000, 4096, 32, 0⟩ }

theorem spot_page (mapped : Nat) (small : mapped ≤ 0x10000) : Spot (0x80000000#32) mapped :=
  ⟨by decide, by decide, by decide, by simp; omega⟩

/-- The ring of no entries divides by zero, the other one reads behind its page. -/
theorem hostile_unconfined : validateDescr .hostile = true ∧ ∀ ring, ∃ ready,
        Spot (0x80000000#32) (mappedSize 32 (TipcVdevDescr.hostile.vrings ring)) ∧
          probeVring (.fresh 32) (TipcVdevDescr.hostile.vrings ring) (some 0x80000000) = some ready ∧
          ¬Confined ready 0x80000000 (mappedSize 32 (TipcVdevDescr.hostile.vrings ring)) := by
  refine ⟨by decide, fun ring => ?_⟩
  match ring with
  | 0 =>
    refine ⟨_, spot_page _ (by decide), rfl, fun confined => ?_⟩
    exact absurd rfl (confined.num (by decide))
  | 1 =>
  refine ⟨_, spot_page _ (by decide), rfl, fun confined => ?_⟩
  have fits := confined.fits (spot_page _ (by decide)) (by decide) rfl
  nomatch fits.desc

theorem usual_confined : ∃ ready, probeVring (.fresh 32) (TipcVdevDescr.usual.vrings 0) (some 0x80000000) = some ready ∧
        Confined ready 0x80000000 (mappedSize 32 (TipcVdevDescr.usual.vrings 0)) := by
  refine ⟨_, rfl, ?_⟩
  have accepted : validateDescr .usual = true := by decide
  have spot : Spot (0x80000000#32) (mappedSize 32 (TipcVdevDescr.usual.vrings 0)) := spot_page _ (by decide)
  apply (probeVring_confined_iff accepted rfl spot).2
  exact ⟨by decide, ⟨12, by decide, by decide⟩, by decide⟩

end Probe

end Trusty.Virtio
