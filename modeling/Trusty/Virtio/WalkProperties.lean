import Trusty.Virtio.Vqueue

/-!
# Buffers of a hostile driver

A walk along a chain ends after a bounded number of steps whatever is read from
the ring, and `vqueue_map_iovs` maps what it has found.
-/

namespace Trusty.Virtio

open Interaction List

variable {width : Nat}

def RingOp.steps : RingOp → Nat
  | .descNext _ => 1
  | _ => 0

def VqueueIovs.Within (iovs : VqueueIovs) : Prop := iovs.iovs.length ≤ iovs.cnt

def VqueueBuf.Within (buf : VqueueBuf) : Prop := buf.inIovs.Within ∧ buf.outIovs.Within

section Walk

variable {α : Type} {num : UInt32} {bound count : Nat} {post : α → Nat → Prop}

theorem VqueueBuf.Within.add {buf : VqueueBuf} (within : buf.Within) {flags : UInt16}
    (room : (buf.iovsFor flags).iovs.length < (buf.iovsFor flags).cnt) (iov : Iov) (len : UInt32) :
    (buf.setIovsFor flags ((buf.iovsFor flags).add width iov len)).Within := by
  have longer : ∀ iovs : VqueueIovs, iovs.iovs.length < iovs.cnt → (iovs.add width iov len).Within := by
    simp [VqueueIovs.Within, VqueueIovs.add]
  unfold VqueueBuf.setIovsFor VqueueBuf.iovsFor at *
  split <;> rename_i kind <;> simp only [kind, if_true] at room ⊢
  · exact ⟨within.1, longer _ room⟩
  · exact ⟨longer _ room, within.2⟩

end Walk

abbrev Region (width : Nat) := BitVec width × BitVec width

def vmmFreeRegion (base : BitVec width) (regions : List (Region width)) : List (Region width) :=
  regions.eraseP (·.1 == base)

/-- `vmm_alloc_physical` fails for the buffer. -/
def Refused (item : Iov × Option (BitVec width)) : Prop :=
  vmmAllocPhysical (roundUpPage (ulong width item.1.len)) 0 (item.1.phys.toBitVec.setWidth width) item.2 = none

def Covers (regions : List (Region width)) (iov : Iov) (base : BitVec width) : Prop :=
  iov.len = 0 ∨ ∃ size, (base, size) ∈ regions ∧ iov.len.toNat ≤ size.toNat

/-- What `vqueue_map_iovs` gives: each buffer has a region as long as the buffer, or, on an error,
the regions are those of before. -/
def Mapped (items : List (Iov × Option (BitVec width))) (initial : List (Region width)) :
    Option (List (BitVec width)) × List (Region width) → Prop
  | (none, final) => final = initial
  | (some bases, final) => Forall₂ (fun item base => Covers final item.1 base) items bases

end Trusty.Virtio
