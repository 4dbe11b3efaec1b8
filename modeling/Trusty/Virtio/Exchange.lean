import Trusty.Virtio.Vqueue

/-!
# Exchange of buffers

A virtqueue between a driver that obeys the rules of the ring and the threads of the
tipc device, over any number of probes and resets. The driver may make buffers
available between any two accesses of the device.
-/

namespace Trusty.Virtio

variable {width : Nat}

/-- A ring in memory. `offered` are the heads the driver made available since
the probe, `returned` the entries of the used ring that were published. -/
structure Ring where
  num : Nat
  availIdx : UInt16
  availRing : Nat → UInt16
  usedFlags : UInt16
  usedIdx : UInt16
  usedRing : Nat → UInt32
  offered : List UInt16
  returned : List UInt32

def Ring.fresh (num : Nat) : Ring := ⟨num, 0, fun _ => 0, 0, 0, fun _ => 0, [], []⟩

def Ring.offer (ring : Ring) (head : UInt16) : Ring :=
  { ring with
    availIdx := ring.availIdx + 1
    availRing := Function.update ring.availRing (ring.availIdx.toNat % ring.num) head
    offered := ring.offered ++ [head] }

/-- The driver makes a buffer available, while fewer than `num` are outstanding. -/
inductive Offers : Ring → Ring → Prop where
  | offer {ring : Ring} {head : UInt16} (below : head.toNat < ring.num)
      (room : ring.offered.length < ring.returned.length + ring.num) :
      Offers ring (ring.offer head)

/-- The ring between the device and a driver whose descriptors have the flags
`shape`. Their other fields are free. -/
def driver (shape : UInt16 → Prop) : Interaction.Environment RingOp RingOp.Reply Ring where
  move := Offers
  answer
    | ring, .availIdx, idx, after => idx = ring.availIdx ∧ after = ring
    | ring, .availRing slot, head, after => head = ring.availRing slot.toNat ∧ after = ring
    | ring, .descFlags _, flags, after => shape flags ∧ after = ring
    | ring, .usedFlags, flags, after => flags = ring.usedFlags ∧ after = ring
    | ring, .setUsedFlags flags, _, after => after = { ring with usedFlags := flags }
    | ring, .usedIdx, idx, after => idx = ring.usedIdx ∧ after = ring
    | ring, .setUsedId slot id, _, after =>
      after = { ring with usedRing := Function.update ring.usedRing slot.toNat id }
    | ring, .setUsedIdx idx, _, after =>
      after =
        { ring with
          usedIdx := idx
          returned := ring.returned ++ [ring.usedRing (ring.usedIdx.toNat % ring.num)] }
    | ring, _, _, after => after = ring

inductive Role where
  | rx
  | tx
  deriving DecidableEq, Repr

/-- `MAX_RX_IOVS` and `MAX_TX_IOVS`. -/
def maxIovs : Nat := 1

/-- The buffer that `tipc_rx_thread_func` and `tipc_send_data` pass. -/
def Role.buf (role : Role) (head : UInt16) (inIovs outIovs : List Iov) (inLen outLen : UInt64) :
    VqueueBuf :=
  match role with
  | .rx => ⟨head, ⟨maxIovs, inIovs, inLen⟩, ⟨0, outIovs, outLen⟩⟩
  | .tx => ⟨head, ⟨0, inIovs, inLen⟩, ⟨maxIovs, outIovs, outLen⟩⟩

def VqueueStatus.takes : VqueueStatus → Bool
  | .noError | .notValid | .tooBig => true
  | .channelClosed | .notEnoughBuffer => false

/-- The caller goes on to `vqueue_add_buf`. The receiving thread does so for
every chain it took, `tipc_send_data` only for one without an error. -/
def Role.goesOn : Role → VqueueStatus → Bool
  | .rx, status => status.takes
  | .tx, status => status == .noError

/-- One queue. `taken` are the heads that `vqueue_get_avail_buf` took since the
probe, `held` those whose buffer a thread still has. -/
structure Queue (width : Nat) where
  ring : Ring
  vq : Vqueue width
  taken : List UInt16
  held : List UInt16

/-- A queue as `calloc` leaves it. -/
def Queue.initial (width : Nat) : Queue width := ⟨.fresh 0, ⟨⟨0, 0, 0, 0⟩, 0, 0, 0⟩, [], []⟩

def Queue.afterGet (queue : Queue width) (role : Role) (status : VqueueStatus)
    (vq : Vqueue width) (head : UInt16) (ring : Ring) : Queue width :=
  { ring := ring
    vq := vq
    taken := if status.takes then queue.taken ++ [head] else queue.taken
    held := if role.goesOn status then queue.held ++ [head] else queue.held }

/-- The steps of a queue. `allowed` restricts what a probe may find. -/
inductive Step (role : Role) (shape : UInt16 → Prop) (allowed : Vqueue width → Prop) :
    Queue width → Queue width → Prop where
  | offer {queue ring} (offers : Offers queue.ring ring) :
      Step role shape allowed queue { queue with ring := ring }
  | get {queue head inIovs outIovs inLen outLen status vq buf ring}
      (ran : (vqueueGetAvailBufLocked queue.vq (role.buf head inIovs outIovs inLen outLen)).Runs
        (driver shape) queue.ring (status, vq, buf) ring) :
      Step role shape allowed queue (queue.afterGet role status vq buf.head ring)
  | add {queue head len status ring} (holds : head ∈ queue.held)
      (ran : (vqueueAddBufLocked queue.vq head len).Runs (driver shape) queue.ring status ring) :
      Step role shape allowed queue { queue with ring := ring, held := queue.held.erase head }
  -- The threads have been joined, and hold no buffer.
  | reset {queue} (joined : queue.held = []) :
      Step role shape allowed queue { queue with vq := vqueueDestroy queue.vq }
  | probe {queue vring spot vq} (closed : queue.vq.vringAddr = 0) (found : allowed queue.vq)
      (size : ∃ bits ≤ 15, vring.num.toNat = 2 ^ bits)
      (started : probeVring queue.vq vring spot = some vq) :
      Step role shape allowed queue ⟨.fresh vring.num.toNat, vq, [], []⟩

abbrev Exchanged (role : Role) (shape : UInt16 → Prop) (allowed : Vqueue width → Prop)
    (queue : Queue width) : Prop :=
  Relation.ReflTransGen (Step role shape allowed) (.initial width) queue

end Trusty.Virtio
