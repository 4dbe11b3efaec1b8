import Trusty.Tipc.SendData
import Trusty.Virtio.VringProperties

/-!
# Probing a device

`tipc_dev_probe` takes two queues, two threads and the handshake in turn.
Only the queues are given back when a later step fails.
-/

namespace Trusty.Tipc

open Function (update)

open Virtio (Vqueue FwRscVdevVring TipcVdevDescr validateDescr probeVring vqueueDestroy)

variable {width : Nat}

def errNoMemory : Int := -5

def errNotValid : Int := -7

def tipcCtrlAddr : UInt32 := 53

/-- `_go_online`, where `added` is what `vqueue_add_buf` returns. -/
def goOnline (rounds : List Round) (added : Int) : Option Int :=
  match tipcSendData tipcCtrlAddr tipcCtrlAddr (some (txDataCb [1, 0, 0, 0, 0, 0, 0, 0])) 8 true
    rounds with
  | .waiting => none
  | .failed ret => some ret
  | .added _ _ => some added

/-- What a probe changes of `struct tipc_dev`, the number of threads that run, and the queues that
`vqueue_init` has given to `free`. -/
structure ProbeDev (width : Nat) where
  active : Bool
  vqs : Fin 2 → Vqueue width
  rxThreads : Nat
  txThreads : Nat
  freed : List (Fin 2)

structure ProbeCalls (width : Nat) where
  spots : Fin 2 → Option (BitVec width)
  rxThread : Bool
  txThread : Bool
  rounds : List Round
  added : Int

/-- `pa64 == (paddr_t)pa64`. -/
def addressFits (width : Nat) (vring : FwRscVdevVring) : Bool :=
  let pa64 := (vring.reserved.toUInt64 <<< 32 ||| vring.da.toUInt64).toBitVec
  pa64 == (pa64.setWidth width).setWidth 64

@[mk_iff]
structure ProbeDev.Initial (dev : ProbeDev width) : Prop where
  reset : dev.active = false
  unmapped : ∀ ring, (dev.vqs ring).vringAddr = 0
  rx : dev.rxThreads = 0
  tx : dev.txThreads = 0
  kept : dev.freed = []

@[mk_iff]
structure ProbeDev.Online (dev : ProbeDev width) : Prop where
  active : dev.active = true
  mapped : ∀ ring, (dev.vqs ring).vringAddr ≠ 0
  rx : dev.rxThreads = 1
  tx : dev.txThreads = 1
  kept : dev.freed = []

def ProbeDev.Settled (ret : Int) (dev : ProbeDev width) : Prop :=
  ret = 0 ∧ dev.Online ∨ ret ≠ 0 ∧ dev.Initial

/-- The outcomes of the calls of a probe that do no harm. A queue may only be refused before
`vqueue_init`. If both are there, the threads and the queues come with the handshake. -/
def ProbeCalls.Granted (calls : ProbeCalls width) (dev : ProbeDev width) (descr : TipcVdevDescr) :
    Prop :=
  validateDescr descr = true →
    match probeVring (dev.vqs 0) (descr.vrings 0) (calls.spots 0),
      probeVring (dev.vqs 1) (descr.vrings 1) (calls.spots 1) with
    | none, _ => addressFits width (descr.vrings 0) = false
    | some _, none => addressFits width (descr.vrings 1) = false
    | some tx, some rx =>
      if goOnline calls.rounds calls.added = some 0 then
        (tx.vringAddr ≠ 0 ∧ rx.vringAddr ≠ 0) ∧ calls.rxThread = true ∧ calls.txThread = true
      else
        (tx.vringAddr = 0 ∧ rx.vringAddr = 0) ∧ calls.rxThread = false ∧ calls.txThread = false

variable {dev next : ProbeDev width} {descr : TipcVdevDescr} {calls : ProbeCalls width} {ret : Int}

section Queue

variable {ring : Fin 2} {vring : FwRscVdevVring} {spot : Option (BitVec width)}

end Queue

def ProbeDev.fresh : ProbeDev 32 := ⟨false, fun _ => .fresh 32, 0, 0, []⟩

end Trusty.Tipc
