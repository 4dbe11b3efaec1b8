import Mathlib

/-!
# The secure tipc device

`tipc_dev.c`: the table of endpoints, and the threads that change it. A section under
`ept_lock` is one step, and so is every access outside of it.
-/

namespace Trusty.Tipc

open Function (update)

/-- Slots of the table, `TIPC_ADDR_MAX_NUM` of them. -/
abbrev Slot := Fin 256

abbrev Chan := Nat

structure Ept where
  remote : UInt32
  chan : Option Chan
  deriving DecidableEq, Repr

/-- The part of `struct tipc_dev` that describes endpoints, with the cookies of
channels. -/
structure Dev where
  epts : Slot → Ept
  inuse : Slot → Bool
  handleList : List Chan
  cookie : Chan → Option Slot

def tipcAddrBase : UInt32 := 1000

def addrToSlot (addr : UInt32) : UInt32 := addr - tipcAddrBase

def slotToAddr (slot : Slot) : UInt32 := .ofNat slot.val + tipcAddrBase

def Dev.bitmapFfz (dev : Dev) : Option Slot :=
  (List.finRange 256).find? fun slot => !dev.inuse slot

def Dev.allocLocalAddr (dev : Dev) (remote : UInt32) (chan : Chan) : UInt32 × Dev :=
  match dev.bitmapFfz with
  | some slot =>
    (slotToAddr slot,
      { dev with
        inuse := update dev.inuse slot true
        epts := update dev.epts slot ⟨remote, some chan⟩ })
  | none => (0, dev)

def Dev.lookupEpt (dev : Dev) (addr : UInt32) : Option Slot :=
  if below : (addrToSlot addr).toNat < 256 then
    if dev.inuse ⟨(addrToSlot addr).toNat, below⟩ then some ⟨(addrToSlot addr).toNat, below⟩
    else none
  else none

def Dev.freeLocalAddr (dev : Dev) (addr : UInt32) : Dev :=
  if below : (addrToSlot addr).toNat < 256 then
    { dev with
      inuse := update dev.inuse ⟨(addrToSlot addr).toNat, below⟩ false
      epts := update dev.epts ⟨(addrToSlot addr).toNat, below⟩ ⟨0, none⟩ }
  else dev

/-- `handle_list_del` and `handle_set_cookie` with no cookie. -/
def Dev.detach (dev : Dev) (chan : Chan) : Dev :=
  { dev with
    handleList := dev.handleList.erase chan
    cookie := update dev.cookie chan none }

/-- The full search of `handle_disc_req`. -/
def Dev.searchEpt (dev : Dev) (remote : UInt32) : Option Slot :=
  (List.finRange 256).find? fun slot => dev.inuse slot && (dev.epts slot).remote == remote

/-- The endpoint that `handle_disc_req` is about. -/
def Dev.findEpt (dev : Dev) (remote target : UInt32) : Option Slot :=
  match dev.lookupEpt target with
  | some slot => if (dev.epts slot).remote = remote then some slot else dev.searchEpt remote
  | none => dev.searchEpt remote

inductive Request where
  | connReq (src : UInt32)
  | discReq (src target : UInt32)
  | data (src dst : UInt32) (payload : List UInt8)
  deriving DecidableEq, Repr

inductive Message where
  | connRsp (target : UInt32) (status : Int) (remote maxMsgSize maxMsgCnt : UInt32)
  | discReq (target : UInt32)
  | data (dst : UInt32) (payload : List UInt8)
  deriving DecidableEq, Repr

/-- What a step of the device exchanges. A message is on behalf of a channel, if
it is not the refusal of a connection. -/
inductive Label where
  | internal
  | receive (request : Request)
  | emit (chan : Option Chan) (message : Message)
  deriving DecidableEq, Repr

def errNoResources : Int := -41

def ipcChanMaxBufSize : UInt32 := 4096

inductive Rx where
  | idle
  | opened (remote : UInt32) (chan : Chan)
  | placed (addr : UInt32) (chan : Chan)
  | tagged (chan : Chan)
  | refusing (addr remote : UInt32)
  deriving DecidableEq, Repr

inductive PollEvent where
  | ready
  | msg
  | hup
  | other
  deriving DecidableEq, Repr

inductive Tx where
  | waiting
  | woken (chan : Chan) (event : PollEvent)
  | forwarding (chan : Chan) (remote : UInt32)
  | responding (chan : Chan) (addr remote : UInt32)
  | disconnecting (chan : Chan) (addr remote : UInt32)
  deriving DecidableEq, Repr

structure Sent where
  chan : Chan
  src : UInt32
  dst : UInt32
  deriving DecidableEq, Repr

/-- What the threads share: the device, the number of channels that were opened,
and what was closed and sent so far, the latest first. -/
structure Core where
  dev : Dev
  opened : Nat
  closings : List Chan
  sends : List Sent

variable (core : Core)

def Core.close (slot : Slot) (chan : Chan) : Core :=
  { core with
    dev := (core.dev.detach chan).freeLocalAddr (slotToAddr slot)
    closings := chan :: core.closings }

/-- The locked section of `handle_conn_req`. -/
def Core.place (remote : UInt32) (chan : Chan) : Core × Rx :=
  let (addr, dev) := core.dev.allocLocalAddr remote chan
  if addr = 0 then
    ({ core with dev := dev, closings := chan :: core.closings }, .refusing addr remote)
  else
    ({ core with dev := dev }, .placed addr chan)

/-- `handle_set_cookie` in `handle_conn_req`, which looks the endpoint up again. -/
def Core.tag (addr : UInt32) (chan : Chan) : Core :=
  { core with
    dev := { core.dev with cookie := update core.dev.cookie chan (core.dev.lookupEpt addr) } }

def Core.list (chan : Chan) : Core :=
  { core with dev := { core.dev with handleList := core.dev.handleList ++ [chan] } }

def Core.discReq (remote target : UInt32) : Core :=
  match core.dev.findEpt remote target with
  | some slot =>
    match (core.dev.epts slot).chan with
    | some chan => core.close slot chan
    | none => { core with dev := core.dev.freeLocalAddr (slotToAddr slot) }
  | none => core

def Core.chanMsg (remote addr : UInt32) : Core :=
  match core.dev.lookupEpt addr with
  | some slot =>
    if (core.dev.epts slot).remote = remote then
      match (core.dev.epts slot).chan with
      | some chan => { core with sends := ⟨chan, remote, addr⟩ :: core.sends }
      | none => core
    else core
  | none => core

/-- The steps of `tipc_rx_thread_func`. Malformed messages change nothing. -/
inductive RxStep : Core → Rx → Label → Core → Rx → Prop where
  | connReq {core remote} :
      RxStep core .idle (.receive (.connReq remote)) { core with opened := core.opened + 1 }
        (.opened remote core.opened)
  | noPort {core remote} :
      RxStep core .idle (.receive (.connReq remote)) core (.refusing 0 remote)
  | place {core remote chan} :
      RxStep core (.opened remote chan) .internal (core.place remote chan).1
        (core.place remote chan).2
  | tag {core addr chan} :
      RxStep core (.placed addr chan) .internal (core.tag addr chan) (.tagged chan)
  | list {core chan} : RxStep core (.tagged chan) .internal (core.list chan) .idle
  | refuse {core addr remote} :
      RxStep core (.refusing addr remote)
        (.emit none (.connRsp remote errNoResources addr 0 0)) core .idle
  | lost {core addr remote} : RxStep core (.refusing addr remote) .internal core .idle
  | discReq {core remote target} :
      RxStep core .idle (.receive (.discReq remote target)) (core.discReq remote target) .idle
  | chanMsg {core remote addr payload} :
      RxStep core .idle (.receive (.data remote addr payload)) (core.chanMsg remote addr) .idle

/-- The locked section of `handle_hup`. -/
def Core.hup (chan : Chan) : Core × Tx :=
  match core.dev.cookie chan with
  | some slot =>
    (core.close slot chan,
      .disconnecting chan (slotToAddr slot) (core.dev.epts slot).remote)
  | none => (core, .waiting)

/-- The locked section of `handle_ready`. -/
def Core.ready (chan : Chan) : Tx :=
  match core.dev.cookie chan with
  | some slot => .responding chan (slotToAddr slot) (core.dev.epts slot).remote
  | none => .waiting

/-- The locked section of `handle_tx_msg`. -/
def Core.txMsg (chan : Chan) : Tx :=
  match core.dev.cookie chan with
  | some slot => .forwarding chan (core.dev.epts slot).remote
  | none => .waiting

/-- The steps of `tipc_tx_thread_func`. A message may be lost for lack of a
buffer or of the queue. -/
inductive TxStep : Core → Tx → Label → Core → Tx → Prop where
  | wake {core chan event} (listed : chan ∈ core.dev.handleList) :
      TxStep core .waiting .internal core (.woken chan event)
  | ready {core chan} : TxStep core (.woken chan .ready) .internal core (core.ready chan)
  | msg {core chan} : TxStep core (.woken chan .msg) .internal core (core.txMsg chan)
  | hup {core chan} :
      TxStep core (.woken chan .hup) .internal (core.hup chan).1 (core.hup chan).2
  | other {core chan} : TxStep core (.woken chan .other) .internal core .waiting
  | respond {core chan addr remote} :
      TxStep core (.responding chan addr remote)
        (.emit (some chan) (.connRsp remote 0 addr ipcChanMaxBufSize 1)) core .waiting
  | unanswered {core chan addr remote} :
      TxStep core (.responding chan addr remote) .internal core .waiting
  | disconnect {core chan addr remote} :
      TxStep core (.disconnecting chan addr remote) (.emit (some chan) (.discReq remote)) core
        .waiting
  | unnoticed {core chan addr remote} :
      TxStep core (.disconnecting chan addr remote) .internal core .waiting
  | forward {core chan remote payload} :
      TxStep core (.forwarding chan remote) (.emit (some chan) (.data remote payload)) core
        (.forwarding chan remote)
  | drained {core chan remote} : TxStep core (.forwarding chan remote) .internal core .waiting

/-- The loop body of `tipc_dev_reset`. -/
def Core.resetSlot (slot : Slot) : Core :=
  if core.dev.inuse slot then
    match (core.dev.epts slot).chan with
    | some chan => core.close slot chan
    | none => core
  else core

/-- The locked section of `tipc_dev_reset`. -/
def Core.resetAll : Core := (List.finRange 256).foldl Core.resetSlot core

/-- Where the thread is that serves the calls of the non-secure side: in
`tipc_dev_probe` or `tipc_dev_reset`, or between calls. -/
inductive Caller where
  | idle
  | probing
  | joiningRx
  | closing
  | joiningTx
  | returned
  deriving DecidableEq, Repr

/-- The device with its threads. Each probe creates a thread of either kind, and
`dev->rx_thread` and `dev->tx_thread` are those of the last probe. `active` is
`VDEV_STATE_ACTIVE`. -/
structure System where
  core : Core
  rx : Nat → Option Rx
  tx : Nat → Option Tx
  probes : Nat
  active : Bool
  rxStop : Bool
  txStop : Bool
  caller : Caller

def Dev.start : Dev := ⟨fun _ => ⟨0, none⟩, fun _ => false, [], fun _ => none⟩

def System.start : System where
  core := ⟨.start, 0, [], []⟩
  rx _ := none
  tx _ := none
  probes := 0
  active := false
  rxStop := false
  txStop := false
  caller := .idle

/-- The steps of the device. If `offline` is set, sending the message that the
device is online may fail. -/
inductive Step (offline : Bool) : System → Label → System → Prop where
  | rx {system label core} {before after : Rx} (id : Nat) (is : system.rx id = some before)
      (step : RxStep system.core before label core after) :
      Step offline system label { system with core := core, rx := update system.rx id (some after) }
  | rxExit {system} (id : Nat) (is : system.rx id = some .idle) (stop : system.rxStop = true) :
      Step offline system .internal { system with rx := update system.rx id none }
  | tx {system label core} {before after : Tx} (id : Nat) (is : system.tx id = some before)
      (step : TxStep system.core before label core after) :
      Step offline system label { system with core := core, tx := update system.tx id (some after) }
  | txExit {system} (id : Nat) (is : system.tx id = some .waiting) (stop : system.txStop = true)
      (empty : system.core.dev.handleList = []) :
      Step offline system .internal { system with tx := update system.tx id none }
  | probe {system} (is : system.caller = .idle) (reset : system.active = false) :
      Step offline system .internal
        { system with
          probes := system.probes + 1
          rx := update system.rx (system.probes + 1) (some .idle)
          tx := update system.tx (system.probes + 1) (some .waiting)
          caller := .probing }
  | online {system} (is : system.caller = .probing) :
      Step offline system .internal { system with active := true, caller := .idle }
  | offline {system} (allowed : offline = true) (is : system.caller = .probing) :
      Step offline system .internal { system with caller := .idle }
  | resetIdle {system} (is : system.caller = .idle) (reset : system.active = false) :
      Step offline system .internal { system with caller := .returned }
  | reset {system} (is : system.caller = .idle) (active : system.active = true) :
      Step offline system .internal { system with rxStop := true, caller := .joiningRx }
  | joinedRx {system} (is : system.caller = .joiningRx) (gone : system.rx system.probes = none) :
      Step offline system .internal
        { system with rxStop := false, txStop := true, caller := .closing }
  | close {system} (is : system.caller = .closing) :
      Step offline system .internal
        { system with core := system.core.resetAll, caller := .joiningTx }
  | joinedTx {system} (is : system.caller = .joiningTx) (gone : system.tx system.probes = none) :
      Step offline system .internal
        { system with txStop := false, active := false, caller := .returned }
  | return {system} (is : system.caller = .returned) :
      Step offline system .internal { system with caller := .idle }

inductive Reached (offline : Bool) : System → Prop where
  | start : Reached offline .start
  | step {system label after} (reached : Reached offline system)
      (step : Step offline system label after) : Reached offline after

end Trusty.Tipc
