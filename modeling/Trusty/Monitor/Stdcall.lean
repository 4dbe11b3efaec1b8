import Mathlib

/-!
# Standard calls

`sm.c`: the normal world enters with an SMC on any CPU, one standard call is handled
at a time by its own thread, and a CPU returns when it is interrupted, idle or has
the result. Threads of the Linux driver `trusty.c` issue the calls under a lock.

Fast interrupts, which leave in the middle of a call, are not modelled.
-/

namespace Trusty.Monitor.Stdcall

open Function (update)

variable {Cpu Thread : Type} [DecidableEq Cpu] [DecidableEq Thread]

/-- `smc32_args_t`. -/
structure SmcArgs where
  smcNr : BitVec 32
  params : List (BitVec 32)
  deriving DecidableEq, Repr

def smcScRestartLast : BitVec 32 := 60 <<< 24
def smcScNop : BitVec 32 := (60 <<< 24) ||| 3

def smErrInterrupted : Int := -3
def smErrUnexpectedRestart : Int := -4
def smErrBusy : Int := -5
def smErrInternalFailure : Int := -7
def smErrFiqInterrupted : Int := -12
def smErrCpuIdle : Int := -13
def smErrNopInterrupted : Int := -14
def smErrNopDone : Int := -15

def trustyApiVersionSmp : Nat := 2
def trustyApiVersionCurrent : Nat := 2

/-- `struct sm_std_call_state`; no CPU is `-1`. -/
structure StdCallState (Cpu : Type) where
  signalled : Bool
  args : SmcArgs
  ret : Int
  done : Bool
  activeCpu : Option Cpu
  initialCpu : Option Cpu
  lastCpu : Option Cpu
  restartCount : Nat
  deriving DecidableEq, Repr

/-- `sm_api_version` and `sm_api_version_locked`. -/
structure ApiVersion where
  version : Nat
  locked : Bool
  deriving DecidableEq, Repr

def smcSmApiVersion (api : ApiVersion) (requested : Nat) : ApiVersion :=
  if !api.locked then { api with version := min requested trustyApiVersionCurrent } else api

def smGetApiVersion (api : ApiVersion) : Nat × ApiVersion := (api.version, { api with locked := true })

def smQueueStdcall (state : StdCallState Cpu) (cpu : Cpu) (args : SmcArgs) :
    Int × StdCallState Cpu :=
  if state.signalled || state.done then
    if args.smcNr = smcScRestartLast ∧ state.activeCpu = none then
      (0, { state with restartCount := state.restartCount + 1, activeCpu := some cpu })
    else (smErrBusy, state)
  else if args.smcNr = smcScRestartLast then (smErrUnexpectedRestart, state)
  else
    (0, { state with
      initialCpu := some cpu
      ret := smErrInternalFailure
      args
      restartCount := 0
      signalled := true
      activeCpu := some cpu })

/-- The part of `sm_irq_return_ns` that finds the value to return. -/
def smIrqReturnNs (state : StdCallState Cpu) (cpu : Cpu) : Int × StdCallState Cpu :=
  if state.activeCpu = some cpu then
    (smErrInterrupted, { state with lastCpu := state.activeCpu, activeCpu := none })
  else (smErrNopInterrupted, state)

def smGetStdcallRet (state : StdCallState Cpu) (api : ApiVersion) (cpu : Cpu) :
    Int × StdCallState Cpu × ApiVersion :=
  if state.activeCpu ≠ some cpu then (smErrInternalFailure, state, api)
  else
    let state := { state with lastCpu := state.activeCpu, activeCpu := none }
    if state.done then (state.ret, { state with done := false }, api)
    else
      let (version, api) := smGetApiVersion api
      if version ≥ trustyApiVersionSmp then (smErrCpuIdle, state, api)
      else if state.restartCount ≠ 0 then (smErrBusy, state, api)
      else (smErrInterrupted, state, api)

/-- The end of the loop body of `sm_stdcall_loop`. -/
def completeStdcall (state : StdCallState Cpu) (ret : Int) : StdCallState Cpu :=
  { state with ret, done := true, signalled := false }

/-- With which SMC a CPU is in the secure world. Accepted calls are numbered; a restart has the
number of the last one. -/
inductive Entry where
  | boot
  | nop
  | call (id : Nat)
  | restart (id : Nat)
  deriving DecidableEq, Repr

inductive World where
  | normal
  | secure (entry : Entry)
  /-- In `sm_wait_for_smcall`, with interrupts disabled, after the CPU has seen its own number
  in `active_cpu`. -/
  | checked (entry : Entry)
  deriving DecidableEq, Repr

structure Handed where
  id : Nat
  value : Int
  entry : Entry
  deriving DecidableEq, Repr

/-- The secure world with its history: the accepted calls in order, the handlers started
and completed, the values given to the normal world, and whether `sm_get_stdcall_ret`
has failed. -/
structure Machine (Cpu : Type) where
  api : ApiVersion
  state : StdCallState Cpu
  handler : Option (Nat × SmcArgs)
  cpus : Cpu → World
  accepted : List SmcArgs
  started : List (Nat × SmcArgs)
  completed : List (Nat × Int)
  handed : List Handed
  failed : Bool

def Machine.initial (Cpu : Type) : Machine Cpu where
  api := ⟨0, false⟩
  state := ⟨false, ⟨0, []⟩, 0, false, none, none, none, 0⟩
  handler := none
  cpus _ := .secure .boot
  accepted := []
  started := []
  completed := []
  handed := []
  failed := false

def Machine.last (machine : Machine Cpu) : Nat := machine.accepted.length - 1

/-- One SMC as `sm_return_and_wait_for_next_stdcall` takes it. The first component is the
value if it returns at once. -/
def Machine.smc (machine : Machine Cpu) (cpu : Cpu) (args : SmcArgs) :
    Option Int × Machine Cpu :=
  if args.smcNr = smcScNop then
    (none, { machine with cpus := update machine.cpus cpu (.secure .nop) })
  else
    let (ret, state) := smQueueStdcall machine.state cpu args
    if ret ≠ 0 then (some ret, { machine with state })
    else if args.smcNr = smcScRestartLast then
      (none, { machine with
        state, cpus := update machine.cpus cpu (.secure (.restart machine.last)) })
    else
      (none, { machine with
        state
        cpus := update machine.cpus cpu (.secure (.call machine.accepted.length))
        accepted := machine.accepted ++ [args] })

def Machine.left (machine : Machine Cpu) (cpu : Cpu) : Machine Cpu :=
  { machine with cpus := update machine.cpus cpu .normal }

/-- The machine once `sm_get_stdcall_ret` has run for a CPU that entered with `entry`. -/
def Machine.got (machine : Machine Cpu) (cpu : Cpu) (entry : Entry) : Int × Machine Cpu :=
  let (ret, state, api) := smGetStdcallRet machine.state machine.api cpu
  let mine := machine.state.activeCpu = some cpu
  (ret, { machine with
    state, api
    handed := if mine ∧ machine.state.done then
      machine.handed ++ [⟨machine.last, ret, entry⟩] else machine.handed
    failed := machine.failed || decide (¬mine) })

/-- Steps in the secure world. Handlers return values that are `Allowed`. -/
inductive Internal (Allowed : Int → Prop) : Machine Cpu → Machine Cpu → Prop where
  | start {machine : Machine Cpu} : machine.handler = none → machine.state.signalled = true →
      Internal Allowed machine { machine with
        handler := some (machine.last, machine.state.args)
        started := machine.started ++ [(machine.last, machine.state.args)] }
  | complete {machine : Machine Cpu} {id : Nat} {args : SmcArgs} (ret : Int) : Allowed ret →
      machine.handler = some (id, args) →
      Internal Allowed machine { machine with
        state := completeStdcall machine.state ret
        handler := none
        completed := machine.completed ++ [(id, ret)] }
  | check {machine : Machine Cpu} {cpu : Cpu} {entry : Entry} :
      machine.cpus cpu = .secure entry → machine.state.activeCpu = some cpu →
      Internal Allowed machine
        { machine with cpus := update machine.cpus cpu (.checked entry) }
  | apiVersion {machine : Machine Cpu} (requested : Nat) :
      Internal Allowed machine { machine with api := smcSmApiVersion machine.api requested }

inductive Leave : Machine Cpu → Cpu → Int → Machine Cpu → Prop where
  | irq {machine : Machine Cpu} {cpu : Cpu} {entry : Entry} : machine.cpus cpu = .secure entry →
      Leave machine cpu (smIrqReturnNs machine.state cpu).1
        ({ machine with state := (smIrqReturnNs machine.state cpu).2 }.left cpu)
  | idle {machine : Machine Cpu} {cpu : Cpu} {entry : Entry} : machine.cpus cpu = .secure entry →
      machine.state.activeCpu ≠ some cpu → Leave machine cpu smErrNopDone (machine.left cpu)
  | result {machine : Machine Cpu} {cpu : Cpu} {entry : Entry} :
      machine.cpus cpu = .checked entry →
      Leave machine cpu (machine.got cpu entry).1 ((machine.got cpu entry).2.left cpu)

/-- Runs with any normal world. -/
inductive Reached : Machine Cpu → Prop where
  | initial : Reached (.initial Cpu)
  | smc {machine : Machine Cpu} {cpu : Cpu} (args : SmcArgs) : Reached machine →
      machine.cpus cpu = .normal → Reached (machine.smc cpu args).2
  | internal {machine next : Machine Cpu} : Reached machine →
      Internal (fun _ => True) machine next → Reached next
  | leave {machine next : Machine Cpu} {cpu : Cpu} {ret : Int} : Reached machine →
      Leave machine cpu ret next → Reached next

/-- Where a thread is in `trusty_std_call32`. -/
inductive Phase (Cpu : Type) where
  | ready
  | calling (cpu : Cpu)
  /-- `msleep` after the last retry. -/
  | sleeping
  /-- `trusty_std_call_cpu_idle`. -/
  | cpuIdle
  /-- In the loop that issues `SMC_SC_RESTART_FIQ`, which has no answer in this model. -/
  | restartFiq
  deriving DecidableEq, Repr

/-- A running `trusty_std_call32`: its arguments, those of the next SMC, the retries left and
the number under which the secure world has accepted it. -/
structure StdCall (Cpu : Type) where
  request : SmcArgs
  smc : SmcArgs
  retry : Nat
  own : Option Nat
  phase : Phase Cpu
  deriving DecidableEq, Repr

inductive ThreadState (Cpu : Type) where
  | idle
  | running (call : StdCall Cpu)
  deriving DecidableEq, Repr

structure CallResult where
  request : SmcArgs
  own : Option Nat
  ret : Int
  deriving DecidableEq, Repr

structure Linux (Cpu Thread : Type) where
  machine : Machine Cpu
  smcLock : Option Thread
  threads : Thread → ThreadState Cpu
  results : List CallResult

def Linux.initial (Cpu Thread : Type) : Linux Cpu Thread := ⟨.initial Cpu, none, fun _ => .idle, []⟩

def restartArgs : SmcArgs := ⟨smcScRestartLast, [0, 0, 0]⟩

/-- The start of `trusty_std_call_helper` for an SMC. -/
def StdCall.help (call : StdCall Cpu) (smc : SmcArgs) : StdCall Cpu :=
  { call with smc, retry := 5, phase := .ready }

/-- What the three functions do with a value; `none` if the call returns it. -/
def StdCall.receive (call : StdCall Cpu) (ret : Int) : Option (StdCall Cpu) :=
  if ret = smErrFiqInterrupted then some { call with phase := .restartFiq }
  else if ret = smErrBusy then
    if call.retry ≠ 0 then some { call with retry := call.retry - 1, phase := .ready }
    else some { call with phase := .sleeping }
  else if ret = smErrInterrupted then some (call.help restartArgs)
  else if ret = smErrCpuIdle then some { call with phase := .cpuIdle }
  else none

def Linux.setThread (linux : Linux Cpu Thread) (thread : Thread) (state : ThreadState Cpu) :
    Linux Cpu Thread :=
  { linux with threads := update linux.threads thread state }

def Linux.deliver (linux : Linux Cpu Thread) (thread : Thread) (call : StdCall Cpu) (ret : Int) :
    Linux Cpu Thread :=
  match call.receive ret with
  | some next => linux.setThread thread (.running next)
  | none =>
    { linux.setThread thread .idle with
      smcLock := if call.request.smcNr = smcScNop then linux.smcLock else none
      results := linux.results ++ [⟨call.request, call.own, ret⟩] }

def Linux.issue (linux : Linux Cpu Thread) (thread : Thread) (call : StdCall Cpu) (cpu : Cpu) :
    Linux Cpu Thread :=
  let outcome := linux.machine.smc cpu call.smc
  let entered := { linux with machine := outcome.2 }
  match outcome.1 with
  | some ret => entered.deliver thread call ret
  | none =>
    let own := if outcome.2.accepted.length = linux.machine.accepted.length then call.own
      else some linux.machine.accepted.length
    entered.setThread thread (.running { call with own, phase := .calling cpu })

def PlainValue (ret : Int) : Prop :=
  ret ≠ smErrBusy ∧ ret ≠ smErrInterrupted ∧ ret ≠ smErrCpuIdle ∧ ret ≠ smErrFiqInterrupted

/-- Runs in which the driver is the only caller. -/
inductive LinuxReached : Linux Cpu Thread → Prop where
  | initial : LinuxReached (.initial Cpu Thread)
  | nop {linux : Linux Cpu Thread} {thread : Thread} {request : SmcArgs} : LinuxReached linux →
      linux.threads thread = .idle → request.smcNr = smcScNop →
      LinuxReached (linux.setThread thread (.running ⟨request, request, 5, none, .ready⟩))
  | lock {linux : Linux Cpu Thread} {thread : Thread} {request : SmcArgs} : LinuxReached linux →
      linux.threads thread = .idle → request.smcNr ≠ smcScNop → linux.smcLock = none →
      LinuxReached ({ linux with smcLock := some thread }.setThread thread
        (.running ⟨request, request, 5, none, .ready⟩))
  | issue {linux : Linux Cpu Thread} {thread : Thread} {call : StdCall Cpu} {cpu : Cpu} :
      LinuxReached linux → linux.threads thread = .running call → call.phase = .ready →
      linux.machine.cpus cpu = .normal → LinuxReached (linux.issue thread call cpu)
  | wake {linux : Linux Cpu Thread} {thread : Thread} {call : StdCall Cpu} : LinuxReached linux →
      linux.threads thread = .running call → call.phase = .sleeping →
      LinuxReached (linux.setThread thread (.running (call.help call.smc)))
  | idleCleared {linux : Linux Cpu Thread} {thread : Thread} {call : StdCall Cpu} :
      LinuxReached linux → linux.threads thread = .running call → call.phase = .cpuIdle →
      LinuxReached (linux.setThread thread (.running (call.help restartArgs)))
  | internal {linux : Linux Cpu Thread} {next : Machine Cpu} : LinuxReached linux →
      Internal PlainValue linux.machine next → LinuxReached { linux with machine := next }
  | leave {linux : Linux Cpu Thread} {next : Machine Cpu} {cpu : Cpu} {ret : Int} {thread : Thread}
      {call : StdCall Cpu} : LinuxReached linux → Leave linux.machine cpu ret next →
      linux.threads thread = .running call → call.phase = .calling cpu →
      LinuxReached ({ linux with machine := next }.deliver thread call ret)
  | leaveUnused {linux : Linux Cpu Thread} {next : Machine Cpu} {cpu : Cpu} {ret : Int} :
      LinuxReached linux → Leave linux.machine cpu ret next →
      (∀ thread call, linux.threads thread = .running call → call.phase ≠ .calling cpu) →
      LinuxReached { linux with machine := next }

end Trusty.Monitor.Stdcall
