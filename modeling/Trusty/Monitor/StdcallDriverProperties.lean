import Trusty.Monitor.StdcallProperties

/-!
# The driver and its calls

If the Linux driver is the only caller, the pending call is that of the thread that
holds the lock, and its retries are restarts until the value of its handler comes back.
-/

namespace Trusty.Monitor.Stdcall

open List

open Function (update update_self update_of_ne)

variable {Cpu Thread : Type} {machine next : Machine Cpu} {call : StdCall Cpu} {cpu : Cpu}
  {linux : Linux Cpu Thread} {thread other : Thread} {ret : Int}

/-!
## The invariant
-/

inductive OwnerState (machine : Machine Cpu) (call : StdCall Cpu) : Prop where
  /-- It has not been accepted, and no other call is pending. -/
  | before : call.own = none → ¬machine.Pending → call.smc = call.request →
      call.phase = .ready → OwnerState machine call
  /-- It is the pending call, and the secure world has the CPU. -/
  | inside {cpu : Cpu} : call.own = some machine.last → machine.Pending →
      machine.accepted[machine.last]? = some call.request → call.phase = .calling cpu →
      machine.state.activeCpu = some cpu →
      (call.smc = restartArgs ∨ machine.state.restartCount = 0) → OwnerState machine call
  /-- It is the pending call and will be restarted. -/
  | between : call.own = some machine.last → machine.Pending →
      machine.accepted[machine.last]? = some call.request → machine.state.activeCpu = none →
      ((call.phase = .ready ∨ call.phase = .sleeping) ∧ call.smc = restartArgs ∨
        call.phase = .cpuIdle) → OwnerState machine call

/-- A call of `SMC_SC_NOP`. -/
structure NopState (machine : Machine Cpu) (call : StdCall Cpu) : Prop where
  own : call.own = none
  smc : call.smc = call.request
  phase : call.phase = .ready ∨
    ∃ cpu, call.phase = .calling cpu ∧ machine.cpus cpu = .secure .nop

structure ThreadOk (machine : Machine Cpu) (smcLock : Option Thread) (thread : Thread)
    (call : StdCall Cpu) : Prop where
  owner : call.request.smcNr ≠ smcScNop → smcLock = some thread ∧ OwnerState machine call
  nop : call.request.smcNr = smcScNop → NopState machine call

structure ResultOk (machine : Machine Cpu) (result : CallResult) : Prop where
  nop : result.request.smcNr = smcScNop → result.ret = smErrNopDone ∨
    result.ret = smErrNopInterrupted
  call : result.request.smcNr ≠ smcScNop → result.request.smcNr ≠ smcScRestartLast →
    ∃ id, result.own = some id ∧ machine.accepted[id]? = some result.request ∧
      (id, result.ret) ∈ machine.completed

structure History (machine : Machine Cpu) (results : List CallResult) : Prop where
  fine : ∀ result ∈ results, ResultOk machine result
  distinct : (results.filterMap CallResult.own).Nodup
  earlier : ∀ result ∈ results, ∀ id, result.own = some id →
    id < machine.accepted.length ∧ (machine.Pending → id ≠ machine.last)

structure LinuxValid (linux : Linux Cpu Thread) : Prop where
  machine : Valid linux.machine
  plain : ∀ value ∈ linux.machine.completed, PlainValue value.2
  threads : ∀ thread call, linux.threads thread = .running call →
    ThreadOk linux.machine linux.smcLock thread call
  held : ∀ thread, linux.smcLock = some thread →
    ∃ call, linux.threads thread = .running call ∧ call.request.smcNr ≠ smcScNop
  pending : linux.machine.Pending → ∃ thread, linux.smcLock = some thread
  apart : ∀ thread other call otherCall cpu, linux.threads thread = .running call →
    linux.threads other = .running otherCall → call.phase = .calling cpu →
    otherCall.phase = .calling cpu → thread = other
  history : History linux.machine linux.results

theorem LinuxValid.initial : LinuxValid (Linux.initial Cpu Thread) where
  machine := .initial
  plain := nofun
  threads := nofun
  held := nofun
  pending pending := by
    rcases pending with is | is
    · nomatch is
    · nomatch is
  apart := nofun
  history := ⟨nofun, .nil, nofun⟩

/-!
## What the parts read of the machine
-/

structure Alike (machine next : Machine Cpu) : Prop where
  pending : next.Pending ↔ machine.Pending
  accepted : next.accepted = machine.accepted
  active : next.state.activeCpu = machine.state.activeCpu
  restarts : next.state.restartCount = machine.state.restartCount
  completed : ∀ value ∈ machine.completed, value ∈ next.completed

theorem Alike.last (alike : Alike machine next) : next.last = machine.last := by
  unfold Machine.last
  rw [alike.accepted]

theorem OwnerState.alike (owner : OwnerState machine call) (alike : Alike machine next) : OwnerState next call := by
  cases owner with
  | before none' free smc ready =>
    exact .before none' (fun pending => free (alike.pending.mp pending)) smc ready
  | inside own pending accepted calling active restarts =>
    rw [← alike.last] at own accepted
    rw [← alike.accepted] at accepted
    rw [← alike.active] at active
    rw [← alike.restarts] at restarts
    exact .inside own (alike.pending.mpr pending) accepted calling active restarts
  | between own pending accepted active phase =>
  rw [← alike.last] at own accepted
  rw [← alike.accepted] at accepted
  rw [← alike.active] at active
  exact .between own (alike.pending.mpr pending) accepted active phase

theorem History.alike {results : List CallResult} (history : History machine results)
    (alike : Alike machine next) : History next results where
  fine result among := by
    obtain ⟨nop, done⟩ := history.fine result among
    refine ⟨nop, fun other fresh => ?_⟩
    obtain ⟨id, own, accepted, value⟩ := done other fresh
    exact ⟨id, own, by rw [alike.accepted]; exact accepted, alike.completed _ value⟩
  distinct := history.distinct
  earlier result among id own := by
    rw [alike.accepted, alike.last, alike.pending]
    exact history.earlier result among id own

theorem LinuxValid.unnoticed (valid : LinuxValid linux) (machine : Valid next)
    (alike : Alike linux.machine next) (plain : ∀ value ∈ next.completed, PlainValue value.2)
    (nops : ∀ thread call cpu, linux.threads thread = .running call →
      call.phase = .calling cpu → linux.machine.cpus cpu = .secure .nop →
      next.cpus cpu = .secure .nop) :
    LinuxValid { linux with machine := next } := { valid with
  machine := machine
  plain := plain
  threads thread call runs := by
    obtain ⟨owner, nop⟩ := valid.threads thread call runs
    refine ⟨fun other => ⟨(owner other).1, (owner other).2.alike alike⟩, fun isNop => ?_⟩
    obtain ⟨own, smc, phase⟩ := nop isNop
    refine ⟨own, smc, phase.imp_right ?_⟩
    intro inside
    obtain ⟨cpu, calling, world⟩ := inside
    exact ⟨cpu, calling, nops thread call cpu runs calling world⟩
  pending pending := valid.pending (alike.pending.mp pending)
  history := valid.history.alike alike }

/-!
## One thread moves
-/

variable [DecidableEq Thread] {otherCall : StdCall Cpu}

theorem setThread_running {state : ThreadState Cpu}
    (runs : (linux.setThread thread state).threads other = .running otherCall) :
    other = thread ∧ state = .running otherCall ∨ other ≠ thread ∧ linux.threads other = .running otherCall := by
  unfold Linux.setThread at runs
  dsimp only at runs
  by_cases same : other = thread
  · rw [same, update_self] at runs
    exact .inl ⟨same, runs⟩
  · rw [update_of_ne same] at runs
    exact .inr ⟨same, runs⟩

structure Others (linux : Linux Cpu Thread) (thread : Thread) (next : Machine Cpu) : Prop where
  machine : Valid next
  plain : ∀ value ∈ next.completed, PlainValue value.2
  threads : ∀ other call, other ≠ thread → linux.threads other = .running call →
    ThreadOk next linux.smcLock other call
  history : History next linux.results

theorem LinuxValid.continues (valid : LinuxValid linux) (rest : Others linux thread next) {before : StdCall Cpu}
    (runs : linux.threads thread = .running before) (request : call.request = before.request)
    (fits : ThreadOk next linux.smcLock thread call) (pending : next.Pending → ∃ thread, linux.smcLock = some thread)
    (alone : ∀ cpu, call.phase = .calling cpu → before.phase = .calling cpu ∨
      ∀ other otherCall, linux.threads other = .running otherCall → otherCall.phase ≠ .calling cpu) :
    LinuxValid ({ linux with machine := next }.setThread thread (.running call)) := { rest with
  threads other otherCall is := by
    rcases setThread_running is with same | differs
    · obtain ⟨rfl, callIs⟩ := same
      cases callIs
      exact fits
    · exact rest.threads other otherCall differs.1 differs.2
  held owner is := by
    obtain ⟨ownerCall, ownerRuns, other⟩ := valid.held owner is
    unfold Linux.setThread
    dsimp only
    by_cases same : owner = thread
    · rw [same, update_self]
      rw [same, runs] at ownerRuns
      cases ownerRuns
      exact ⟨call, rfl, by rw [request]; exact other⟩
    · rw [update_of_ne same]
      exact ⟨ownerCall, ownerRuns, other⟩
  pending := pending
  apart first second firstCall secondCall cpu firstRuns secondRuns firstCalls secondCalls := by
    rcases setThread_running firstRuns with firstSame | firstOther
    · rcases setThread_running secondRuns with secondSame | secondOther
      · rw [firstSame.1, secondSame.1]
      cases firstSame.2
      rcases alone cpu firstCalls with already | none'
      · rw [firstSame.1]
        exact valid.apart thread second before secondCall cpu runs secondOther.2 already secondCalls
      · exact absurd secondCalls (none' second secondCall secondOther.2)
    · rcases setThread_running secondRuns with secondSame | secondOther
      · cases secondSame.2
        rcases alone cpu secondCalls with already | none'
        · rw [secondSame.1]
          exact valid.apart first thread firstCall before cpu firstOther.2 runs firstCalls already
        · exact absurd firstCalls (none' first firstCall firstOther.2)
      · exact valid.apart first second firstCall secondCall cpu firstOther.2 secondOther.2 firstCalls secondCalls }

theorem LinuxValid.returns (valid : LinuxValid linux) (rest : Others linux thread next)
    (runs : linux.threads thread = .running call)
    (owner : call.request.smcNr ≠ smcScNop → linux.smcLock = some thread ∧ ¬next.Pending)
    (pending : call.request.smcNr = smcScNop → next.Pending → linux.machine.Pending)
    (fine : ResultOk next ⟨call.request, call.own, ret⟩)
    (own : ∀ id, call.own = some id → id = next.last ∧ next.accepted ≠ [] ∧ ¬next.Pending ∧
      ∀ result ∈ linux.results, result.own ≠ some id) :
    LinuxValid { { linux with machine := next }.setThread thread .idle with
      smcLock := if call.request.smcNr = smcScNop then linux.smcLock else none
      results := linux.results ++ [⟨call.request, call.own, ret⟩] } := { rest with
  threads other otherCall is := by
    rcases setThread_running is with same | differs
    · nomatch same.2
    have known := rest.threads other otherCall differs.1 differs.2
    refine ⟨fun otherNop => ?_, known.nop⟩
    obtain ⟨lock, state⟩ := known.owner otherNop
    refine ⟨?_, state⟩
    split
    · exact lock
    · rename_i mine
      have same := (owner mine).1.symm.trans lock
      exact absurd (Option.some.inj same).symm differs.1
  held lockOwner is := by
    split at is
    · rename_i nop
      obtain ⟨ownerCall, ownerRuns, other⟩ := valid.held lockOwner is
      have differs : lockOwner ≠ thread := by
        intro same
        rw [same, runs] at ownerRuns
        cases ownerRuns
        exact other nop
      refine ⟨ownerCall, ?_, other⟩
      unfold Linux.setThread
      dsimp only
      rw [update_of_ne differs]
      exact ownerRuns
    · nomatch is
  pending is := by
    dsimp only
    split
    · rename_i nop
      exact valid.pending (pending nop is)
    · rename_i mine
      exact absurd is (owner mine).2
  apart first second firstCall secondCall cpu firstRuns secondRuns := by
    rcases setThread_running firstRuns with same | firstOther
    · nomatch same.2
    · rcases setThread_running secondRuns with same | secondOther
      · nomatch same.2
      · exact valid.apart first second firstCall secondCall cpu firstOther.2 secondOther.2
  history := by
    refine ⟨?_, ?_, ?_⟩
    · intro result among
      rcases mem_append.mp among with earlier | new
      · exact rest.history.fine result earlier
      · rw [mem_singleton.mp new]
        exact fine
    · change (filterMap CallResult.own (linux.results ++ _)).Nodup
      rw [filterMap_append]
      cases ownIs : call.own with
      | none =>
        have nothing : filterMap CallResult.own [⟨call.request, none, ret⟩] = [] := rfl
        rw [nothing, append_nil]
        exact rest.history.distinct
      | some id =>
      refine nodup_append.mpr ⟨rest.history.distinct, pairwise_singleton _ _, ?_⟩
      intro known among new newAmong same
      rw [same, mem_singleton.mp newAmong] at among
      obtain ⟨result, member, is⟩ := mem_filterMap.mp among
      exact (own id ownIs).2.2.2 result member is
    · intro result among id is
      rcases mem_append.mp among with earlier | new
      · exact rest.history.earlier result earlier id is
      rw [mem_singleton.mp new] at is
      obtain ⟨idIs, nonempty, free, _⟩ := own id is
      refine ⟨?_, fun pending => absurd pending free⟩
      rw [idIs]
      exact Nat.sub_lt (length_pos_iff.mpr nonempty) one_pos }

/-!
## The driver without the secure world
-/

omit [DecidableEq Thread] in
theorem Others.refl (valid : LinuxValid linux) (thread : Thread) : Others linux thread linux.machine := { valid with
  threads other call _ runs := valid.threads other call runs }

section

variable (valid : LinuxValid linux)
include valid

theorem LinuxValid.apart_started {started : StdCall Cpu} (ready : started.phase = .ready) (first second : Thread)
    (firstCall secondCall : StdCall Cpu) (cpu : Cpu)
    (firstRuns : (linux.setThread thread (.running started)).threads first = .running firstCall)
    (secondRuns : (linux.setThread thread (.running started)).threads second = .running secondCall)
    (firstCalls : firstCall.phase = .calling cpu) (secondCalls : secondCall.phase = .calling cpu) : first = second := by
  rcases setThread_running firstRuns with same | firstOther
  · cases same.2
    nomatch ready.symm.trans firstCalls
  rcases setThread_running secondRuns with same | secondOther
  · cases same.2
    nomatch ready.symm.trans secondCalls
  · exact valid.apart first second firstCall secondCall cpu firstOther.2 secondOther.2 firstCalls secondCalls

theorem LinuxValid.begins {request : SmcArgs} (idle : linux.threads thread = .idle) (nop : request.smcNr = smcScNop) :
    LinuxValid (linux.setThread thread (.running ⟨request, request, 5, none, .ready⟩)) where
  machine := valid.machine
  plain := valid.plain
  threads other call is := by
    rcases setThread_running is with same | differs
    · cases same.2
      exact ⟨fun other => absurd nop other, fun _ => ⟨rfl, rfl, .inl rfl⟩⟩
    · exact valid.threads other call differs.2
  held owner is := by
    obtain ⟨call, runs, other⟩ := valid.held owner is
    have differs : owner ≠ thread := by
      intro same
      rw [same, idle] at runs
      nomatch runs
    refine ⟨call, ?_, other⟩
    unfold Linux.setThread
    dsimp only
    rw [update_of_ne differs]
    exact runs
  pending := valid.pending
  apart := valid.apart_started rfl
  history := valid.history

theorem LinuxValid.locked {request : SmcArgs} (other : request.smcNr ≠ smcScNop) (free : linux.smcLock = none) :
    LinuxValid ({ linux with smcLock := some thread }.setThread thread
      (.running ⟨request, request, 5, none, .ready⟩)) := by
  have idle : ¬linux.machine.Pending := by
    intro pending
    obtain ⟨owner, is⟩ := valid.pending pending
    nomatch free.symm.trans is
  refine ⟨valid.machine, valid.plain, ?_, ?_, ?_, ?_, valid.history⟩
  · intro running call is
    rcases setThread_running is with same | differs
    · obtain ⟨rfl, callIs⟩ := same
      cases callIs
      exact ⟨fun _ => ⟨rfl, .before rfl idle rfl rfl⟩, fun nop => absurd nop other⟩
    · obtain ⟨owner, nop⟩ := valid.threads running call differs.2
      refine ⟨fun owns => ?_, nop⟩
      nomatch free.symm.trans (owner owns).1
  · intro owner is
    cases is
    refine ⟨⟨request, request, 5, none, .ready⟩, ?_, other⟩
    exact update_self ..
  · intro _
    exact ⟨thread, rfl⟩
  · exact valid.apart_started rfl

theorem LinuxValid.helped (runs : linux.threads thread = .running call) {smc : SmcArgs}
    (pauses : call.phase = .sleeping ∧ smc = call.smc ∨ call.phase = .cpuIdle ∧ smc = restartArgs) :
    LinuxValid (linux.setThread thread (.running (call.help smc))) := by
  have paused : call.phase ≠ .ready ∧ ∀ cpu, call.phase ≠ .calling cpu := by
    rcases pauses with sleeping | idle
    · rw [sleeping.1]
      exact ⟨nofun, nofun⟩
    · rw [idle.1]
      exact ⟨nofun, nofun⟩
  refine valid.continues (.refl valid thread) runs rfl ?_ valid.pending (fun cpu is => nomatch is)
  obtain ⟨owner, nop⟩ := valid.threads thread call runs
  constructor
  · intro other
    obtain ⟨lock, state⟩ := owner other
    refine ⟨lock, ?_⟩
    cases state with
    | before _ _ _ ready => exact absurd ready paused.1
    | inside _ _ _ calling => exact absurd calling (paused.2 _)
    | between own pending accepted active phase =>
    refine .between own pending accepted active (.inl ⟨.inl rfl, ?_⟩)
    cases pauses with
    | inr idle => exact idle.2
    | inl sleeping =>
    rcases phase with ready | idle
    · exact sleeping.2.trans ready.2
    · nomatch sleeping.1.symm.trans idle
  · intro isNop
    rcases (nop isNop).phase with ready | inside
    · exact absurd ready paused.1
    · obtain ⟨cpu, calling, _⟩ := inside
      exact absurd calling (paused.2 cpu)

end

/-!
## SMCs of the driver
-/

theorem restart_ne_nop : restartArgs.smcNr ≠ smcScNop := by decide

omit [DecidableEq Thread] in
theorem LinuxValid.othersNop (valid : LinuxValid linux) (lock : linux.smcLock = some thread) (differs : other ≠ thread)
    (runs : linux.threads other = .running otherCall) :
    otherCall.request.smcNr = smcScNop ∧ NopState linux.machine otherCall := by
  obtain ⟨owner, nop⟩ := valid.threads other otherCall runs
  by_cases isNop : otherCall.request.smcNr = smcScNop
  · exact ⟨isNop, nop isNop⟩
  · exact absurd (Option.some.inj ((owner isNop).1.symm.trans lock)) differs

theorem pauses_not_calling {restarts : Prop}
    (phase : (call.phase = .ready ∨ call.phase = .sleeping) ∧ restarts ∨ call.phase = .cpuIdle) :
    call.phase ≠ .calling cpu := by
  rcases phase with ⟨ready | sleeping, -⟩ | idle <;> simp [*]

omit [DecidableEq Thread] in
theorem LinuxValid.calling_secure (valid : LinuxValid linux)
    (runs : linux.threads thread = .running call) (calling : call.phase = .calling cpu) :
    linux.machine.cpus cpu ≠ .normal := by
  obtain ⟨owner, nop⟩ := valid.threads thread call runs
  by_cases isNop : call.request.smcNr = smcScNop
  · rcases (nop isNop).phase with ready | inside
    · nomatch ready.symm.trans calling
    obtain ⟨known, knownCalls, world⟩ := inside
    cases Phase.calling.inj (knownCalls.symm.trans calling)
    rw [world]
    nofun
  · cases (owner isNop).2 with
    | before _ _ _ ready => nomatch ready.symm.trans calling
    | between _ _ _ _ phase => exact absurd calling (pauses_not_calling phase)
    | inside _ _ _ knownCalls active =>
    cases Phase.calling.inj (knownCalls.symm.trans calling)
    obtain ⟨entry, place, _⟩ := (valid.machine.active cpu active).entered
    intro normal
    rcases place with secure | checked
    · nomatch secure.symm.trans normal
    · nomatch checked.symm.trans normal

section Smc

variable [DecidableEq Cpu]

theorem NopState.elsewhere {world : World} (nop : NopState machine call)
    (cpus : next.cpus = update machine.cpus cpu world) (differs : call.phase ≠ .calling cpu) : NopState next call := by
  refine ⟨nop.own, nop.smc, nop.phase.imp_right ?_⟩
  intro inside
  obtain ⟨known, calling, is⟩ := inside
  refine ⟨known, calling, ?_⟩
  have apart : known ≠ cpu := fun same => differs (same ▸ calling)
  rw [cpus, update_of_ne apart]
  exact is

omit [DecidableEq Thread] in
theorem LinuxValid.elsewhere {world : World} (valid : LinuxValid linux) (lock : linux.smcLock = some thread)
    (alone : ∀ other otherCall, other ≠ thread → linux.threads other = .running otherCall →
      otherCall.phase ≠ .calling cpu)
    (cpus : next.cpus = update linux.machine.cpus cpu world) (other : Thread)
    (otherCall : StdCall Cpu) (differs : other ≠ thread)
    (runs : linux.threads other = .running otherCall) :
    ThreadOk next linux.smcLock other otherCall := by
  obtain ⟨isNop, nop⟩ := valid.othersNop lock differs runs
  exact ⟨fun owns => absurd isNop owns, fun _ => nop.elsewhere cpus (alone other otherCall differs runs)⟩

theorem LinuxValid.issued (valid : LinuxValid linux) (runs : linux.threads thread = .running call)
    (ready : call.phase = .ready) (normal : linux.machine.cpus cpu = .normal) :
    LinuxValid (linux.issue thread call cpu) := by
  have after := valid.machine.smc normal call.smc
  have outcome := linux.machine.smc_outcome cpu call.smc
  obtain ⟨owner, nop⟩ := valid.threads thread call runs
  have unused : ∀ other otherCall, linux.threads other = .running otherCall → otherCall.phase ≠ .calling cpu :=
    fun other otherCall otherRuns calling => valid.calling_secure otherRuns calling normal
  have others := fun other otherCall (_ : other ≠ thread) => unused other otherCall
  have notNop : call.smc.smcNr ≠ smcScNop → call.request.smcNr ≠ smcScNop := by
    intro other isNop
    rw [(nop isNop).smc] at other
    exact other isNop
  unfold Linux.issue
  generalize linux.machine.smc cpu call.smc = result at after outcome
  cases outcome with
  | nop isNop =>
    dsimp only at after ⊢
    rw [if_pos rfl]
    -- Only a call of `SMC_SC_NOP` issues it.
    have request : call.request.smcNr = smcScNop := by
      by_contra other
      cases (owner other).2 with
      | before _ _ smc => exact other (smc ▸ isNop)
      | inside _ _ _ calling => nomatch ready.symm.trans calling
      | between _ _ _ _ phase =>
      rcases phase with pauses | idle
      · rw [pauses.2] at isNop
        exact restart_ne_nop isNop
      · nomatch ready.symm.trans idle
    have alike : Alike linux.machine { linux.machine with
        cpus := update linux.machine.cpus cpu (.secure .nop) } :=
      ⟨Iff.rfl, rfl, rfl, rfl, fun _ among => among⟩
    refine valid.continues ⟨after, valid.plain, ?_, valid.history.alike alike⟩ runs rfl
      ⟨fun other => absurd request other, fun _ => ?_⟩ valid.pending
      fun used is => .inr (Phase.calling.inj is ▸ unused)
    · intro other otherCall _ otherRuns
      obtain ⟨otherOwner, otherNop⟩ := valid.threads other otherCall otherRuns
      exact ⟨fun owns => ⟨(otherOwner owns).1, (otherOwner owns).2.alike alike⟩,
        fun isNop => (otherNop isNop).elsewhere rfl (unused other otherCall otherRuns)⟩
    · obtain ⟨own, smc, _⟩ := nop request
      exact ⟨own, smc, .inr ⟨cpu, rfl, update_self ..⟩⟩
  | @refused ret other codes busy fresh restart =>
    dsimp only
    have request := notNop other
    obtain ⟨lock, state⟩ := owner request
    cases state with
    | inside _ _ _ calling => nomatch ready.symm.trans calling
    | between _ pending _ active phase =>
      rcases phase with pauses | idle
      · exact absurd pending (restart (by rw [pauses.2]; rfl) active)
      · nomatch ready.symm.trans idle
    | before own free smc =>
    -- Only an unexpected restart is refused: it returns to the caller.
    have unexpected : ret = smErrUnexpectedRestart := codes.resolve_left fun isBusy => free (busy isBusy)
    have restarts : call.request.smcNr = smcScRestartLast := by
      by_contra ne
      rw [← smc] at ne
      exact free (fresh ne)
    have returned : call.receive ret = none := by
      rw [unexpected]
      rfl
    unfold Linux.deliver
    rw [returned]
    refine valid.returns (.refl valid thread) runs (fun _ => ⟨lock, free⟩)
      (fun isNop => absurd isNop request) ⟨fun isNop => absurd isNop request, ?_⟩ ?_
    · intro _ ne
      contradiction
    · intro id is
      nomatch own.symm.trans is
  | restarted restarts other active pending =>
    dsimp only at after ⊢
    rw [if_pos rfl]
    have request := notNop other
    obtain ⟨lock, state⟩ := owner request
    refine valid.continues ⟨after, valid.plain, valid.elsewhere lock others rfl, ?_⟩ runs rfl
      ⟨fun _ => ⟨lock, ?_⟩, fun isNop => absurd isNop request⟩ (fun _ => ⟨thread, lock⟩)
      fun used is => .inr (Phase.calling.inj is ▸ unused)
    · exact ⟨fun result among => ⟨(valid.history.fine result among).nop,
        (valid.history.fine result among).call⟩, valid.history.distinct, valid.history.earlier⟩
    cases state with
    | before _ free => contradiction
    | inside _ _ _ calling => nomatch ready.symm.trans calling
    | between own _ accepted _ phase =>
    rcases phase with pauses | idle
    · exact .inside own pending accepted rfl rfl (.inl pauses.2)
    · nomatch ready.symm.trans idle
  | accepted fresh other free =>
  dsimp only at after ⊢
  have longer : (linux.machine.accepted ++ [call.smc]).length ≠ linux.machine.accepted.length := by
    rw [length_append, length_singleton]
    omega
  rw [if_neg longer]
  have request := notNop other
  obtain ⟨lock, state⟩ := owner request
  have smc : call.smc = call.request := by
    cases state with
    | before _ _ smc => exact smc
    | inside _ pending | between _ pending => contradiction
  refine valid.continues ⟨after, valid.plain, valid.elsewhere lock others rfl, ?_⟩ runs rfl
    ⟨fun _ => ⟨lock, ?_⟩, fun isNop => absurd isNop request⟩ (fun _ => ⟨thread, lock⟩)
    fun used is => .inr (Phase.calling.inj is ▸ unused)
  · refine ⟨fun result among => ⟨(valid.history.fine result among).nop, ?_⟩, valid.history.distinct, ?_⟩
    · intro notNop notRestart
      obtain ⟨id, own, accepted, value⟩ := (valid.history.fine result among).call notNop notRestart
      refine ⟨id, own, ?_, value⟩
      dsimp only
      rw [List.getElem?_append_left (List.getElem?_eq_some_iff.mp accepted).1]
      exact accepted
    · intro result among id own
      have earlier := (valid.history.earlier result among id own).1
      rw [length_append, length_singleton]
      refine ⟨by omega, fun _ same => ?_⟩
      have isLength := same.trans (last_append rfl)
      omega
  · refine .inside (congrArg some (last_append rfl).symm) (.inl rfl) ?_ rfl rfl (.inr rfl)
    rw [last_append rfl, ← smc]
    exact getElem?_concat_length ..

/-!
## Returns to the driver
-/

omit [DecidableEq Cpu] in
theorem Valid.nop_inactive (valid : Valid machine) (world : machine.cpus cpu = .secure .nop) :
    machine.state.activeCpu ≠ some cpu := by
  intro active
  obtain ⟨entry, secure | checked, kind⟩ := (valid.active cpu active).entered
  · rw [World.secure.inj (secure.symm.trans world)] at kind
    rcases kind with call | restart
    · nomatch call.1
    · nomatch restart
  · nomatch checked.symm.trans world

omit [DecidableEq Cpu] in
theorem StdCall.receive_stopped {count : Nat} (call : StdCall Cpu)
    (codes : ret = smErrInterrupted ∨ ret = smErrCpuIdle ∨ ret = smErrBusy ∧ count ≠ 0)
    (restarts : call.smc = restartArgs ∨ count = 0) :
    ∃ next, call.receive ret = some next ∧ next.request = call.request ∧ next.own = call.own ∧
      ((next.phase = .ready ∨ next.phase = .sleeping) ∧ next.smc = restartArgs ∨ next.phase = .cpuIdle) := by
  rcases codes with interrupted | idle | busy
  · rw [interrupted]
    exact ⟨_, rfl, rfl, rfl, .inl ⟨.inl rfl, rfl⟩⟩
  · rw [idle]
    exact ⟨_, rfl, rfl, rfl, .inr rfl⟩
  have smc := restarts.resolve_right busy.2
  rw [busy.1]
  unfold StdCall.receive
  rw [if_neg (by decide), if_pos rfl]
  split
  · exact ⟨_, rfl, rfl, rfl, .inl ⟨.inl rfl, smc⟩⟩
  · exact ⟨_, rfl, rfl, rfl, .inl ⟨.inr rfl, smc⟩⟩

section

variable (valid : LinuxValid linux)
include valid

omit [DecidableEq Thread] [DecidableEq Cpu] in
theorem LinuxValid.waiting (active : linux.machine.state.activeCpu = some cpu) :
    ∃ thread call, linux.threads thread = .running call ∧ call.phase = .calling cpu := by
  obtain ⟨thread, lock⟩ := valid.pending (valid.machine.active cpu active).pending
  obtain ⟨call, runs, other⟩ := valid.held thread lock
  refine ⟨thread, call, runs, ?_⟩
  cases ((valid.threads thread call runs).owner other).2 with
  | before _ free => exact absurd (valid.machine.active cpu active).pending free
  | inside _ _ _ calling known =>
    rw [calling, Option.some.inj (known.symm.trans active)]
  | between _ _ _ none' => nomatch none'.symm.trans active

omit [DecidableEq Thread] in
theorem LinuxValid.leftUnused (leave : Leave linux.machine cpu ret next)
    (unused : ∀ thread call, linux.threads thread = .running call → call.phase ≠ .calling cpu) :
    LinuxValid { linux with machine := next } := by
  have after := valid.machine.leave leave
  have nobody : linux.machine.state.activeCpu ≠ some cpu := by
    intro active
    obtain ⟨thread, call, runs, calling⟩ := valid.waiting active
    exact unused thread call runs calling
  cases valid.machine.leaves leave with
  | stopped active | result active => contradiction
  | unrelated =>
  refine valid.unnoticed after ⟨Iff.rfl, rfl, rfl, rfl, fun _ among => among⟩ valid.plain ?_
  intro thread call used runs calling world
  have apart : used ≠ cpu := fun same => unused thread call runs (same ▸ calling)
  unfold Machine.left
  dsimp only
  rw [update_of_ne apart]
  exact world

theorem LinuxValid.delivered (leave : Leave linux.machine cpu ret next) (runs : linux.threads thread = .running call)
    (calling : call.phase = .calling cpu) : LinuxValid ({ linux with machine := next }.deliver thread call ret) := by
  have after := valid.machine.leave leave
  have left := valid.machine.leaves leave
  obtain ⟨owner, nop⟩ := valid.threads thread call runs
  have alone : ∀ other otherCall, other ≠ thread → linux.threads other = .running otherCall →
      otherCall.phase ≠ .calling cpu :=
    fun other otherCall differs otherRuns otherCalls =>
      differs (valid.apart other thread otherCall call cpu otherRuns runs otherCalls calling)
  by_cases isNop : call.request.smcNr = smcScNop
  · -- A CPU that came with `SMC_SC_NOP` does not wait for the result.
    have other : linux.machine.state.activeCpu ≠ some cpu := by
      rcases (nop isNop).phase with ready | ⟨known, knownCalls, world⟩
      · nomatch ready.symm.trans calling
      · exact Phase.calling.inj (knownCalls.symm.trans calling) ▸ valid.machine.nop_inactive world
    cases left with
    | stopped active | result active => contradiction
    | unrelated _ _ codes =>
    have alike : Alike linux.machine (linux.machine.left cpu) := ⟨Iff.rfl, rfl, rfl, rfl, fun _ among => among⟩
    have returned : call.receive ret = none := by
      rcases codes with done | interrupted
      · rw [done]
        rfl
      · rw [interrupted]
        rfl
    unfold Linux.deliver
    rw [returned]
    refine valid.returns ⟨after, valid.plain, ?_, valid.history.alike alike⟩ runs
      (fun notNop => absurd isNop notNop) (fun _ pending => pending)
      ⟨fun _ => codes, fun notNop => absurd isNop notNop⟩ ?_
    · intro otherThread otherCall differs otherRuns
      obtain ⟨otherOwner, otherNop⟩ := valid.threads otherThread otherCall otherRuns
      exact ⟨fun owns => ⟨(otherOwner owns).1, (otherOwner owns).2.alike alike⟩,
        fun isNop => (otherNop isNop).elsewhere rfl (alone otherThread otherCall differs otherRuns)⟩
    · intro id own
      nomatch (nop isNop).own.symm.trans own
  · obtain ⟨lock, state⟩ := owner isNop
    cases state with
    | before _ _ _ ready => nomatch ready.symm.trans calling
    | between _ _ _ _ phase => exact absurd calling (pauses_not_calling phase)
    | inside own pending accepted knownCalls active restarts =>
    cases Phase.calling.inj (knownCalls.symm.trans calling)
    cases left with
    | unrelated other => contradiction
    | @stopped ret state api _ stateIs codes =>
      subst stateIs
      obtain ⟨following, received, request, ownIs, phase⟩ := call.receive_stopped codes restarts
      unfold Linux.deliver
      rw [received]
      refine valid.continues ⟨after, valid.plain, valid.elsewhere lock alone rfl, ?_⟩ runs request
        ⟨fun _ => ⟨lock, ?_⟩, fun nop => absurd (request ▸ nop) isNop⟩
        (fun _ => ⟨thread, lock⟩) ?_
      · exact ⟨fun result among => ⟨(valid.history.fine result among).nop,
          (valid.history.fine result among).call⟩, valid.history.distinct,
          valid.history.earlier⟩
      · exact .between (ownIs.trans own) pending (request ▸ accepted) rfl phase
      · exact fun used is => absurd is (pauses_not_calling phase)
    | result _ _ done =>
    have finishes := valid.machine.progress
    cases finishes with
    | idle _ undone | queued _ undone | running _ undone => nomatch undone.symm.trans done
    | finished unsignalled _ _ acceptedIs _ value =>
    have last := last_append acceptedIs
    rw [← last] at value
    obtain ⟨busy, interrupted, idle, fiq⟩ := valid.plain _ value
    have returned : call.receive linux.machine.state.ret = none := by
      unfold StdCall.receive
      rw [if_neg fiq, if_neg busy, if_neg interrupted, if_neg idle]
    have free : ∀ {machine : Machine Cpu}, machine.state.signalled = false →
        machine.state.done = false → ¬machine.Pending := by
      intro machine isUnsignalled isUndone isPending
      rcases isPending with is | is
      · nomatch isUnsignalled.symm.trans is
      · nomatch isUndone.symm.trans is
    unfold Linux.deliver
    rw [returned]
    refine valid.returns ⟨after, valid.plain, valid.elsewhere lock alone rfl, ?_⟩ runs
      (fun _ => ⟨lock, free unsignalled rfl⟩) (fun nop => absurd nop isNop)
      ⟨fun nop => absurd nop isNop, fun _ _ => ⟨_, own, accepted, value⟩⟩ ?_
    · refine ⟨fun result among => ⟨(valid.history.fine result among).nop,
        (valid.history.fine result among).call⟩, valid.history.distinct, ?_⟩
      intro result among id resultOwn
      exact ⟨(valid.history.earlier result among id resultOwn).1,
        fun isPending => absurd isPending (free unsignalled rfl)⟩
    · intro id ownId
      have idIs : linux.machine.last = id := Option.some.inj (own.symm.trans ownId)
      refine ⟨idIs.symm, ?_, free unsignalled rfl, ?_⟩
      · change linux.machine.accepted ≠ []
        rw [acceptedIs]
        simp
      · intro result among resultOwn
        exact (valid.history.earlier result among id resultOwn).2 pending idIs.symm

omit [DecidableEq Thread] in
theorem LinuxValid.internal (step : Internal PlainValue linux.machine next) : LinuxValid { linux with machine := next } := by
  have after := valid.machine.internal step
  cases step with
  | start | apiVersion =>
    exact valid.unnoticed after ⟨Iff.rfl, rfl, rfl, rfl, fun _ among => among⟩ valid.plain fun _ _ _ _ _ world => world
  | @complete id args ret plain runs =>
    refine valid.unnoticed after ⟨⟨fun _ => ?_, fun _ => .inr rfl⟩, rfl, rfl, rfl,
        fun _ among => mem_append_left _ among⟩ ?_ fun _ _ _ _ _ world => world
    · cases valid.machine.progress with
      | idle _ _ none' | finished _ _ none' => nomatch none'.symm.trans runs
      | queued signalled | running signalled => exact .inl signalled
    · intro value among
      rcases mem_append.mp among with earlier | new
      · exact valid.plain value earlier
      · rw [mem_singleton.mp new]
        exact plain
  | @check cpu entry inside active =>
  refine valid.unnoticed after ⟨Iff.rfl, rfl, rfl, rfl, fun _ among => among⟩ valid.plain ?_
  intro thread call used runs calling world
  dsimp only
  by_cases same : used = cpu
  · exact absurd active (same ▸ valid.machine.nop_inactive world)
  · rw [update_of_ne same]
    exact world

end

theorem LinuxReached.valid (reached : LinuxReached linux) : LinuxValid linux := by
  induction reached with
  | initial => exact .initial
  | nop _ idle isNop ih => exact ih.begins idle isNop
  | lock _ _ other free ih => exact ih.locked other free
  | issue _ runs ready normal ih => exact ih.issued runs ready normal
  | wake _ runs sleeping ih => exact ih.helped runs (.inl ⟨sleeping, rfl⟩)
  | idleCleared _ runs idle ih => exact ih.helped runs (.inr ⟨idle, rfl⟩)
  | internal _ step ih => exact ih.internal step
  | leave _ leave runs calling ih => exact ih.delivered leave runs calling
  | leaveUnused _ leave unused ih => exact ih.leftUnused leave unused

end Smc

/-!
## The whole protocol
-/

/-- What the driver keeps when handlers return plain values: a call of `SMC_SC_NOP` says how
the CPU came back, any other returns the value of the handler that ran for it, and no two
return the value of the same one. -/
structure DriverLaw (linux : Linux Cpu Thread) : Prop where
  results : ∀ result ∈ linux.results, ResultOk linux.machine result
  distinct : (linux.results.filterMap CallResult.own).Nodup

/-- The standard calls of the secure monitor library, for any number of CPUs and threads. -/
theorem stdcall_protocol (Cpu Thread : Type) [DecidableEq Cpu] [DecidableEq Thread] :
    (∀ machine : Machine Cpu, Reached machine → StdcallLaw machine) ∧
      ∀ linux : Linux Cpu Thread, LinuxReached linux → DriverLaw linux :=
  ⟨fun _ reached => reached.valid.law, fun _ reached => ⟨reached.valid.history.fine, reached.valid.history.distinct⟩⟩

/-- A call is accepted, interrupted before its handler ends, restarted and returns the value
of the handler. -/
theorem restarted_call_returns : ∃ linux : Linux Unit Unit, LinuxReached linux ∧
    linux.results = [⟨⟨0x32000000, [1, 2, 3]⟩, some 0, 42⟩] ∧
    StdcallLaw linux.machine ∧ DriverLaw linux := by
  have booted := @LinuxReached.leaveUnused Unit Unit _ _ _ _ () _ .initial (.idle rfl nofun) nofun
  have locked := @LinuxReached.lock Unit Unit _ _ _ () ⟨0x32000000, [1, 2, 3]⟩ booted rfl (by decide) rfl
  have accepted := @LinuxReached.issue Unit Unit _ _ _ () _ () locked rfl rfl rfl
  have started := LinuxReached.internal accepted (.start rfl rfl)
  have interrupted := @LinuxReached.leave Unit Unit _ _ _ _ () _ () _ started (.irq rfl) rfl rfl
  have restarted := @LinuxReached.issue Unit Unit _ _ _ () _ () interrupted rfl rfl rfl
  have completed := LinuxReached.internal restarted (.complete 42 ⟨by decide, by decide, by decide, by decide⟩ rfl)
  have checked := LinuxReached.internal completed (@Internal.check _ _ _ _ () _ rfl rfl)
  have returned := @LinuxReached.leave Unit Unit _ _ _ _ () _ () _ checked (.result rfl) rfl rfl
  exact ⟨_, returned, rfl, returned.valid.machine.law, (stdcall_protocol Unit Unit).2 _ returned⟩

end Trusty.Monitor.Stdcall
