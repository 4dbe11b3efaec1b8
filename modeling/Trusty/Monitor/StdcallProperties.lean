import Trusty.Monitor.Stdcall

/-!
# One call at a time

What holds in every interleaving of the standard call steps, whatever the
normal world does.
-/

namespace Trusty.Monitor.Stdcall

open List

open Function (update update_self update_of_ne)

variable {Cpu : Type} {machine next : Machine Cpu} {cpu : Cpu}

def Machine.Pending (machine : Machine Cpu) : Prop :=
  machine.state.signalled = true ∨ machine.state.done = true

structure Counts (machine : Machine Cpu) (started completed handed : Nat) : Prop where
  started : machine.started.map Prod.fst = range started
  completed : machine.completed.map Prod.fst = range completed
  handed : machine.handed.map Handed.id = range handed

/-- The states of the event, the flag `done` and the handler that occur together. -/
inductive Progress (machine : Machine Cpu) : Prop where
  | idle : machine.state.signalled = false → machine.state.done = false →
      machine.handler = none →
      Counts machine machine.accepted.length machine.accepted.length machine.accepted.length →
      Progress machine
  | queued {earlier : List SmcArgs} : machine.state.signalled = true →
      machine.state.done = false → machine.handler = none →
      machine.accepted = earlier ++ [machine.state.args] →
      Counts machine earlier.length earlier.length earlier.length → Progress machine
  | running {earlier : List SmcArgs} : machine.state.signalled = true →
      machine.state.done = false →
      machine.handler = some (earlier.length, machine.state.args) →
      machine.accepted = earlier ++ [machine.state.args] →
      Counts machine (earlier.length + 1) earlier.length earlier.length → Progress machine
  | finished {earlier : List SmcArgs} : machine.state.signalled = false →
      machine.state.done = true → machine.handler = none →
      machine.accepted = earlier ++ [machine.state.args] →
      Counts machine (earlier.length + 1) (earlier.length + 1) earlier.length →
      (earlier.length, machine.state.ret) ∈ machine.completed → Progress machine

structure Waits (machine : Machine Cpu) (cpu : Cpu) : Prop where
  pending : machine.Pending
  entered : ∃ entry,
    (machine.cpus cpu = .secure entry ∨ machine.cpus cpu = .checked entry) ∧
      (entry = .call machine.last ∧ machine.state.restartCount = 0 ∨
        entry = .restart machine.last)

structure Valid (machine : Machine Cpu) : Prop where
  progress : Progress machine
  active : ∀ cpu, machine.state.activeCpu = some cpu → Waits machine cpu
  checked : ∀ cpu entry, machine.cpus cpu = .checked entry → machine.state.activeCpu = some cpu
  startedArgs : ∀ run ∈ machine.started, machine.accepted[run.1]? = some run.2
  handedValues : ∀ handed ∈ machine.handed, (handed.id, handed.value) ∈ machine.completed ∧
    (handed.entry = .call handed.id ∨ handed.entry = .restart handed.id)
  sound : machine.failed = false

theorem Valid.initial : Valid (Machine.initial Cpu) where
  progress := .idle rfl rfl rfl ⟨rfl, rfl, rfl⟩
  active := nofun
  checked := nofun
  startedArgs := nofun
  handedValues := nofun
  sound := rfl

theorem last_append {earlier : List SmcArgs} {args : SmcArgs}
    (accepted : machine.accepted = earlier ++ [args]) : machine.last = earlier.length := by
  unfold Machine.last
  rw [accepted, length_append, length_singleton, Nat.add_sub_cancel]

theorem Progress.moved {state : StdCallState Cpu} {cpus : Cpu → World} {api : ApiVersion} {failed : Bool}
    (progress : Progress machine) (signalled : state.signalled = machine.state.signalled)
    (done : state.done = machine.state.done) (args : state.args = machine.state.args)
    (ret : state.ret = machine.state.ret) : Progress { machine with state, cpus, api, failed } := by
  cases progress with
  | idle unsignalled undone none' counts =>
    exact .idle (signalled.trans unsignalled) (done.trans undone) none'
      ⟨counts.started, counts.completed, counts.handed⟩
  | queued isSignalled undone none' accepted counts =>
    refine .queued (signalled.trans isSignalled) (done.trans undone) none' ?_
      ⟨counts.started, counts.completed, counts.handed⟩
    rw [args]
    exact accepted
  | running isSignalled undone runs accepted counts =>
    refine .running (signalled.trans isSignalled) (done.trans undone) ?_ ?_
      ⟨counts.started, counts.completed, counts.handed⟩
    · rw [args]
      exact runs
    · rw [args]
      exact accepted
  | finished unsignalled isDone none' accepted counts value =>
  refine .finished (signalled.trans unsignalled) (done.trans isDone) none' ?_
    ⟨counts.started, counts.completed, counts.handed⟩ ?_
  · rw [args]
    exact accepted
  · rw [ret]
    exact value

theorem not_pending (progress : Progress machine) (free : ¬machine.Pending) :
    machine.state.signalled = false ∧ machine.state.done = false ∧ machine.handler = none ∧
      Counts machine machine.accepted.length machine.accepted.length machine.accepted.length := by
  cases progress with
  | idle unsignalled undone none' counts => exact ⟨unsignalled, undone, none', counts⟩
  | queued isSignalled | running isSignalled => exact absurd (.inl isSignalled) free
  | finished _ isDone => exact absurd (.inr isDone) free

/-- The cases of `sm_queue_stdcall`. -/
inductive Queued (state : StdCallState Cpu) (cpu : Cpu) (args : SmcArgs) :
    Int × StdCallState Cpu → Prop where
  | refused {ret : Int} : ret ≠ 0 →
      (ret = smErrBusy → state.signalled = true ∨ state.done = true) →
      (ret = smErrBusy ∨ ret = smErrUnexpectedRestart) →
      (args.smcNr ≠ smcScRestartLast → state.signalled = true ∨ state.done = true) →
      (args.smcNr = smcScRestartLast → state.activeCpu = none →
        ¬(state.signalled = true ∨ state.done = true)) →
      Queued state cpu args (ret, state)
  | restarted : args.smcNr = smcScRestartLast → state.activeCpu = none →
      (state.signalled = true ∨ state.done = true) →
      Queued state cpu args
        (0, { state with restartCount := state.restartCount + 1, activeCpu := some cpu })
  | accepted : args.smcNr ≠ smcScRestartLast →
      ¬(state.signalled = true ∨ state.done = true) →
      Queued state cpu args
        (0, { state with
          initialCpu := some cpu
          ret := smErrInternalFailure
          args
          restartCount := 0
          signalled := true
          activeCpu := some cpu })

theorem smQueueStdcall_queued (state : StdCallState Cpu) (cpu : Cpu) (args : SmcArgs) :
    Queued state cpu args (smQueueStdcall state cpu args) := by
  unfold smQueueStdcall
  split
  · rename_i pending
    rw [Bool.or_eq_true] at pending
    split
    · rename_i restarts
      exact .restarted restarts.1 restarts.2 pending
    · rename_i busy
      exact .refused (by decide) (fun _ => pending) (.inl rfl) (fun _ => pending)
        fun restart free => absurd ⟨restart, free⟩ busy
  · rename_i free
    rw [Bool.or_eq_true] at free
    split
    · rename_i restart
      exact .refused (by decide) (fun busy => absurd busy (by decide)) (.inr rfl)
        (fun other => absurd restart other) fun _ _ => free
    · rename_i fresh
      exact .accepted fresh free

variable [DecidableEq Cpu]

inductive SmcOutcome (machine : Machine Cpu) (cpu : Cpu) (args : SmcArgs) :
    Option Int × Machine Cpu → Prop where
  | nop : args.smcNr = smcScNop → SmcOutcome machine cpu args
      (none, { machine with cpus := update machine.cpus cpu (.secure .nop) })
  | refused {ret : Int} : args.smcNr ≠ smcScNop →
      (ret = smErrBusy ∨ ret = smErrUnexpectedRestart) →
      (ret = smErrBusy → machine.Pending) →
      (args.smcNr ≠ smcScRestartLast → machine.Pending) →
      (args.smcNr = smcScRestartLast → machine.state.activeCpu = none → ¬machine.Pending) →
      SmcOutcome machine cpu args (some ret, machine)
  | restarted : args.smcNr = smcScRestartLast → args.smcNr ≠ smcScNop →
      machine.state.activeCpu = none → machine.Pending →
      SmcOutcome machine cpu args (none, { machine with
        state := { machine.state with
          restartCount := machine.state.restartCount + 1, activeCpu := some cpu }
        cpus := update machine.cpus cpu (.secure (.restart machine.last)) })
  | accepted : args.smcNr ≠ smcScRestartLast → args.smcNr ≠ smcScNop → ¬machine.Pending →
      SmcOutcome machine cpu args (none, { machine with
        state := { machine.state with
          initialCpu := some cpu
          ret := smErrInternalFailure
          args
          restartCount := 0
          signalled := true
          activeCpu := some cpu }
        cpus := update machine.cpus cpu (.secure (.call machine.accepted.length))
        accepted := machine.accepted ++ [args] })

theorem Machine.smc_outcome (machine : Machine Cpu) (cpu : Cpu) (args : SmcArgs) :
    SmcOutcome machine cpu args (machine.smc cpu args) := by
  unfold Machine.smc
  split
  · rename_i nop
    exact .nop nop
  rename_i other
  have queued := smQueueStdcall_queued machine.state cpu args
  generalize smQueueStdcall machine.state cpu args = outcome at queued
  cases queued with
  | refused nonzero busy codes fresh restart =>
    dsimp only
    rw [if_pos nonzero]
    exact .refused other codes busy fresh restart
  | restarted restarts free pending =>
    dsimp only
    rw [if_neg (not_not.mpr rfl), if_pos restarts]
    exact .restarted restarts other free pending
  | accepted fresh free =>
  dsimp only
  rw [if_neg (not_not.mpr rfl), if_neg fresh]
  exact .accepted fresh other free

variable {entry : Entry}

theorem entered_ne {world : World} (normal : machine.cpus cpu = .normal) {other : Cpu}
    (inside : machine.cpus other = .secure entry ∨ machine.cpus other = .checked entry) :
    update machine.cpus cpu world other = machine.cpus other := by
  apply update_of_ne
  intro same
  rw [same, normal] at inside
  rcases inside with is | is
  · nomatch is
  · nomatch is

variable {waiting : Cpu}

theorem Waits.other {world : World} (waits : Waits machine waiting) (normal : machine.cpus cpu = .normal) :
    Waits { machine with cpus := update machine.cpus cpu world } waiting := by
  obtain ⟨entry, inside, kind⟩ := waits.entered
  refine ⟨waits.pending, entry, ?_, kind⟩
  dsimp only
  rw [entered_ne normal inside]
  exact inside

theorem checked_entered {other : Entry} (is : update machine.cpus cpu (.secure other) waiting = .checked entry) :
    machine.cpus waiting = .checked entry := by
  by_cases same : waiting = cpu
  · rw [same, update_self] at is
    nomatch is
  · rwa [update_of_ne same] at is

theorem Valid.smc (valid : Valid machine) (normal : machine.cpus cpu = .normal) (args : SmcArgs) :
    Valid (machine.smc cpu args).2 := by
  have outcome := machine.smc_outcome cpu args
  generalize machine.smc cpu args = result at outcome
  cases outcome with
  | nop =>
    exact { valid with
      progress := valid.progress.moved rfl rfl rfl rfl
      active := fun waiting is => (valid.active waiting is).other normal
      checked := fun waiting entry is => valid.checked waiting entry (checked_entered is) }
  | refused => exact valid
  | restarted restarts _ free pending =>
    exact { valid with
      progress := valid.progress.moved rfl rfl rfl rfl
      active := by
        intro waiting is
        cases is
        exact ⟨pending, _, .inl (update_self ..), .inr rfl⟩
      checked := by
        intro waiting entry is
        have earlier := valid.checked waiting entry (checked_entered is)
        nomatch earlier.symm.trans free }
  | accepted fresh _ free =>
  obtain ⟨_, undone, none', counts⟩ := not_pending valid.progress free
  exact { valid with
    progress := .queued rfl undone none' rfl ⟨counts.started, counts.completed, counts.handed⟩
    active := by
      intro waiting is
      cases is
      refine ⟨.inl rfl, _, .inl (update_self ..), .inl ⟨?_, rfl⟩⟩
      exact congrArg Entry.call (last_append rfl).symm
    checked := by
      intro waiting entry is
      have earlier := valid.checked waiting entry (checked_entered is)
      exact absurd (valid.active waiting earlier).pending free
    startedArgs := by
      intro run among
      have known := valid.startedArgs run among
      have bound := (List.getElem?_eq_some_iff.mp known).1
      rw [List.getElem?_append_left bound]
      exact known }

theorem Valid.internal {Allowed : Int → Prop} (valid : Valid machine) (step : Internal Allowed machine next) :
    Valid next := by
  cases step with
  | start none' signalled =>
    cases valid.progress with
    | idle unsignalled => nomatch unsignalled.symm.trans signalled
    | running _ _ runs => nomatch runs.symm.trans none'
    | finished unsignalled => nomatch unsignalled.symm.trans signalled
    | queued _ undone _ accepted counts =>
    have last := last_append accepted
    exact { valid with
      progress := by
        refine .running signalled undone (by rw [last]) accepted ⟨?_, counts.completed, counts.handed⟩
        rw [map_append, counts.started, map_singleton, last, range_succ]
      active := fun waiting is =>
        ⟨(valid.active waiting is).pending, (valid.active waiting is).entered⟩
      startedArgs := by
        intro run among
        rcases mem_append.mp among with earlier | new
        · exact valid.startedArgs run earlier
        rw [mem_singleton.mp new]
        rw [last, accepted]
        exact getElem?_concat_length .. }
  | @complete id args ret _ runs =>
    cases valid.progress with
    | idle _ _ none' | queued _ _ none' | finished _ _ none' => nomatch none'.symm.trans runs
    | running signalled undone handler accepted counts =>
    obtain ⟨rfl, rfl⟩ := Prod.mk.inj (Option.some.inj (handler.symm.trans runs))
    exact { valid with
      progress := by
        refine .finished rfl rfl rfl accepted ⟨counts.started, ?_, counts.handed⟩ ?_
        · rw [map_append, counts.completed, map_singleton, range_succ]
        · exact mem_append_right _ mem_cons_self
      active := fun waiting is => ⟨.inr rfl, (valid.active waiting is).entered⟩
      handedValues := fun handed among =>
        ⟨mem_append_left _ (valid.handedValues handed among).1, (valid.handedValues handed among).2⟩ }
  | @check cpu entry inside waits =>
    exact { valid with
      progress := valid.progress.moved rfl rfl rfl rfl
      active := by
        intro waiting is
        have same : waiting = cpu := Option.some.inj (is.symm.trans waits)
        subst same
        obtain ⟨pending, known, place, kind⟩ := valid.active waiting is
        refine ⟨pending, known, .inr ?_, kind⟩
        dsimp only
        rw [update_self]
        rcases place with secure | checked
        · rw [World.secure.inj (inside.symm.trans secure)]
        · nomatch inside.symm.trans checked
      checked := by
        intro waiting other is
        by_cases same : waiting = cpu
        · rw [same]
          exact waits
        · dsimp only at is
          rw [update_of_ne same] at is
          exact valid.checked waiting other is }
  | apiVersion =>
  exact { valid with
    progress := valid.progress.moved rfl rfl rfl rfl
    active := fun waiting is =>
      ⟨(valid.active waiting is).pending, (valid.active waiting is).entered⟩ }

theorem checked_left (is : update machine.cpus cpu .normal waiting = .checked entry) :
    waiting ≠ cpu ∧ machine.cpus waiting = .checked entry := by
  have apart : waiting ≠ cpu := by
    intro same
    rw [same, update_self] at is
    nomatch is
  exact ⟨apart, by rwa [update_of_ne apart] at is⟩

theorem Valid.left (valid : Valid machine) (other : machine.state.activeCpu ≠ some cpu) :
    Valid (machine.left cpu) := { valid with
  progress := valid.progress.moved rfl rfl rfl rfl
  active := by
    intro waiting is
    have apart : waiting ≠ cpu := fun same => other (same ▸ is)
    obtain ⟨pending, entry, place, kind⟩ := valid.active waiting is
    refine ⟨pending, entry, ?_, kind⟩
    unfold Machine.left
    dsimp only
    rw [update_of_ne apart]
    exact place
  checked waiting entry is := valid.checked waiting entry (checked_left is).2 }

theorem Valid.stopped (valid : Valid machine) (waits : machine.state.activeCpu = some cpu) (next : Machine Cpu)
    (progress : Progress next) (free : next.state.activeCpu = none) (cpus : next.cpus = machine.cpus)
    (startedArgs : next.started = machine.started) (accepted : next.accepted = machine.accepted)
    (sound : next.failed = false) (handedValues : ∀ handed ∈ next.handed, (handed.id, handed.value) ∈ next.completed ∧
      (handed.entry = .call handed.id ∨ handed.entry = .restart handed.id)) :
    Valid (next.left cpu) where
  progress := progress.moved rfl rfl rfl rfl
  active waiting is := nomatch free.symm.trans is
  checked waiting entry is := by
    obtain ⟨apart, before⟩ := checked_left is
    rw [cpus] at before
    exact absurd (Option.some.inj ((valid.checked waiting entry before).symm.trans waits)) apart
  startedArgs run among := by
    change run ∈ next.started at among
    change next.accepted[run.1]? = _
    rw [startedArgs] at among
    rw [accepted]
    exact valid.startedArgs run among
  handedValues := handedValues
  sound := sound

inductive Left (machine : Machine Cpu) (cpu : Cpu) : Int → Machine Cpu → Prop where
  | unrelated {ret : Int} : machine.state.activeCpu ≠ some cpu →
      (∀ entry, machine.cpus cpu ≠ .checked entry) →
      (ret = smErrNopDone ∨ ret = smErrNopInterrupted) → Left machine cpu ret (machine.left cpu)
  | stopped {ret : Int} {state : StdCallState Cpu} {api : ApiVersion} :
      machine.state.activeCpu = some cpu →
      state = { machine.state with lastCpu := some cpu, activeCpu := none } →
      (ret = smErrInterrupted ∨ ret = smErrCpuIdle ∨
        ret = smErrBusy ∧ machine.state.restartCount ≠ 0) →
      Left machine cpu ret ({ machine with state, api }.left cpu)
  | result {entry : Entry} : machine.state.activeCpu = some cpu →
      machine.cpus cpu = .checked entry → machine.state.done = true →
      Left machine cpu machine.state.ret ({ machine with
        state := { machine.state with lastCpu := some cpu, activeCpu := none, done := false }
        handed := machine.handed ++ [Handed.mk machine.last machine.state.ret entry] }.left cpu)

theorem Valid.leaves (valid : Valid machine) {ret : Int} (leave : Leave machine cpu ret next) :
    Left machine cpu ret next := by
  cases leave with
  | @irq entry inside =>
    unfold smIrqReturnNs
    by_cases waits : machine.state.activeCpu = some cpu
    · rw [if_pos waits]
      exact @Left.stopped _ _ machine cpu _ _ machine.api waits (by rw [waits]) (.inl rfl)
    · rw [if_neg waits]
      refine .unrelated waits ?_ (.inr rfl)
      intro other is
      nomatch inside.symm.trans is
  | idle inside other =>
    refine .unrelated other ?_ (.inl rfl)
    intro other is
    nomatch inside.symm.trans is
  | @result entry inside =>
  have waits := valid.checked cpu entry inside
  unfold Machine.got smGetStdcallRet smGetApiVersion
  rw [if_neg (not_not.mpr waits)]
  cases done : machine.state.done with
  | true =>
    simp only [waits, if_true, and_self, not_true_eq_false, decide_false, Bool.or_false]
    exact .result waits inside done
  | false =>
  have undone : { machine.state with
      lastCpu := some cpu, activeCpu := none, done := false } =
      { machine.state with lastCpu := some cpu, activeCpu := none } := by
    rw [← done]
  simp only [waits, Bool.false_eq_true, if_false, and_false, not_true_eq_false, decide_false, Bool.or_false]
  split
  · exact .stopped waits undone (.inr (.inl rfl))
  split
  · rename_i restarted
    exact .stopped waits undone (.inr (.inr ⟨rfl, restarted⟩))
  · exact .stopped waits undone (.inl rfl)

theorem Valid.leave (valid : Valid machine) {ret : Int} (leave : Leave machine cpu ret next) : Valid next := by
  cases valid.leaves leave with
  | unrelated other => exact valid.left other
  | stopped waits state =>
    subst state
    refine valid.stopped waits _ ?_ rfl rfl rfl rfl valid.sound valid.handedValues
    exact valid.progress.moved rfl rfl rfl rfl
  | @result entry waits inside done =>
  obtain ⟨_, known, place, kind⟩ := valid.active cpu waits
  have entryIs : known = entry := by
    rcases place with secure | checked
    · nomatch secure.symm.trans inside
    · exact World.checked.inj (checked.symm.trans inside)
  subst entryIs
  cases valid.progress with
  | idle _ undone | queued _ undone | running _ undone => nomatch undone.symm.trans done
  | finished unsignalled _ none' accepted counts value =>
  have last := last_append accepted
  refine valid.stopped waits _ ?_ rfl rfl rfl rfl valid.sound ?_
  · have length : machine.accepted.length = machine.last + 1 := by
      rw [last, accepted, length_append, length_singleton]
    refine .idle unsignalled rfl none' ⟨?_, ?_, ?_⟩
    · rw [length, last]
      exact counts.started
    · rw [length, last]
      exact counts.completed
    · rw [length, map_append, counts.handed, map_singleton, last, range_succ]
  · intro handed among
    rcases mem_append.mp among with earlier | new
    · exact valid.handedValues handed earlier
    rw [mem_singleton.mp new]
    rw [last]
    refine ⟨value, ?_⟩
    rw [last] at kind
    rcases kind with call | restart
    · exact .inl call.1
    · exact .inr restart

theorem Reached.valid (reached : Reached machine) : Valid machine := by
  induction reached with
  | initial => exact .initial
  | smc args _ normal ih => exact ih.smc normal args
  | internal _ step ih => exact ih.internal step
  | leave _ leave ih => exact ih.leave leave

structure StdcallLaw (machine : Machine Cpu) : Prop where
  once : machine.started.map Prod.fst = range machine.started.length
  /-- Only the last call can still wait for its handler, which is then about to start. -/
  none_lost : machine.started.length = machine.accepted.length ∨
    machine.started.length + 1 = machine.accepted.length ∧
      machine.state.signalled = true ∧ machine.handler = none
  startedArgs : ∀ run ∈ machine.started, machine.accepted[run.1]? = some run.2
  argsKept : ∀ id args, machine.handler = some (id, args) → machine.state.args = args
  completedOnce : (machine.completed.map Prod.fst).Nodup
  handedOnce : (machine.handed.map Handed.id).Nodup
  handedValues : ∀ handed ∈ machine.handed, (handed.id, handed.value) ∈ machine.completed ∧
    (handed.entry = .call handed.id ∨ handed.entry = .restart handed.id)
  sound : machine.failed = false

omit [DecidableEq Cpu] in
theorem Counts.length {started completed handed : Nat}
    (counts : Counts machine started completed handed) : machine.started.length = started := by
  have lengths := congrArg List.length counts.started
  rwa [length_map, length_range] at lengths

omit [DecidableEq Cpu] in
theorem Counts.law {started completed handed : Nat} (counts : Counts machine started completed handed) :
    machine.started.map Prod.fst = range machine.started.length ∧
      (machine.completed.map Prod.fst).Nodup ∧ (machine.handed.map Handed.id).Nodup := by
  rw [counts.length, counts.started, counts.completed, counts.handed]
  exact ⟨rfl, nodup_range, nodup_range⟩

omit [DecidableEq Cpu] in
theorem Valid.law (valid : Valid machine) : StdcallLaw machine := by
  obtain ⟨progress, _, _, startedArgs, handedValues, sound⟩ := valid
  cases progress with
  | idle _ _ none' counts =>
    obtain ⟨once, completedOnce, handedOnce⟩ := counts.law
    exact ⟨once, .inl counts.length, startedArgs, fun _ _ is => (nomatch none'.symm.trans is),
      completedOnce, handedOnce, handedValues, sound⟩
  | queued signalled _ none' accepted counts =>
    obtain ⟨once, completedOnce, handedOnce⟩ := counts.law
    refine ⟨once, .inr ⟨?_, signalled, none'⟩, startedArgs,
      fun _ _ is => (nomatch none'.symm.trans is), completedOnce, handedOnce, handedValues, sound⟩
    rw [counts.length, accepted, length_append, length_singleton]
  | running _ _ runs accepted counts =>
    obtain ⟨once, completedOnce, handedOnce⟩ := counts.law
    refine ⟨once, .inl ?_, startedArgs, ?_, completedOnce, handedOnce, handedValues, sound⟩
    · rw [counts.length, accepted, length_append, length_singleton]
    · intro id args is
      exact (Prod.mk.inj (Option.some.inj (runs.symm.trans is))).2
  | finished _ _ none' accepted counts _ =>
  obtain ⟨once, completedOnce, handedOnce⟩ := counts.law
  refine ⟨once, .inl ?_, startedArgs, fun _ _ is => (nomatch none'.symm.trans is),
    completedOnce, handedOnce, handedValues, sound⟩
  rw [counts.length, accepted, length_append, length_singleton]

end Trusty.Monitor.Stdcall
