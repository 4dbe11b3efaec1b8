import Trusty.Gatekeeper.ThrottleProperties

/-!
# Throttling along histories

What a check of a password finds in every history: with a record in storage through
any number of boots, with one in memory within a boot.
-/

namespace Trusty.Gatekeeper

open List

variable {system : System}

theorem Reached.counted {reboots : Bool} (reached : Reached reboots system) {uid : UInt32} {handle : PasswordHandle}
    {password : Option (List UInt8)} {next : Bool → GkM Response}
    (asks : system.running = some (.ask (.doVerify uid handle password) next)) (throttle : handle.throttle) :
    ∃ record attempt before, system.world.record (handle.place uid) = some record ∧
      record.secureUserId = handle.userId ∧
      attempts (handle.place uid) system.world.log = attempt :: before ∧
      attempt.boot = system.world.boot ∧
      Tracks record (attempt :: before) system.world.boot system.world.ms ∧
      before.length = evaluations (handle.place uid) system.world.log +
        cutOffs (handle.place uid) system.world.log := by
  have valid := reached.valid
  unfold System.Valid at valid
  rw [asks] at valid
  obtain ⟨steady, pending⟩ := valid.guarded
  dsimp only at pending
  rw [if_pos throttle] at pending
  obtain ⟨attempt, before, log, boot⟩ := pending.counted
  obtain ⟨record, is, owner⟩ := pending.record
  have made : attempts (handle.place uid) system.world.log = attempt :: attempts (handle.place uid) before := by
    rw [log]
    simp [attempts, Entry.resets]
  have tracks := steady.tracks _ record is
  have balanced := steady.balanced (handle.place uid)
  rw [made] at tracks balanced
  refine ⟨record, attempt, _, is, owner, made, boot, tracks, ?_⟩
  rw [log] at balanced ⊢
  simpa using balanced

/-- At every check with a secure record, the stored counter is the number of attempts
since the record was cleared, this one included. Those before were checked or cut off
by a boot, all were for this user, and each waited for the timeout of the last. -/
theorem secure_attempts_counted {reboots : Bool} {system : System} (reached : Reached reboots system) {uid : UInt32}
    {handle : PasswordHandle} {password : Option (List UInt8)} {next : Bool → GkM Response}
    (asks : system.running = some (.ask (.doVerify uid handle password) next)) (throttle : handle.throttle)
    (secure : handle.throttleSecure) :
    ∃ record attempt before, system.world.store uid = some record ∧ record.secureUserId = handle.userId ∧
      attempts (.secure uid) system.world.log = attempt :: before ∧
      attempt.counter = record.failureCounter ∧ attempt.boot = system.world.boot ∧
      attempt.time.toNat ≤ system.world.ms ∧
      record.failureCounter.toNat = (before.length + 1) % 2 ^ 32 ∧
      before.length = evaluations (.secure uid) system.world.log + cutOffs (.secure uid) system.world.log ∧
      Paced (attempt :: before) ∧ Numbered (attempt :: before) ∧
      OwnedBy handle.userId (.secure uid) system.world.log ∧ Sound system.world.log := by
  have place : handle.place uid = .secure uid := by simp [PasswordHandle.place, secure]
  obtain ⟨record, attempt, before, is, owner, made, boot, tracks, balanced⟩ := reached.counted asks throttle
  have steady := reached.valid.steady
  have owned := steady.owned _ record is
  rw [place] at is made balanced owned
  rw [owner] at owned
  exact ⟨record, attempt, before, is, owner, made, (tracks.latest attempt rfl).1, boot,
    (tracks.past attempt mem_cons_self).2 boot, tracks.counter, balanced, tracks.paced,
    tracks.numbered, owned, steady.sound⟩

section Steps

variable {reboots : Bool} {origin : System} {world : World}

theorem steps_request (steps : Relation.ReflTransGen (Step reboots) origin ⟨world, none⟩) (request : Request) :
    Relation.ReflTransGen (Step reboots) origin ⟨world, some request.program⟩ :=
  steps.tail (.request request)

theorem steps_answer {after : World} {program : GkM Response} (op : GkOp) (reply : op.Reply)
    {next : op.Reply → GkM Response} (steps : Relation.ReflTransGen (Step reboots) origin ⟨world, some program⟩)
    (is : program = .ask op next) (answered : surroundings.answer world op reply after) :
    Relation.ReflTransGen (Step reboots) origin ⟨after, some (next reply)⟩ := by
  rw [is] at steps
  exact steps.tail (.answer answered)

theorem steps_respond {program : GkM Response} (response : Response)
    (steps : Relation.ReflTransGen (Step reboots) origin ⟨world, some program⟩) (is : program = .done response) :
    Relation.ReflTransGen (Step reboots) origin ⟨world, none⟩ := by
  rw [is] at steps
  exact steps.tail .respond

end Steps

def secureHandle : PasswordHandle := ⟨2, 5, 1⟩

def enrolled : World :=
  World.wroteSecure { World.start with log := [.drew 5] } .clear 7 (noFailures 5)

theorem enrolled_reached : Reached true ⟨enrolled, none⟩ := by
  have start : Reached true ⟨.start, _⟩ := steps_request .refl (.enroll ⟨7, none, none, some []⟩)
  have drew := steps_answer .drawUserId 5 start rfl rfl
  have cleared := steps_answer (.writeSecure .clear 7 (noFailures 5)) true drew rfl (.inr ⟨rfl, rfl⟩)
  have salted := steps_answer .drawSalt 0 cleared rfl rfl
  exact steps_respond (.enrolled .ok) salted rfl

def cutOff : World := (enrolled.wroteSecure .count 7 ⟨5, 0, 1⟩).rebooted

theorem cutOff_reached : Reached true ⟨cutOff, none⟩ := by
  have start := steps_request enrolled_reached (.verify ⟨7, some secureHandle, some []⟩)
  have timed := steps_answer .getTime 0 start rfl ⟨rfl, rfl⟩
  have read := steps_answer (.readSecure 7) (some ⟨5, 0, 0⟩) timed rfl ⟨.inr rfl, rfl⟩
  have counted := steps_answer (.writeSecure .count 7 ⟨5, 0, 1⟩) true read rfl (.inr ⟨rfl, rfl⟩)
  exact counted.tail (.reboot rfl)

theorem second_attempt_reached : ∃ next, Reached true ⟨cutOff.wroteSecure .count 7 ⟨5, 0, 2⟩,
      some (.ask (.doVerify 7 secureHandle (some [])) next)⟩ := by
  have start := steps_request cutOff_reached (.verify ⟨7, some secureHandle, some []⟩)
  have timed := steps_answer .getTime 0 start rfl ⟨rfl, rfl⟩
  have read := steps_answer (.readSecure 7) (some ⟨5, 0, 1⟩) timed rfl ⟨.inr rfl, rfl⟩
  have counted := steps_answer (.writeSecure .count 7 ⟨5, 0, 2⟩) true read rfl (.inr ⟨rfl, rfl⟩)
  exact ⟨_, counted⟩

theorem second_attempt_counted : ∃ system : System, Reached true system ∧
    ∃ record attempt before, system.world.store 7 = some record ∧ record.secureUserId = 5 ∧
      attempts (.secure 7) system.world.log = attempt :: before ∧
      record.failureCounter.toNat = (before.length + 1) % 2 ^ 32 := by
  obtain ⟨next, reached⟩ := second_attempt_reached
  obtain ⟨record, attempt, before, is, owner, made, _, _, _, counter, _⟩ := secure_attempts_counted reached rfl rfl rfl
  exact ⟨_, reached, record, attempt, before, is, owner, made, counter⟩

/-- A boot between the count and the check: the counter runs ahead of the checks. -/
theorem secure_counter_ahead : ∃ (system : System) (next : Bool → GkM Response)
    (record : FailureRecord), Reached true system ∧
      system.running = some (.ask (.doVerify 7 secureHandle (some [])) next) ∧
      secureHandle.throttle = true ∧ secureHandle.throttleSecure = true ∧
      system.world.store 7 = some record ∧ record.secureUserId = secureHandle.userId ∧
      record.failureCounter.toNat ≠ evaluations (.secure 7) system.world.log + 1 := by
  obtain ⟨next, reached⟩ := second_attempt_reached
  have ahead : (2 : UInt32).toNat ≠ evaluations (.secure 7) (cutOff.wroteSecure .count 7 ⟨5, 0, 2⟩).log + 1 := by decide
  exact ⟨_, next, ⟨5, 0, 2⟩, reached, rfl, rfl, rfl, rfl, rfl, ahead⟩

theorem timeoutOf_day {counter : UInt32} (many : 140 ≤ counter.toNat) : timeoutOf counter = 86400000 := by
  have some : counter ≠ 0 := by
    rintro rfl
    contradiction
  have above : ¬counter < 140 := by
    exact Nat.not_lt.mpr many
  have ten : ¬counter ≤ 10 := by
    show ¬counter.toNat ≤ 10
    omega
  have thirty : ¬counter < 30 := by
    show ¬counter.toNat < 30
    omega
  unfold timeoutOf computeRetryTimeout
  rw [if_neg some, if_neg ten, if_neg thirty, if_neg above]
  rfl

section

variable {boot : Nat} {made : List Attempt} (paced : Paced made) (numbered : Numbered made)
  (same : ∀ attempt ∈ made, attempt.boot = boot)
  (range : ∀ attempt ∈ made, attempt.time.toNat ≤ maxTime)
include paced numbered same range

theorem Paced.days : ∀ attempt ∈ made.head?, 86400000 * (made.length - 141) ≤ attempt.time.toNat := by
  induction made with
  | nil => exact nofun
  | cons latest before ih =>
  intro attempt is
  cases is
  cases before with
  | nil => simp
  | cons previous others =>
  obtain ⟨follows, rest⟩ := isChain_cons_cons.mp paced
  have earlier := ih rest numbered.2 (fun attempt mem => same attempt (.tail _ mem))
    (fun attempt mem => range attempt (.tail _ mem)) previous rfl
  have small := range previous (.tail _ (.head _))
  have boots : previous.boot = latest.boot := (same previous (.tail _ (.head _))).trans (same latest (.head _)).symm
  have waited := follows.2 boots
  have number := numbered.2.1
  simp only [length_cons] at earlier ⊢
  unfold maxTime at small
  by_cases many : 140 ≤ others.length + 1
  · rw [timeoutOf_day (by omega)] at waited
    omega
  · omega

theorem Paced.length_lt : made.length < 2 ^ 32 := by
  cases made with
  | nil => decide
  | cons latest before =>
  have days := paced.days numbered same range latest rfl
  have small := range latest mem_cons_self
  unfold maxTime at small
  omega

end

theorem Reached.boot (reached : Reached false system) : system.world.boot = 0 := by
  induction reached with
  | refl => rfl
  | tail _ step ih =>
  cases step with
  | request => exact ih
  | tick ticks =>
    cases ticks with
    | tick => exact ih
  | @answer world op next reply after answered =>
    cases op with
    | getTime | readSecure | readMemory | doVerify => obtain ⟨_, rfl⟩ := answered; exact ih
    | drawUserId | drawSalt | writeMemory => obtain rfl := answered; exact ih
    | writeSecure => rcases answered with ⟨_, rfl⟩ | ⟨_, rfl⟩ <;> exact ih
  | respond => exact ih
  | reboot allowed => contradiction

/-- The counter that `GetMemoryRecord` shows. -/
def World.counter (world : World) (userId : UInt64) : Nat :=
  (getMemoryRecord world.memory userId).failureCounter.toNat

/-- Within a boot the counter in memory is the number of the attempts, which
does not come near the bound of its type. -/
theorem Reached.counter (reached : Reached false system) (userId : UInt64) :
    system.world.counter userId = (attempts (.memory userId) system.world.log).length := by
  have steady := reached.valid.steady
  have tracks := steady.tracks (.memory userId) _ rfl
  have boot : ∀ attempt ∈ attempts (.memory userId) system.world.log, attempt.boot = 0 := by
    intro attempt mem
    have le := (tracks.past attempt mem).1
    rw [reached.boot] at le
    exact Nat.eq_zero_of_le_zero le
  have range : ∀ attempt ∈ attempts (.memory userId) system.world.log, attempt.time.toNat ≤ maxTime := by
    intro attempt mem
    have le := (tracks.past attempt mem).2 ((boot attempt mem).trans reached.boot.symm)
    exact le_trans le steady.now_toNat.2
  have small := tracks.paced.length_lt tracks.numbered boot range
  exact tracks.counter.trans (Nat.mod_eq_of_lt small)

inductive Lowers (userId : UInt64) (system : System) : Prop where
  | cleared {record : FailureRecord} {next : Unit → GkM Response}
      (asks : system.running = some (.ask (.writeMemory .clear record) next))
      (own : record.secureUserId = userId)
      (justified : Justifies (.memory userId) system.world.log)
  | replaced {purpose : Purpose} {record : FailureRecord} {next : Unit → GkM Response}
      (asks : system.running = some (.ask (.writeMemory purpose record) next))
      (full : system.world.memory.length = maxFailureRecords)
      (new : ∀ other ∈ system.world.memory, other.secureUserId ≠ record.secureUserId)
      (oldest : ∃ old ∈ system.world.memory, old.secureUserId = userId ∧
        ∀ other ∈ system.world.memory, old.lastCheckedTimestamp ≤ other.lastCheckedTimestamp)

variable {record : FailureRecord}

theorem counter_wroteMemory {world : World} (steady : Steady world) {purpose : Purpose} {userId : UInt64}
    (other : userId ≠ record.secureUserId) (kept : victim world.memory record ≠ some userId) :
    (world.wroteMemory purpose record).counter userId = world.counter userId := by
  have written := writeMemoryRecord_written steady.table record
  simp only [World.counter, World.wroteMemory, written.reads, if_neg other, if_neg kept]

theorem clears_of_counter_lt (reached : Reached false system) {purpose : Purpose} {next : Unit → GkM Response}
    (asks : system.running = some (.ask (.writeMemory purpose record) next))
    (lower : (system.world.wroteMemory purpose record).counter record.secureUserId <
      system.world.counter record.secureUserId) : purpose = .clear := by
  have steady := reached.valid.steady
  have wrote := steady.wroteMemory purpose record
  have after : Reached false ⟨system.world.wroteMemory purpose record, some (next ())⟩ := by
    obtain ⟨world, running⟩ := system
    obtain rfl := asks
    have answered : surroundings.answer world (.writeMemory purpose record) () (world.wroteMemory purpose record) := rfl
    exact reached.tail (.answer answered)
  rw [after.counter, reached.counter, wrote.log, attempts_entries, if_pos rfl, attempts_dropped,
    if_neg wrote.apart] at lower
  cases purpose with
  | count =>
    simp only [Purpose.leaves, length_cons] at lower
    omega
  | rebase => exact absurd lower (lt_irrefl _)
  | clear => rfl

theorem lowers_of_counter_lt {after : System} (reached : Reached false system) (step : Step false system after)
    {userId : UInt64} (lower : after.world.counter userId < system.world.counter userId) : Lowers userId system := by
  have valid := reached.valid
  cases step with
  | request | respond => exact absurd lower (lt_irrefl _)
  | tick ticks =>
    cases ticks with
    | tick => exact absurd lower (lt_irrefl _)
  | reboot allowed => contradiction
  | @answer world op next reply after answered =>
  cases op with
  | getTime | readSecure | readMemory | doVerify =>
    obtain ⟨_, rfl⟩ := answered
    exact absurd lower (lt_irrefl _)
  | drawUserId | drawSalt =>
    obtain rfl := answered
    exact absurd lower (lt_irrefl _)
  | writeSecure =>
    rcases answered with ⟨_, rfl⟩ | ⟨_, rfl⟩ <;> exact absurd lower (lt_irrefl _)
  | writeMemory purpose record =>
  obtain rfl := answered
  obtain ⟨steady, guarded⟩ := (valid world .refl).1
  by_cases own : userId = record.secureUserId
  · obtain rfl := own
    obtain rfl := clears_of_counter_lt reached rfl lower
    exact .cleared rfl rfl guarded.2
  by_cases gone : victim world.memory record = some userId
  · obtain ⟨full, new, oldest⟩ := victim_spec steady.table gone
    exact .replaced rfl full new oldest
  · rw [counter_wroteMemory steady own gone] at lower
    exact absurd lower (lt_irrefl _)

theorem cutOffs_memory (userId : UInt64) (log : List Entry) : cutOffs (.memory userId) log = 0 := by
  induction log with
  | nil => rfl
  | cons entry log ih =>
  unfold cutOffs
  split
  · rfl
  rename_i kept
  cases entry with
  | rebooted => exact absurd rfl kept
  | _ => exact ih

/-- Within a boot the counter of a user is the number of attempts since its record was
made. It goes down only where the record is cleared after a right password or is the
oldest of a full table. At every check the attempt is counted, those before were
checked, and it has waited for the timeout of the last. -/
theorem memory_attempts_counted {system : System} (reached : Reached false system) (userId : UInt64) :
    system.world.counter userId = (attempts (.memory userId) system.world.log).length ∧
      Paced (attempts (.memory userId) system.world.log) ∧
      (∀ after, Step false system after →
        after.world.counter userId < system.world.counter userId → Lowers userId system) ∧
      ∀ uid handle password next, system.running = some (.ask (.doVerify uid handle password) next) →
        handle.throttle → handle.throttleSecure = false → handle.userId = userId →
        ∃ attempt before, attempts (.memory userId) system.world.log = attempt :: before ∧
          before.length = evaluations (.memory userId) system.world.log ∧
          attempt.time.toNat ≤ system.world.ms ∧
          ∀ previous ∈ before.head?, previous.counter.toNat = before.length ∧
            previous.time.toNat + timeoutOf previous.counter ≤ attempt.time.toNat := by
  have steady := reached.valid.steady
  refine ⟨reached.counter userId, (steady.tracks (.memory userId) _ rfl).paced,
    fun after step lower => lowers_of_counter_lt reached step lower, ?_⟩
  intro uid handle password next asks throttle inMemory own
  have place : handle.place uid = .memory userId := by
    simp [PasswordHandle.place, inMemory, own]
  obtain ⟨record, attempt, before, is, _, made, boot, tracks, balanced⟩ := reached.counted asks throttle
  rw [place] at is made balanced
  rw [cutOffs_memory, add_zero] at balanced
  refine ⟨attempt, before, made, balanced, (tracks.past attempt mem_cons_self).2 boot, ?_⟩
  have counter := reached.counter userId
  rw [made] at counter
  intro previous first
  cases before with
  | nil => contradiction
  | cons head rest =>
  obtain rfl := Option.some.inj first
  obtain ⟨follows, _⟩ := isChain_cons_cons.mp tracks.paced
  have same : head.boot = attempt.boot := by
    have le := (tracks.past head (.tail _ (.head _))).1
    have zero := reached.boot
    omega
  refine ⟨?_, follows.2 same⟩
  have small := (getMemoryRecord system.world.memory userId).failureCounter.toNat_lt
  unfold World.counter at counter
  rw [tracks.numbered.2.1, length_cons]
  simp only [length_cons] at counter
  omega

theorem memory_throttleSecure (userId : UInt64) : PasswordHandle.throttleSecure ⟨2, userId, 0⟩ = false := by
  show ((0 : UInt64) &&& 1 != 0) = false
  decide

def guessed (world : World) (userId : UInt64) : World :=
  let counted := world.wroteMemory .count ⟨userId, 0, 1⟩
  { counted with log := .evaluated 7 ⟨2, userId, 0⟩ false :: counted.log }

theorem steps_guessed {origin : System} {world : World} (userId : UInt64)
    (steps : Relation.ReflTransGen (Step false) origin ⟨world, none⟩) (clock : world.clock = 0)
    (fresh : getMemoryRecord world.memory userId = noFailures userId) :
    Relation.ReflTransGen (Step false) origin ⟨guessed world userId, none⟩ := by
  have start := steps_request steps (.verify ⟨7, some ⟨2, userId, 0⟩, some []⟩)
  have timed := steps_answer .getTime 0 start rfl ⟨by rw [World.now, clock]; rfl, rfl⟩
  simp only [throttled, countAttempt, getFailureRecord, throttleRequest, incrementFailureRecord,
    writeFailureRecord, memory_throttleSecure, Interaction.bind, Bool.false_eq_true, if_false]
    at timed
  have read := steps_answer (.readMemory userId) (noFailures userId) timed rfl ⟨fresh.symm, rfl⟩
  have counted := steps_answer (.writeMemory .count ⟨userId, 0, 1⟩) () read rfl rfl
  have checked := steps_answer (.doVerify 7 ⟨2, userId, 0⟩ (some [])) false counted rfl ⟨fun _ => rfl, rfl⟩
  exact steps_respond (.verified .invalid false) checked rfl

def guesses : Nat → World
  | 0 => .start
  | count + 1 => guessed (guesses count) (.ofNat count)

theorem guesses_clock (count : Nat) : (guesses count).clock = 0 := by
  induction count with
  | zero => rfl
  | succ count ih => exact ih

theorem guesses_reached : Reached false ⟨guesses 10, none⟩ := by
  have below : ∀ count ≤ 10, Reached false ⟨guesses count, none⟩ := by
    intro count le
    induction count with
    | zero => exact .refl
    | succ count ih =>
    refine steps_guessed _ (ih (by omega)) (guesses_clock count) ?_
    have fresh : ∀ count < 10, getMemoryRecord (guesses count).memory (.ofNat count) =
        noFailures (.ofNat count) := by decide
    exact fresh count (by omega)
  exact below 10 (le_refl 10)

theorem guesses_counted : (guesses 10).counter 9 =
    (attempts (.memory 9) (guesses 10).log).length ∧ (guesses 10).counter 9 = 1 :=
  ⟨(memory_attempts_counted guesses_reached 9).1, by decide⟩

/-- A wrong password for an eleventh user resets the counter of the tenth. -/
theorem memory_counter_lost : ∃ before after : World, Reached false ⟨before, none⟩ ∧
    Relation.ReflTransGen (Step false) ⟨before, none⟩ ⟨after, none⟩ ∧
    after.counter 9 < before.counter 9 ∧
    ∀ uid handle, Entry.evaluated uid handle true ∉ after.log := by
  refine ⟨guesses 10, guesses 11, guesses_reached, ?_, by decide, ?_⟩
  · exact steps_guessed 10 .refl (guesses_clock 10) (by decide)
  have wrong : ∀ count uid handle, Entry.evaluated uid handle true ∉ (guesses count).log := by
    intro count uid handle
    induction count with
    | zero => exact nofun
    | succ count ih =>
    intro mem
    simp only [guesses, guessed, World.wroteMemory, Purpose.entries, droppedEntries] at mem
    cases gone : victim (guesses count).memory ⟨.ofNat count, 0, 1⟩ with
    | none | some userId => simp [gone, ih] at mem
  exact wrong 11

end Trusty.Gatekeeper
