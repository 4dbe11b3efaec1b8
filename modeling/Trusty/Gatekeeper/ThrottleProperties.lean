import Trusty.Gatekeeper.ThrottleInvariant

/-!
# Requests keep the records in step with the log

Rules for the parts of a request, what every request asks for, and from that the
invariant of every history.
-/

namespace Trusty.Gatekeeper

open Interaction

structure Later (world later : World) : Prop where
  steady : Steady later
  is : later = { world with clock := later.clock }
  le : world.ms ≤ later.ms

section Later

variable {world later : World}

theorem Later.refl (steady : Steady world) : Later world world := ⟨steady, rfl, Nat.le_refl _⟩

section

variable (waited : Later world later)
include waited

theorem Later.log : later.log = world.log := by rw [waited.is]

theorem Later.boot : later.boot = world.boot := by rw [waited.is]

theorem Later.record (place : Place) : later.record place = world.record place := by
  rw [waited.is]
  cases place <;> rfl

theorem Later.settled (settled : Settled world.log) : Settled later.log := by
  rw [waited.log]
  exact settled

end

theorem stable_later (world : World) : Stable surroundings (Later world) := by
  intro first second waited ticks
  have steady := waited.steady.tick ticks
  cases ticks with
  | tick le range =>
  have ms := waited.le
  refine ⟨steady, by rw [waited.is], ?_⟩
  unfold World.ms at ms ⊢
  dsimp only
  omega

end Later

structure Pending (uid : UInt32) (handle : PasswordHandle) (world : World) : Prop where
  counted : ∃ attempt before, world.log = .counted (handle.place uid) attempt :: before ∧
    attempt.boot = world.boot
  record : ∃ record, world.record (handle.place uid) = some record ∧
    record.secureUserId = handle.userId

def Guard (op : GkOp) (world : World) : Prop :=
  Steady world ∧
    match op with
    | .doVerify uid handle _ =>
      if handle.throttle then Pending uid handle world else Settled world.log
    | .writeSecure .clear uid _ => Settled world.log ∧ Justifies (.secure uid) world.log
    | .writeMemory .clear record =>
      Settled world.log ∧ Justifies (.memory record.secureUserId) world.log
    | _ => Settled world.log

def Ended {α : Type} (_ : α) (world : World) : Prop := Steady world ∧ Settled world.log

theorem Pending.later {uid : UInt32} {handle : PasswordHandle} {world later : World}
    (pending : Pending uid handle world) (waited : Later world later) : Pending uid handle later := by
  obtain ⟨counted, record⟩ := pending
  rw [← waited.log, ← waited.boot] at counted
  rw [← waited.record] at record
  exact ⟨counted, record⟩

structure Timed (timestamp : UInt64) (world : World) : Prop where
  range : timestamp.toNat ≤ maxTime
  reached : timestamp.toNat ≤ world.ms
  passed : ∀ place record, world.record place = some record →
    ∀ attempt ∈ attempts place world.log, attempt.boot = world.boot →
      attempt.time.toNat ≤ timestamp.toNat

theorem Timed.later {timestamp : UInt64} {world later : World} (timed : Timed timestamp world)
    (waited : Later world later) : Timed timestamp later := by
  refine ⟨timed.range, le_trans timed.reached waited.le, ?_⟩
  rw [waited.log, waited.boot]
  intro place record is
  rw [waited.record] at is
  exact timed.passed place record is

theorem Steady.timed {world : World} (steady : Steady world) : Timed world.now world := by
  obtain ⟨now, range⟩ := steady.now_toNat
  refine ⟨by rw [now]; exact range, le_of_eq now, fun place record is attempt mem same => ?_⟩
  rw [now]
  exact ((steady.tracks place record is).past attempt mem).2 same

section Rules

variable {α : Type} {post : α → World → Prop} {world : World}

abbrev Guarded {α : Type} (post : α → World → Prop) (program : GkM α) (world : World) : Prop :=
  Upholds surroundings Guard post program world

theorem upholds_end {value : α} (steady : Steady world) (settled : Settled world.log) :
    Guarded Ended (.done value : GkM α) world := by
  refine upholds_done (stable_later world) (.refl steady) ?_
  exact fun later waited => ⟨waited.steady, waited.settled settled⟩

variable {next : UInt64 → GkM α}

theorem upholds_question {op : GkOp} {next : op.Reply → GkM α} (steady : Steady world)
    (guarded : ∀ later, Later world later → Guard op later) (answered : ∀ later reply after, Later world later →
      surroundings.answer later op reply after → Guarded post (next reply) after) : Guarded post (.ask op next) world :=
  upholds_ask (stable_later world) (.refl steady) guarded answered

section

variable (steady : Steady world) (settled : Settled world.log)
include steady settled

theorem upholds_getTime (rest : ∀ timestamp later, Later world later → Timed timestamp later →
      Guarded post (next timestamp) later) :
    Guarded post (getTime >>= next) world := by
  refine upholds_question steady (fun later waited => ⟨waited.steady, waited.settled settled⟩) ?_
  rintro later reply after waited ⟨rfl, rfl⟩
  exact rest _ _ waited waited.steady.timed

theorem upholds_drawUserId (rest : ∀ userId later before, Steady later → later.log = .drew userId :: before →
      Guarded post (next userId) later) :
    Guarded post (drawUserId >>= next) world := by
  refine upholds_question steady (fun later waited => ⟨waited.steady, waited.settled settled⟩) ?_
  rintro later reply after waited rfl
  exact rest _ _ _ (waited.steady.drew (waited.settled settled) reply) rfl

theorem upholds_drawSalt {value : α} : Guarded Ended (drawSalt >>= fun _ => .done value) world := by
  refine upholds_question steady (fun later waited => ⟨waited.steady, waited.settled settled⟩) ?_
  rintro later reply after waited rfl
  exact upholds_end waited.steady (waited.settled settled)

end

theorem getMemoryRecord_secureUserId (records : List FailureRecord) (userId : UInt64) :
    (getMemoryRecord records userId).secureUserId = userId := by
  unfold getMemoryRecord
  cases found : records.find? (·.secureUserId == userId) with
  | none => rfl
  | some record => simpa using List.find?_some found

theorem upholds_getFailureRecord {uid : UInt32} {handle : PasswordHandle} {next : Option FailureRecord → GkM α}
    (steady : Steady world) (settled : Settled world.log)
    (missing : ∀ later, Later world later → Guarded post (next none) later)
    (found : ∀ record later, Later world later → later.record (handle.place uid) = some record →
      record.secureUserId = handle.userId →
      Guarded post (next (some record)) later) :
    Guarded post (getFailureRecord uid handle.userId handle.throttleSecure >>= next) world := by
  cases secure : handle.throttleSecure with
  | true =>
    have place : handle.place uid = .secure uid := by simp [PasswordHandle.place, secure]
    rw [place] at found
    simp only [getFailureRecord, if_true, readSecure, ask_bind, done_bind]
    refine upholds_question steady (fun later waited => ⟨waited.steady, waited.settled settled⟩) ?_
    rintro later reply after waited ⟨read, rfl⟩
    cases reply with
    | none => exact missing _ waited
    | some owner =>
    have is : after.store uid = some owner := by
      rcases read with absent | read
      · contradiction
      · exact read.symm
    by_cases own : owner.secureUserId = handle.userId
    · simp only [own, if_true, pure_eq, done_bind]
      exact found owner _ waited is own
    · simp only [own, if_false, pure_eq, done_bind]
      exact missing _ waited
  | false =>
  have place : handle.place uid = .memory handle.userId := by
    simp [PasswordHandle.place, secure]
  rw [place] at found
  simp only [getFailureRecord, Bool.false_eq_true, if_false, readMemory, ask_bind, done_bind, pure_eq]
  refine upholds_question steady (fun later waited => ⟨waited.steady, waited.settled settled⟩) ?_
  rintro later reply after waited ⟨rfl, rfl⟩
  exact found _ _ waited rfl (getMemoryRecord_secureUserId _ _)

def FailureRecord.place (record : FailureRecord) (uid : UInt32) (secure : Bool) : Place :=
  if secure then .secure uid else .memory record.secureUserId

theorem upholds_writeFailureRecord {purpose : Purpose} {uid : UInt32} {record : FailureRecord} {secure : Bool}
    {next : Bool → GkM α} (steady : Steady world) (settled : Settled world.log) (tracks : ∀ later, Later world later →
      Tracks record (purpose.leaves record later.boot (attempts (record.place uid secure) later.log))
        later.boot later.ms)
    (owned : purpose = .clear ∨ OwnedBy record.secureUserId (record.place uid secure) world.log)
    (justified : purpose = .clear → Justifies (record.place uid secure) world.log)
    (failed : ∀ later, secure = true → Later world later → Guarded post (next false) later)
    (written : ∀ later gone after, Later world later →
      Wrote later purpose (record.place uid secure) record gone after → Steady after →
      Guarded post (next true) after) : Guarded post (writeFailureRecord purpose uid record secure >>= next) world := by
  have keeps : ∀ later gone after, Later world later →
      Wrote later purpose (record.place uid secure) record gone after → Steady after := by
    intro later gone after waited wrote
    apply waited.steady.wrote (waited.settled settled) wrote (tracks later waited)
    · rw [waited.log]
      exact owned
    · rw [waited.log]
      exact justified
  cases secure with
  | true =>
    refine upholds_question steady (fun later waited => ⟨waited.steady, ?_⟩) ?_
    · cases purpose with
      | clear => exact ⟨waited.settled settled, waited.log ▸ justified rfl⟩
      | count | rebase => exact waited.settled settled
    intro later reply after waited answered
    rcases answered with failure | success
    · obtain ⟨rfl, rfl⟩ := failure
      exact failed _ rfl waited
    · obtain ⟨rfl, rfl⟩ := success
      have wrote := waited.steady.wroteSecure purpose uid record
      exact written _ _ _ waited wrote (keeps _ _ _ waited wrote)
  | false =>
  change Guarded post (.ask (.writeMemory purpose record) fun _ => next true) world
  refine upholds_question steady (fun later waited => ⟨waited.steady, ?_⟩) ?_
  · cases purpose with
    | clear => exact ⟨waited.settled settled, waited.log ▸ justified rfl⟩
    | count | rebase => exact waited.settled settled
  · rintro later reply after waited rfl
    have wrote := waited.steady.wroteMemory purpose record
    exact written _ _ _ waited wrote (keeps _ _ _ waited wrote)

theorem upholds_clearFailureRecord {uid : UInt32} {userId : UInt64} {secure : Bool}
    {next : Bool → GkM α} (steady : Steady world) (settled : Settled world.log)
    (justified : Justifies ((noFailures userId).place uid secure) world.log)
    (failed : ∀ later, Later world later → Guarded post (next false) later)
    (written : ∀ after, Steady after → Settled after.log → Guarded post (next true) after) :
    Guarded post (clearFailureRecord uid userId secure >>= next) world := by
  apply upholds_writeFailureRecord steady settled
  · exact fun later _ => Tracks.reset userId _ _
  · exact .inl rfl
  · exact fun _ => justified
  · exact fun later _ waited => failed later waited
  · intro later gone after waited wrote steadyAfter
    exact written after steadyAfter (wrote.settled (waited.settled settled) (by decide))

end Rules

theorem passes_of_not_lt {record : FailureRecord} {timestamp : UInt64}
    (range : record.lastCheckedTimestamp.toNat ≤ maxTime)
    (waited : ¬timestamp < record.lastCheckedTimestamp + (computeRetryTimeout record.failureCounter).toUInt64) :
    Passes record timestamp := by
  right
  rw [UInt64.lt_iff_toNat_lt, UInt64.toNat_add, UInt32.toNat_toUInt64] at waited
  have small := (computeRetryTimeout record.failureCounter).toNat_lt
  unfold maxTime at range
  unfold timeoutOf
  omega

section Throttling

variable {α : Type} {post : α → World → Prop} {world : World} {uid : UInt32}
  {handle : PasswordHandle} {timestamp : UInt64}

theorem upholds_throttleRequest {record : FailureRecord} {next : Option Outcome → GkM α} (steady : Steady world)
    (settled : Settled world.log) (timed : Timed timestamp world) (is : world.record (handle.place uid) = some record)
    (owner : record.secureUserId = handle.userId)
    (refused : ∀ outcome after, Steady after → Settled after.log → Guarded post (next (some outcome)) after)
    (passed : Passes record timestamp → Guarded post (next none) world) :
    Guarded post (throttleRequest uid timestamp record handle.throttleSecure >>= next) world := by
  have tracks := steady.tracks _ record is
  unfold throttleRequest
  by_cases none : 0 < computeRetryTimeout record.failureCounter
  · rw [if_pos none]
    by_cases early : timestamp < record.lastCheckedTimestamp + (computeRetryTimeout record.failureCounter).toUInt64 ∧
          record.lastCheckedTimestamp < timestamp
    · rw [if_pos early]
      exact refused _ world steady settled
    rw [if_neg early]
    by_cases back : timestamp ≤ record.lastCheckedTimestamp
    · rw [if_pos back]
      -- the record is written with the time of the request
      have place : FailureRecord.place { record with lastCheckedTimestamp := timestamp } uid
          handle.throttleSecure = handle.place uid := by
        simp only [FailureRecord.place, PasswordHandle.place, owner]
      simp only [bind_assoc, pure_eq, done_bind]
      apply upholds_writeFailureRecord steady settled
      · intro later waited
        rw [place]
        have before := waited.steady.tracks _ record ((waited.record _).trans is)
        exact before.rebase back ((timed.later waited).passed _ record ((waited.record _).trans is))
      · rw [place]
        exact .inr (steady.owned _ record is)
      · exact nofun
      · intro later _ waited
        exact refused _ later waited.steady (waited.settled settled)
      · intro later gone after waited wrote steadyAfter
        exact refused _ after steadyAfter (wrote.settled (waited.settled settled) (by decide))
    · rw [if_neg back]
      have after := UInt64.not_le.mp back
      exact passed (passes_of_not_lt tracks.range fun before => early ⟨before, after⟩)
  · rw [if_neg none]
    refine passed (.inl ?_)
    exact Nat.eq_zero_of_not_pos none

theorem upholds_countAttempt {next : Except Outcome UInt32 → GkM α} (steady : Steady world)
    (settled : Settled world.log) (timed : Timed timestamp world)
    (refused : ∀ outcome after, Steady after → Settled after.log → Guarded post (next (.error outcome)) after)
    (counted : ∀ timeout after, Steady after → Pending uid handle after → Guarded post (next (.ok timeout)) after) :
    Guarded post (countAttempt uid handle timestamp >>= next) world := by
  unfold countAttempt
  simp only [bind_assoc]
  apply upholds_getFailureRecord steady settled
  · exact fun later waited => refused _ later waited.steady (waited.settled settled)
  intro record later waited is owner
  simp only [bind_assoc]
  have timed := timed.later waited
  have settled := waited.settled settled
  apply upholds_throttleRequest waited.steady settled timed is owner
  · exact fun outcome after steadyAfter settledAfter =>
      refused outcome after steadyAfter settledAfter
  intro passes
  have place : (record.increment handle.userId timestamp).place uid handle.throttleSecure = handle.place uid := rfl
  simp only [bind_assoc, incrementFailureRecord]
  apply upholds_writeFailureRecord waited.steady settled
  · intro last further
    have is := (further.record _).trans is
    have timed := timed.later further
    exact (further.steady.tracks _ record is).count handle.userId timed.range timed.reached
      (timed.passed _ record is) passes
  · right
    have before := waited.steady.owned _ record is
    rw [owner] at before
    exact before
  · exact nofun
  · exact fun last _ further => refused _ last further.steady (further.settled settled)
  · intro last gone after further wrote steadyAfter
    refine counted _ after steadyAfter ⟨⟨_, _, wrote.log, ?_⟩, ⟨_, wrote.own, rfl⟩⟩
    exact wrote.boot.symm

def Ready (uid : UInt32) (handle : PasswordHandle) (world : World) : Prop :=
  Steady world ∧ if handle.throttle then Pending uid handle world else Settled world.log

theorem upholds_throttled {next : Except Outcome UInt32 → GkM α} (steady : Steady world) (settled : Settled world.log)
    (timed : Timed timestamp world)
    (refused : ∀ outcome after, Steady after → Settled after.log → Guarded post (next (.error outcome)) after)
    (ready : ∀ timeout after, Ready uid handle after → Guarded post (next (.ok timeout)) after) :
    Guarded post (throttled uid handle timestamp >>= next) world := by
  unfold throttled
  cases throttle : handle.throttle with
  | true =>
    apply upholds_countAttempt steady settled timed refused
    intro timeout after steadyAfter pending
    exact ready timeout after ⟨steadyAfter, by rw [throttle]; exact pending⟩
  | false =>
  exact ready 0 world ⟨steady, by rw [throttle]; exact settled⟩

section

variable (ready : Ready uid handle world)
include ready

theorem Ready.waits (place : Place) :
    pending place world.log = if handle.throttle ∧ handle.place uid = place then 1 else 0 := by
  cases throttle : handle.throttle with
  | true =>
    have is := ready.2
    rw [throttle] at is
    obtain ⟨attempt, before, log, _⟩ := is.counted
    rw [log]
    simp
  | false =>
  have settled := ready.2
  rw [throttle] at settled
  simpa using settled place

theorem Ready.owner (throttle : handle.throttle) (record : FailureRecord)
    (is : world.record (handle.place uid) = some record) : record.secureUserId = handle.userId := by
  have pending := ready.2
  rw [if_pos throttle] at pending
  obtain ⟨other, same, owner⟩ := pending.record
  rw [same] at is
  cases is
  exact owner

theorem upholds_doVerify {password : Option (List UInt8)} {next : Bool → GkM α}
    (rest : ∀ ok after before, Steady after → Settled after.log → after.log = .evaluated uid handle ok :: before →
      Guarded post (next ok) after) : Guarded post (doVerify uid handle password >>= next) world := by
  have later : ∀ later, Later world later → Ready uid handle later := by
    intro later waited
    refine ⟨waited.steady, ?_⟩
    have is := ready.2
    split at is
    · rename_i throttle
      rw [if_pos throttle]
      exact is.later waited
    · rename_i free
      rw [if_neg free]
      exact waited.settled is
  refine upholds_question ready.1 (fun last waited => later last waited) ?_
  rintro last ok after waited ⟨_, rfl⟩
  have ready := later last waited
  exact rest ok _ _ (ready.1.evaluated ok ready.waits ready.owner) (settled_evaluated _ _ _ _) rfl

end

end Throttling

theorem upholds_createHandle {uid : UInt32} {userId : UInt64} {world : World} (steady : Steady world)
    (settled : Settled world.log) (secure : Justifies (.secure uid) world.log)
    (memory : Justifies (.memory userId) world.log) : Guarded Ended (createHandle uid userId) world := by
  apply upholds_clearFailureRecord steady settled
  · exact secure
  · intro later waited
    apply upholds_clearFailureRecord waited.steady (waited.settled settled)
    · rw [waited.log]
      exact memory
    · exact fun last further => upholds_drawSalt further.steady (further.settled (waited.settled settled))
    · exact fun after steady settled => upholds_drawSalt steady settled
  · exact fun after steady settled => upholds_drawSalt steady settled

theorem upholds_enroll (request : EnrollRequest) {world : World} (steady : Steady world)
    (settled : Settled world.log) : Guarded Ended (enroll request) world := by
  unfold enroll
  cases request.providedPassword with
  | none => exact upholds_end steady settled
  | some password =>
  cases request.passwordHandle with
  | none =>
    apply upholds_drawUserId steady settled
    intro userId later before steady log
    apply upholds_createHandle steady
    · rw [log]
      exact settled_drew userId before
    · rw [log]
      exact .inl rfl
    · rw [log]
      exact .inr rfl
  | some handle =>
  dsimp only
  split
  · exact upholds_end steady settled
  apply upholds_getTime steady settled
  intro timestamp later waited timed
  apply upholds_throttled waited.steady (waited.settled settled) timed
  · exact fun outcome after => upholds_end
  intro timeout after ready
  apply upholds_doVerify ready
  intro ok final before steady settled log
  cases ok with
  | false => exact upholds_end steady settled
  | true =>
  apply upholds_createHandle steady settled
  · rw [log]
    exact .inl rfl
  · rw [log]
    exact .inr rfl

theorem upholds_verify (request : VerifyRequest) {world : World} (steady : Steady world)
    (settled : Settled world.log) : Guarded Ended (verify request) world := by
  unfold verify
  split
  · rename_i password handle _ _
    split
    · exact upholds_end steady settled
    apply upholds_getTime steady settled
    intro timestamp later waited timed
    apply upholds_throttled waited.steady (waited.settled settled) timed
    · exact fun outcome after => upholds_end
    intro timeout after ready
    apply upholds_doVerify ready
    intro ok final before steady settled log
    cases ok with
    | false => exact upholds_end steady settled
    | true =>
    rw [if_pos rfl]
    split
    · apply upholds_clearFailureRecord steady settled
      · rw [log]
        cases handle.throttleSecure with
        | true => exact .inl rfl
        | false => exact .inr rfl
      · exact fun last further => upholds_end further.steady (further.settled settled)
      · exact fun last => upholds_end
    · exact upholds_end steady settled
  · exact upholds_end steady settled

theorem upholds_request (request : Request) {world : World} (steady : Steady world) (settled : Settled world.log) :
    Guarded Ended request.program world := by
  cases request with
  | enroll request =>
    apply upholds_bind
    exact (upholds_enroll request steady settled).mono fun _ _ ended =>
      upholds_end ended.1 ended.2
  | verify request =>
  apply upholds_bind
  exact (upholds_verify request steady settled).mono fun _ _ ended =>
    upholds_end ended.1 ended.2

/-- What holds of every system: between requests the world is steady, and a
running request keeps to what may be asked. -/
def System.Valid (system : System) : Prop :=
  match system.running with
  | none => Steady system.world ∧ Settled system.world.log
  | some program => Upholds surroundings Guard Ended program system.world

variable {system : System}

theorem System.Valid.steady (valid : system.Valid) : Steady system.world := by
  obtain ⟨world, running⟩ := system
  cases running with
  | none => exact valid.1
  | some program =>
  cases program with
  | done response => exact (valid world .refl).1
  | ask op next => exact (valid world .refl).1.1

theorem System.Valid.step {reboots : Bool} {after : System} (valid : system.Valid)
    (step : Step reboots system after) : after.Valid := by
  have steady := valid.steady
  cases step with
  | request request => exact upholds_request request valid.1 valid.2
  | @tick world later running ticks =>
    cases running with
    | none =>
      have settled := valid.2
      refine ⟨steady.tick ticks, ?_⟩
      cases ticks with
      | tick => exact settled
    | some program => exact Upholds.move valid ticks
  | answer answered => exact Upholds.answer valid answered
  | respond => exact valid _ .refl
  | reboot => exact ⟨steady.rebooted, fun _ => rfl⟩

theorem Reached.valid {reboots : Bool} (reached : Reached reboots system) : system.Valid := by
  induction reached with
  | refl => exact ⟨Steady.start, fun _ => rfl⟩
  | tail _ step valid => exact valid.step step

end Trusty.Gatekeeper
