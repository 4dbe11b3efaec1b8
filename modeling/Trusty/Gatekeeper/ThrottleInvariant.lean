import Trusty.Gatekeeper.MemoryRecordProperties

/-!
# Records agree with the log

The attempts at a place since its record was last reset, and the invariant that every
record counts them and that they kept their distance.
-/

namespace Trusty.Gatekeeper

open List

def Place.inMemory : Place → Bool
  | .secure _ => false
  | .memory _ => true

def Entry.resets (entry : Entry) (place : Place) : Bool :=
  match entry with
  | .cleared other | .dropped other => other == place
  | .rebooted => place.inMemory
  | _ => false

/-- The attempts that were counted at a place since it was reset, latest first. -/
def attempts (place : Place) : List Entry → List Attempt
  | [] => []
  | entry :: log =>
    if entry.resets place then []
    else
      match entry with
      | .counted other attempt =>
        if other = place then attempt :: attempts place log else attempts place log
      | _ => attempts place log

/-- The evaluations with throttled handles for a place since it was reset. -/
def evaluations (place : Place) : List Entry → Nat
  | [] => 0
  | entry :: log =>
    if entry.resets place then 0
    else
      match entry with
      | .evaluated uid handle _ =>
        if handle.throttle ∧ handle.place uid = place then evaluations place log + 1
        else evaluations place log
      | _ => evaluations place log

def pending (place : Place) (log : List Entry) : Nat :=
  match log with
  | .counted other _ :: _ => if other = place then 1 else 0
  | _ => 0

/-- The attempts since the reset that were cut off before the password was checked. -/
def cutOffs (place : Place) : List Entry → Nat
  | [] => 0
  | entry :: log =>
    if entry.resets place then 0
    else
      match entry with
      | .rebooted => cutOffs place log + pending place log
      | _ => cutOffs place log

/-- The passwords that were checked against the record were those of one user. -/
def OwnedBy (userId : UInt64) (place : Place) : List Entry → Prop
  | [] => True
  | entry :: log =>
    if entry.resets place then True
    else
      match entry with
      | .evaluated uid handle _ =>
        (handle.throttle ∧ handle.place uid = place → handle.userId = userId) ∧
          OwnedBy userId place log
      | _ => OwnedBy userId place log

def Justifies (place : Place) : List Entry → Prop
  | .dropped _ :: log => Justifies place log
  | .evaluated uid handle true :: _ => place = .secure uid ∨ place = .memory handle.userId
  | .drew userId :: _ => place.inMemory = false ∨ place = .memory userId
  | _ => False

def Sound : List Entry → Prop
  | [] => True
  | .cleared place :: log => Justifies place log ∧ Sound log
  | _ :: log => Sound log

@[simp] theorem pending_cons (place : Place) (entry : Entry) (log : List Entry) : pending place (entry :: log) =
    match entry with
    | .counted other _ => if other = place then 1 else 0
    | _ => 0 := by
  cases entry <;> rfl

def Settled (log : List Entry) : Prop := ∀ place, pending place log = 0

def timeoutOf (counter : UInt32) : Nat := (computeRetryTimeout counter).toNat

/-- In the same boot the timeout of the earlier attempt has passed since then, and
in any case the boot has lasted as long. -/
def Follows (later earlier : Attempt) : Prop :=
  timeoutOf earlier.counter ≤ later.time.toNat ∧
    (earlier.boot = later.boot →
      earlier.time.toNat + timeoutOf earlier.counter ≤ later.time.toNat)

def Paced (log : List Attempt) : Prop := log.IsChain Follows

def Numbered : List Attempt → Prop
  | [] => True
  | attempt :: rest => attempt.counter.toNat = (rest.length + 1) % 2 ^ 32 ∧ Numbered rest

/-- The last millisecond that `gettime` can tell. -/
abbrev maxTime : Nat := (2 ^ 63 - 1) / 1000 / 1000

structure Tracks (record : FailureRecord) (made : List Attempt) (boot now : Nat) : Prop where
  counter : record.failureCounter.toNat = made.length % 2 ^ 32
  range : record.lastCheckedTimestamp.toNat ≤ maxTime
  latest : ∀ attempt ∈ made.head?, attempt.counter = record.failureCounter ∧
    (attempt.boot = boot → attempt.time = record.lastCheckedTimestamp)
  past : ∀ attempt ∈ made, attempt.boot ≤ boot ∧
    (attempt.boot = boot → attempt.time.toNat ≤ now)
  paced : Paced made
  numbered : Numbered made

section Tracks

variable {record : FailureRecord} {made : List Attempt} {boot now : Nat}

theorem Tracks.reset (userId : UInt64) (boot now : Nat) : Tracks (noFailures userId) [] boot now :=
  ⟨rfl, Nat.zero_le _, nofun, nofun, .nil, trivial⟩

section

variable (tracks : Tracks record made boot now)
include tracks

theorem Tracks.later {later : Nat} (le : now ≤ later) : Tracks record made boot later :=
  { tracks with past := fun attempt mem => ⟨(tracks.past attempt mem).1,
    fun same => le_trans ((tracks.past attempt mem).2 same) le⟩ }

theorem Tracks.rebooted : Tracks record made (boot + 1) 0 := by
  have earlier : ∀ attempt ∈ made, attempt.boot ≠ boot + 1 := by
    intro attempt mem same
    have le := (tracks.past attempt mem).1
    omega
  refine { tracks with latest := fun attempt mem => ?_, past := fun attempt mem => ?_ }
  · exact ⟨(tracks.latest attempt mem).1, fun same =>
      absurd same (earlier attempt (mem_of_mem_head? mem))⟩
  · have le := (tracks.past attempt mem).1
    exact ⟨by omega, fun same => absurd same (earlier attempt mem)⟩

theorem Tracks.rebase {timestamp : UInt64} (back : timestamp ≤ record.lastCheckedTimestamp)
    (passed : ∀ attempt ∈ made, attempt.boot = boot → attempt.time.toNat ≤ timestamp.toNat) :
    Tracks { record with lastCheckedTimestamp := timestamp } made boot now := by
  rw [UInt64.le_iff_toNat_le] at back
  have range := tracks.range
  refine { tracks with range := by dsimp only; omega, latest := fun attempt mem => ?_ }
  obtain ⟨counter, time⟩ := tracks.latest attempt mem
  refine ⟨counter, fun same => UInt64.toNat.inj ?_⟩
  have before := passed attempt (mem_of_mem_head? mem) same
  have is := time same
  rw [is] at before ⊢
  dsimp only
  omega

end

def Passes (record : FailureRecord) (timestamp : UInt64) : Prop :=
  timeoutOf record.failureCounter = 0 ∨
    record.lastCheckedTimestamp.toNat + timeoutOf record.failureCounter ≤ timestamp.toNat

theorem Tracks.count (tracks : Tracks record made boot now) {timestamp : UInt64} (userId : UInt64)
    (range : timestamp.toNat ≤ maxTime) (reached : timestamp.toNat ≤ now)
    (passed : ∀ attempt ∈ made, attempt.boot = boot → attempt.time.toNat ≤ timestamp.toNat)
    (passes : Passes record timestamp) :
    Tracks (record.increment userId timestamp)
      (⟨record.failureCounter + 1, timestamp, boot⟩ :: made) boot now := by
  have counter : (record.failureCounter + 1).toNat = (made.length + 1) % 2 ^ 32 := by
    rw [UInt32.toNat_add, tracks.counter]
    simp
  refine ⟨counter, range, ?_, ?_, ?_, counter, tracks.numbered⟩
  · intro attempt mem
    cases mem
    exact ⟨rfl, fun _ => rfl⟩
  · intro attempt mem
    cases mem with
    | head => exact ⟨le_rfl, fun _ => reached⟩
    | tail _ mem => exact tracks.past attempt mem
  cases made with
  | nil => exact .singleton _
  | cons previous rest =>
  refine .cons_cons ⟨?_, ?_⟩ tracks.paced
  all_goals
    obtain ⟨is, time⟩ := tracks.latest previous rfl
    rw [is]
  · rcases passes with none | waited
    · omega
    · dsimp only; omega
  intro same
  have before := passed previous mem_cons_self same
  rcases passes with none | waited
  · dsimp only; omega
  · rw [time same]
    exact waited

end Tracks

def World.record (world : World) : Place → Option FailureRecord
  | .secure uid => world.store uid
  | .memory userId => some (getMemoryRecord world.memory userId)

def World.ms (world : World) : Nat := world.clock / 1000 / 1000

/-- Every record counts its attempts, and every attempt came to the check of its
password, was cut off, or is about to be checked. -/
structure Steady (world : World) : Prop where
  table : Table world.memory
  clock : world.clock < 2 ^ 63
  tracks : ∀ place record, world.record place = some record →
    Tracks record (attempts place world.log) world.boot world.ms
  balanced : ∀ place, (attempts place world.log).length =
    evaluations place world.log + cutOffs place world.log + pending place world.log
  owned : ∀ place record, world.record place = some record →
    OwnedBy record.secureUserId place world.log
  sound : Sound world.log

theorem Steady.start : Steady .start := by
  refine ⟨Table.empty, by decide, fun place record is => ?_, fun _ => rfl, fun _ _ _ => trivial, trivial⟩
  cases place with
  | secure uid => contradiction
  | memory userId =>
  cases is
  exact Tracks.reset userId _ _

variable {world : World}

theorem Steady.now_toNat (steady : Steady world) : world.now.toNat = world.ms ∧ world.ms ≤ maxTime := by
  have range := steady.clock
  have small : world.ms ≤ maxTime := by
    unfold World.ms maxTime
    omega
  refine ⟨?_, small⟩
  unfold World.now
  rw [UInt64.toNat_ofNat_of_lt' (show _ < 2 ^ 64 by unfold World.ms maxTime at small; omega)]
  rfl

theorem Steady.tick {later : World} (steady : Steady world) (ticks : Tick world later) : Steady later := by
  cases ticks with
  | @tick clock le range =>
  have same : ∀ place, World.record { world with clock := clock } place = world.record place := by
    intro place
    cases place <;> rfl
  refine { steady with
    clock := range, tracks := fun place record is => ?_,
    owned := fun place record is => steady.owned place record ((same place).symm.trans is) }
  apply (steady.tracks place record ((same place).symm.trans is)).later
  unfold World.ms
  dsimp only
  omega

theorem Steady.rebooted (steady : Steady world) : Steady world.rebooted := by
  refine ⟨Table.empty, Nat.two_pow_pos 63, fun place record is => ?_, fun place => ?_,
    fun place record is => ?_, steady.sound⟩
  · cases place with
    | secure uid =>
      have made : attempts (.secure uid) world.rebooted.log = attempts (.secure uid) world.log := by
        simp [World.rebooted, attempts, Entry.resets, Place.inMemory]
      have early : world.rebooted.ms = 0 := by simp [World.ms, World.rebooted]
      rw [made, early]
      exact (steady.tracks (.secure uid) record is).rebooted
    | memory userId =>
    cases is
    exact Tracks.reset userId _ _
  · cases place with
    | secure uid =>
      have balanced := steady.balanced (.secure uid)
      simpa [World.rebooted, attempts, evaluations, cutOffs, Entry.resets, Place.inMemory, add_assoc] using balanced
    | memory userId =>
    simp [World.rebooted, attempts, evaluations, cutOffs, Entry.resets, Place.inMemory]
  · cases place with
    | secure uid => exact steady.owned (.secure uid) record is
    | memory userId => exact trivial

/-!
### Entries about the check of a password
-/

theorem record_log (world : World) (log : List Entry) (place : Place) :
    World.record { world with log := log } place = world.record place := by
  cases place <;> rfl

theorem Steady.logged (steady : Steady world) {log : List Entry}
    (made : ∀ place, attempts place log = attempts place world.log)
    (balanced : ∀ place, evaluations place log + cutOffs place log + pending place log =
      evaluations place world.log + cutOffs place world.log + pending place world.log)
    (owned : ∀ place record, world.record place = some record → OwnedBy record.secureUserId place log)
    (sound : Sound log) : Steady { world with log := log } := by
  refine ⟨steady.table, steady.clock, fun place record is => ?_, fun place => ?_,
    fun place record is => owned place record (record_log world log place ▸ is), sound⟩
  · rw [made]
    exact steady.tracks place record is
  · rw [made, balanced]
    exact steady.balanced place

theorem Steady.drew (steady : Steady world) (settled : Settled world.log)
    (userId : UInt64) : Steady { world with log := .drew userId :: world.log } := by
  apply steady.logged
  · intro place
    simp [attempts, Entry.resets]
  · intro place
    simp [evaluations, cutOffs, Entry.resets, settled place]
  · intro place record is
    simpa [OwnedBy, Entry.resets] using steady.owned place record is
  · exact steady.sound

theorem Steady.evaluated (steady : Steady world) {uid : UInt32} {handle : PasswordHandle} (ok : Bool)
    (waits : ∀ place, pending place world.log = if handle.throttle ∧ handle.place uid = place then 1 else 0)
    (owner : handle.throttle → ∀ record, world.record (handle.place uid) = some record →
      record.secureUserId = handle.userId) : Steady { world with log := .evaluated uid handle ok :: world.log } := by
  apply steady.logged
  · intro place
    simp [attempts, Entry.resets]
  · intro place
    rw [waits place]
    by_cases own : handle.throttle ∧ handle.place uid = place
    · simp [evaluations, cutOffs, Entry.resets, own]
      omega
    · simp [evaluations, cutOffs, Entry.resets, own]
  · intro place record is
    have before := steady.owned place record is
    refine ⟨fun own => ?_, before⟩
    rw [← own.2] at is
    exact (owner own.1 record is).symm
  · exact steady.sound

theorem settled_drew (userId : UInt64) (log : List Entry) : Settled (.drew userId :: log) := fun _ => rfl

theorem settled_evaluated (uid : UInt32) (handle : PasswordHandle) (ok : Bool)
    (log : List Entry) : Settled (.evaluated uid handle ok :: log) :=
  fun _ => rfl

/-!
### Writes
-/

/-- A record was written at a place, and those at `gone` gave way. -/
structure Wrote (world : World) (purpose : Purpose) (place : Place) (record : FailureRecord)
    (gone : List Place) (after : World) : Prop where
  clock : after.clock = world.clock
  boot : after.boot = world.boot
  table : Table after.memory
  log : after.log =
    purpose.entries place record world.boot ++ (gone.map Entry.dropped ++ world.log)
  own : after.record place = some record
  apart : place ∉ gone
  spared : ∀ other, other ≠ place → other ∉ gone → after.record other = world.record other
  dropped : ∀ other ∈ gone, ∃ userId, after.record other = some (noFailures userId)

theorem Steady.wroteSecure (steady : Steady world) (purpose : Purpose) (uid : UInt32) (record : FailureRecord) :
    Wrote world purpose (.secure uid) record [] (world.wroteSecure purpose uid record) := by
  refine ⟨rfl, rfl, steady.table, rfl, ?_, nofun, fun other differs _ => ?_, nofun⟩
  · simp [World.record, World.wroteSecure]
  cases other with
  | secure other =>
    have apart : other ≠ uid := fun same => differs (by rw [same])
    simp [World.record, World.wroteSecure, apart]
  | memory userId => rfl

theorem mem_gone {gone : Option UInt64} {place : Place} (mem : place ∈ (gone.map Place.memory).toList) :
    ∃ userId, gone = some userId ∧ Place.memory userId = place := by
  cases gone with
  | none => contradiction
  | some userId => exact ⟨userId, rfl, (mem_singleton.mp mem).symm⟩

theorem Steady.wroteMemory (steady : Steady world) (purpose : Purpose) (record : FailureRecord) :
    Wrote world purpose (.memory record.secureUserId) record ((victim world.memory record).map Place.memory).toList
      (world.wroteMemory purpose record) := by
  have written := writeMemoryRecord_written steady.table record
  refine ⟨rfl, rfl, written.table, ?_, ?_, ?_, fun other differs spared => ?_, fun other mem => ?_⟩
  · simp only [World.wroteMemory, droppedEntries]
    cases victim world.memory record <;> rfl
  · simp [World.record, World.wroteMemory, written.reads]
  · intro mem
    obtain ⟨userId, gone, is⟩ := mem_gone mem
    obtain ⟨_, unknown, old, among, same, _⟩ := victim_spec steady.table gone
    exact unknown old among (by rw [same]; exact Place.memory.inj is)
  · cases other with
    | secure uid => rfl
    | memory userId =>
    have apart : userId ≠ record.secureUserId := fun same => differs (by rw [same])
    have kept : victim world.memory record ≠ some userId := by
      intro gone
      apply spared
      rw [gone]
      exact mem_singleton.mpr rfl
    simp [World.record, World.wroteMemory, written.reads, apart, kept]
  · obtain ⟨userId, gone, rfl⟩ := mem_gone mem
    obtain ⟨_, unknown, old, among, same, _⟩ := victim_spec steady.table gone
    have apart : userId ≠ record.secureUserId := by
      rw [← same]
      exact unknown old among
    exact ⟨userId, by simp [World.record, World.wroteMemory, written.reads, apart, gone]⟩

section Dropped

variable (place : Place) (gone : List Place) (log : List Entry)

theorem attempts_dropped : attempts place (gone.map Entry.dropped ++ log) =
      if place ∈ gone then [] else attempts place log := by
  induction gone with
  | nil => simp
  | cons first rest ih =>
  by_cases own : first = place
  · simp [attempts, Entry.resets, own]
  · have apart : place ≠ first := fun same => own same.symm
    simp [attempts, Entry.resets, own, apart, ih]

theorem evaluations_dropped : evaluations place (gone.map Entry.dropped ++ log) =
      if place ∈ gone then 0 else evaluations place log := by
  induction gone with
  | nil => simp
  | cons first rest ih =>
  by_cases own : first = place
  · simp [evaluations, Entry.resets, own]
  · have apart : place ≠ first := fun same => own same.symm
    simp [evaluations, Entry.resets, own, apart, ih]

theorem cutOffs_dropped : cutOffs place (gone.map Entry.dropped ++ log) =
      if place ∈ gone then 0 else cutOffs place log := by
  induction gone with
  | nil => simp
  | cons first rest ih =>
  by_cases own : first = place
  · simp [cutOffs, Entry.resets, own]
  · have apart : place ≠ first := fun same => own same.symm
    simp [cutOffs, Entry.resets, own, apart, ih]

theorem settled_dropped {log : List Entry} (settled : Settled log) : Settled (gone.map Entry.dropped ++ log) := by
  cases gone with
  | nil => exact settled
  | cons first rest => exact fun _ => rfl

theorem ownedBy_dropped {userId : UInt64} (owned : place ∉ gone → OwnedBy userId place log) :
    OwnedBy userId place (gone.map Entry.dropped ++ log) := by
  induction gone with
  | nil => exact owned nofun
  | cons first rest ih =>
  by_cases own : first = place
  · simp [OwnedBy, Entry.resets, own]
  have before := ih fun kept => owned (by
    intro mem
    cases mem with
    | head => exact own rfl
    | tail _ mem => exact kept mem)
  simpa [OwnedBy, Entry.resets, own] using before

theorem justifies_dropped : Justifies place (gone.map Entry.dropped ++ log) ↔ Justifies place log := by
  induction gone with
  | nil => exact .rfl
  | cons first rest ih => exact ih

theorem sound_dropped : Sound (gone.map Entry.dropped ++ log) ↔ Sound log := by
  induction gone with
  | nil => exact .rfl
  | cons first rest ih => exact ih

theorem balanced_dropped {log : List Entry} (settled : Settled log)
    (balanced : ∀ place, (attempts place log).length = evaluations place log + cutOffs place log + pending place log) :
    (attempts place (gone.map Entry.dropped ++ log)).length = evaluations place (gone.map Entry.dropped ++ log) +
        cutOffs place (gone.map Entry.dropped ++ log) := by
  rw [attempts_dropped, evaluations_dropped, cutOffs_dropped]
  split
  · rfl
  · rw [balanced place, settled place, add_zero]

end Dropped

def Purpose.leaves (purpose : Purpose) (record : FailureRecord) (boot : Nat)
    (made : List Attempt) : List Attempt :=
  match purpose with
  | .count => ⟨record.failureCounter, record.lastCheckedTimestamp, boot⟩ :: made
  | .rebase => made
  | .clear => []

theorem attempts_entries (purpose : Purpose) (place other : Place) (record : FailureRecord) (boot : Nat)
    (log : List Entry) :
    attempts other (purpose.entries place record boot ++ log) =
      if other = place then purpose.leaves record boot (attempts other log)
      else attempts other log := by
  by_cases own : place = other
  · cases purpose <;> simp [Purpose.entries, Purpose.leaves, attempts, Entry.resets, own]
  · have apart : other ≠ place := fun same => own same.symm
    cases purpose <;> simp [Purpose.entries, attempts, Entry.resets, own, apart]

theorem balanced_entries {log : List Entry} (settled : Settled log) (purpose : Purpose)
    (place other : Place) (record : FailureRecord) (boot : Nat)
    (balanced : (attempts other log).length = evaluations other log + cutOffs other log) :
    (attempts other (purpose.entries place record boot ++ log)).length =
      evaluations other (purpose.entries place record boot ++ log) +
        cutOffs other (purpose.entries place record boot ++ log) +
        pending other (purpose.entries place record boot ++ log) := by
  cases purpose with
  | count =>
    by_cases own : place = other
    · simp [Purpose.entries, attempts, evaluations, cutOffs, Entry.resets, own, balanced]
    · simp [Purpose.entries, attempts, evaluations, cutOffs, Entry.resets, own, balanced]
  | rebase => simpa [Purpose.entries, settled other] using balanced
  | clear =>
  by_cases own : place = other
  · simp [Purpose.entries, attempts, evaluations, cutOffs, Entry.resets, own]
  · simp [Purpose.entries, attempts, evaluations, cutOffs, Entry.resets, own, balanced]

variable {purpose : Purpose}

theorem ownedBy_entries {userId : UInt64} {place other : Place} {log : List Entry} (record : FailureRecord) (boot : Nat)
    (owned : purpose = .clear ∧ other = place ∨ OwnedBy userId other log) :
    OwnedBy userId other (purpose.entries place record boot ++ log) := by
  rcases owned with reset | owned
  · obtain ⟨rfl, rfl⟩ := reset
    simp [Purpose.entries, OwnedBy, Entry.resets]
  cases purpose with
  | count => simpa [Purpose.entries, OwnedBy, Entry.resets] using owned
  | rebase => exact owned
  | clear =>
  by_cases own : place = other
  · simp [Purpose.entries, OwnedBy, Entry.resets, own]
  · simpa [Purpose.entries, OwnedBy, Entry.resets, own] using owned

theorem sound_entries {place : Place} {log : List Entry} (record : FailureRecord) (boot : Nat) (sound : Sound log)
    (justified : purpose = .clear → Justifies place log) : Sound (purpose.entries place record boot ++ log) := by
  cases purpose with
  | count | rebase => exact sound
  | clear => exact ⟨justified rfl, sound⟩

theorem Steady.wrote {after : World} (steady : Steady world) (settled : Settled world.log) {place : Place}
    {record : FailureRecord} {gone : List Place} (wrote : Wrote world purpose place record gone after)
    (tracks : Tracks record (purpose.leaves record world.boot (attempts place world.log)) world.boot world.ms)
    (owned : purpose = .clear ∨ OwnedBy record.secureUserId place world.log)
    (justified : purpose = .clear → Justifies place world.log) : Steady after := by
  have still : after.ms = world.ms := by rw [World.ms, World.ms, wrote.clock]
  refine ⟨wrote.table, by rw [wrote.clock]; exact steady.clock, fun other read is => ?_,
    fun other => ?_, fun other read is => ?_, ?_⟩
  · rw [wrote.log, wrote.boot, still, attempts_entries, attempts_dropped]
    by_cases own : other = place
    · rw [if_pos own, if_neg (by rw [own]; exact wrote.apart), own]
      rw [own, wrote.own] at is
      cases is
      exact tracks
    rw [if_neg own]
    split
    · rename_i lost
      obtain ⟨userId, empty⟩ := wrote.dropped other lost
      rw [empty] at is
      cases is
      exact Tracks.reset userId _ _
    · rename_i kept
      rw [wrote.spared other own kept] at is
      exact steady.tracks other read is
  · rw [wrote.log]
    exact balanced_entries (settled_dropped _ settled) purpose place other record world.boot
      (balanced_dropped other gone settled steady.balanced)
  · rw [wrote.log]
    apply ownedBy_entries
    by_cases own : other = place
    · rw [own, wrote.own] at is
      cases is
      exact owned.imp (⟨·, own⟩) fun owned => own ▸ ownedBy_dropped place gone _ fun _ => owned
    · refine .inr (ownedBy_dropped other gone _ fun kept => ?_)
      rw [wrote.spared other own kept] at is
      exact steady.owned other read is
  · rw [wrote.log]
    exact sound_entries record _ ((sound_dropped gone _).mpr steady.sound) fun clears =>
      (justifies_dropped place gone _).mpr (justified clears)

theorem Wrote.settled {after : World} {place : Place} {record : FailureRecord} {gone : List Place}
    (settled : Settled world.log) (wrote : Wrote world purpose place record gone after) (other : purpose ≠ .count) :
    Settled after.log := by
  rw [wrote.log]
  cases purpose with
  | count => contradiction
  | rebase => exact settled_dropped gone settled
  | clear => exact fun _ => rfl

end Trusty.Gatekeeper
