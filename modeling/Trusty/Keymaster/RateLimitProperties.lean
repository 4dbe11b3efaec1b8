import Trusty.Keymaster.UseLimitProperties

/-!
`KM_TAG_MIN_SECONDS_BETWEEN_OPS`: how far apart the calls of `AuthorizeBegin` for
one key are that are answered with `KM_ERROR_OK`.
-/

namespace Trusty.Keymaster

open List UInt32

variable {keyid : UInt64} {list left : List AccessTime} {now : UInt32}

/-!
## The table of access times
-/

def entryOf (keyid : UInt64) (list : List AccessTime) : Option AccessTime :=
  list.find? (·.keyid == keyid)

theorem entryOf_cons (keyid : UInt64) (entry : AccessTime) (rest : List AccessTime) : entryOf keyid (entry :: rest) =
      if entry.keyid = keyid then some entry else entryOf keyid rest := by
  unfold entryOf
  rw [find?_cons]
  cases same : entry.keyid == keyid with
  | true => rw [if_pos (beq_iff_eq.mp same)]
  | false => rw [if_neg (beq_eq_false_iff_ne.mp same)]

theorem entryOf_eq_none : entryOf keyid list = none ↔ ∀ entry ∈ list, entry.keyid ≠ keyid := by
  simp only [entryOf, find?_eq_none, beq_iff_eq, ne_eq]

def OneEntryEach (list : List AccessTime) : Prop := list.Pairwise (·.keyid ≠ ·.keyid)

variable {key : UInt64}

theorem updateEntry_keys : ∀ entry ∈ (updateEntry key now list).1, ∃ old ∈ list, old.keyid = entry.keyid := by
  induction list with
  | nil => simp [updateEntry]
  | cons head rest ih =>
  intro entry member
  rw [updateEntry] at member
  split at member
  · rcases mem_cons.mp member with same | later
    · exact ⟨head, mem_cons_self, by rw [same]⟩
    · exact ⟨entry, mem_cons_of_mem _ later, rfl⟩
  dsimp only at member
  split at member
  · obtain ⟨old, found, same⟩ := ih entry member
    exact ⟨old, mem_cons_of_mem _ found, same⟩
  rcases mem_cons.mp member with same | later
  · exact ⟨head, mem_cons_self, by rw [same]⟩
  · obtain ⟨old, found, same⟩ := ih entry later
    exact ⟨old, mem_cons_of_mem _ found, same⟩

theorem OneEntryEach.updateEntry (unique : OneEntryEach list) : OneEntryEach (updateEntry key now list).1 := by
  induction list with
  | nil => exact List.Pairwise.nil
  | cons head rest ih =>
  obtain ⟨apart, others⟩ := pairwise_cons.mp unique
  rw [Keymaster.updateEntry]
  split
  · exact pairwise_cons.mpr ⟨apart, others⟩
  dsimp only
  split
  · exact ih others
  refine pairwise_cons.mpr ⟨?_, ih others⟩
  intro entry member
  obtain ⟨old, found, same⟩ := updateEntry_keys entry member
  rw [← same]
  exact apart old found

theorem updateEntry_found (found : (updateEntry keyid now list).2 = true) : ∃ entry, entryOf keyid list = some entry ∧
      entryOf keyid (updateEntry keyid now list).1 = some { entry with accessTime := now } := by
  induction list with
  | nil => cases found
  | cons head rest ih =>
  rw [updateEntry] at found ⊢
  rw [entryOf_cons]
  split at found
  next same =>
    rw [if_pos same, if_pos same]
    exact ⟨head, rfl, by rw [entryOf_cons, if_pos same]⟩
  next other =>
  rw [if_neg other, if_neg other]
  dsimp only at found ⊢
  split at found
  next old =>
    rw [if_pos old]
    exact ih found
  next recent =>
  rw [if_neg recent, entryOf_cons, if_neg other]
  exact ih found

theorem updateEntry_missing (missing : (updateEntry keyid now list).2 = false) : entryOf keyid list = none := by
  induction list with
  | nil => rfl
  | cons head rest ih =>
  rw [updateEntry] at missing
  rw [entryOf_cons]
  split at missing
  · cases missing
  next other =>
  rw [if_neg other]
  dsimp only at missing
  split at missing
  · exact ih missing
  · exact ih missing

theorem updateEntry_other (ne : key ≠ keyid) (unique : OneEntryEach list) :
    entryOf keyid (updateEntry key now list).1 = entryOf keyid list ∨
      (entryOf keyid (updateEntry key now list).1 = none ∧
        ∃ entry, entryOf keyid list = some entry ∧ entry.timeout ≤ now - entry.accessTime) := by
  induction list with
  | nil => exact .inl rfl
  | cons head rest ih =>
  obtain ⟨apart, others⟩ := pairwise_cons.mp unique
  rw [updateEntry]
  split
  next same =>
    left
    have mine : head.keyid ≠ keyid := fun equal => ne (same.symm.trans equal)
    rw [entryOf_cons, entryOf_cons, if_neg mine, if_neg mine]
  · dsimp only
    split
    next old =>
      by_cases mine : head.keyid = keyid
      · right
        refine ⟨entryOf_eq_none.mpr ?_, head, ?_, old⟩
        · intro entry member
          obtain ⟨before, found, same⟩ := updateEntry_keys entry member
          rw [← same, ← mine]
          exact (apart before found).symm
        · rw [entryOf_cons, if_pos mine]
      · rw [entryOf_cons, if_neg mine]
        exact ih others
    · rw [entryOf_cons, entryOf_cons]
      split
      · exact .inl rfl
      · exact ih others

variable {maxSize timeout : UInt32}

theorem OneEntryEach.updateKeyAccessTime (unique : OneEntryEach list) :
    OneEntryEach (updateKeyAccessTime maxSize list key now timeout).1 := by
  have kept : OneEntryEach (Keymaster.updateEntry key now list).1 := unique.updateEntry
  unfold Keymaster.updateKeyAccessTime
  dsimp only
  split
  · exact kept
  next missing =>
  split
  · exact kept
  refine pairwise_cons.mpr ⟨?_, kept⟩
  intro entry member
  obtain ⟨old, found, same⟩ := updateEntry_keys entry member
  have absent := entryOf_eq_none.mp (updateEntry_missing (Bool.eq_false_iff.mpr missing))
  rw [← same]
  exact (absent old found).symm

theorem updateKeyAccessTime_other (ne : key ≠ keyid) (unique : OneEntryEach list) :
    entryOf keyid (updateKeyAccessTime maxSize list key now timeout).1 = entryOf keyid list ∨
      (entryOf keyid (updateKeyAccessTime maxSize list key now timeout).1 = none ∧
        ∃ entry, entryOf keyid list = some entry ∧ entry.timeout ≤ now - entry.accessTime) := by
  have kept := @updateEntry_other keyid list now key ne unique
  unfold updateKeyAccessTime
  dsimp only
  split
  · exact kept
  split
  · exact kept
  · rw [entryOf_cons, if_neg ne]
    exact kept

/-- An update that is done leaves an entry with the time of the update, and with
the timeout of the update that made the entry. -/
theorem updateKeyAccessTime_done (done : (updateKeyAccessTime maxSize list keyid now timeout).2 = true) :
    ∃ entry, entryOf keyid (updateKeyAccessTime maxSize list keyid now timeout).1 = some entry ∧
      entry.accessTime = now ∧
      (entry.timeout = timeout ∨ ∃ old, entryOf keyid list = some old ∧ entry.timeout = old.timeout) := by
  unfold updateKeyAccessTime at done ⊢
  dsimp only at done ⊢
  split at done
  next found =>
    obtain ⟨old, present, updated⟩ := updateEntry_found found
    rw [if_pos found]
    exact ⟨_, updated, rfl, .inr ⟨old, present, rfl⟩⟩
  next missing =>
  split at done
  · cases done
  next room =>
  rw [if_neg missing, if_neg room]
  exact ⟨_, by rw [entryOf_cons, if_pos rfl], rfl, .inl rfl⟩

theorem updateKeyAccessTime_failed (failed : (updateKeyAccessTime maxSize list keyid now timeout).2 = false) :
    entryOf keyid list = none ∧ entryOf keyid (updateKeyAccessTime maxSize list keyid now timeout).1 = none := by
  unfold updateKeyAccessTime at failed ⊢
  dsimp only at failed ⊢
  split at failed
  · cases failed
  next missing =>
  have absent := updateEntry_missing (Bool.eq_false_iff.mpr missing)
  refine ⟨absent, entryOf_eq_none.mpr ?_⟩
  split at failed
  next full =>
    rw [if_neg missing, if_pos full]
    intro entry member
    obtain ⟨old, found, same⟩ := updateEntry_keys entry member
    rw [← same]
    exact entryOf_eq_none.mp absent old found
  · cases failed

/-!
## One call
-/

/-- What the table says of a key after the last of its calls answered with
`KM_ERROR_OK`: an entry is at most as old as that call, and without one the timeout
has passed. -/
structure Timed (keyid : UInt64) (timeout : UInt32) (granted : Option UInt32) (time : UInt32)
    (tables : Enforcement) : Prop where
  unique : ∀ list, tables.accessTimeMap = some list → OneEntryEach list
  present : ∀ list entry, tables.accessTimeMap = some list → entryOf keyid list = some entry →
    entry.timeout = timeout ∧ entry.accessTime ≤ time ∧ ∀ last ∈ granted, last ≤ entry.accessTime
  absent : ∀ list, tables.accessTimeMap = some list → entryOf keyid list = none →
    ∀ last ∈ granted, last.toNat + timeout.toNat ≤ time.toNat

variable {granted : Option UInt32} {time : UInt32} {tables : Enforcement} {call : BeginCall}

theorem Timed.later (timed : Timed keyid timeout granted time tables) {after : UInt32}
    (monotone : time ≤ after) : Timed keyid timeout granted after tables where
  unique := timed.unique
  present list entry map found := by
    obtain ⟨same, before, order⟩ := timed.present list entry map found
    exact ⟨same, UInt32.le_trans before monotone, order⟩
  absent list map missing last member :=
    le_trans (timed.absent list map missing last member) (UInt32.le_iff_toNat_le.mp monotone)

theorem Timed.congr (timed : Timed keyid timeout granted time tables) {after : Enforcement}
    (same : after.accessTimeMap = tables.accessTimeMap) :
    Timed keyid timeout granted time after where
  unique list map := timed.unique list (same.symm.trans map)
  present list entry map := timed.present list entry (same.symm.trans map)
  absent list map := timed.absent list (same.symm.trans map)

variable {entry : AccessTime}

theorem Timed.expired (timed : Timed keyid timeout granted time tables) (map : tables.accessTimeMap = some list)
    (found : entryOf keyid list = some entry) (old : entry.timeout ≤ time - entry.accessTime) :
    ∀ last ∈ granted, last.toNat + timeout.toNat ≤ time.toNat := by
  intro last member
  obtain ⟨same, before, order⟩ := timed.present list entry map found
  have span := UInt32.le_iff_toNat_le.mp old
  rw [UInt32.toNat_sub_of_le _ _ before, same] at span
  have first := UInt32.le_iff_toNat_le.mp (order last member)
  have second := UInt32.le_iff_toNat_le.mp before
  omega

section

variable (timed : Timed keyid timeout granted call.policy.currentTime tables)

include timed

theorem Timed.recordTime_other (ne : call.keyid ≠ keyid) (scan : Scan) :
    Timed keyid timeout granted call.policy.currentTime (tables.recordTime call scan).2 := by
  unfold Enforcement.recordTime
  split
  · exact timed
  split
  · exact timed
  next list map =>
  have unique := timed.unique list map
  have moved := @updateKeyAccessTime_other keyid list call.policy.currentTime
    call.keyid tables.maxAccessTimes scan.minOpsTimeout ne unique
  constructor
  · intro after same
    cases same
    exact unique.updateKeyAccessTime
  · intro after entry same found
    cases same
    rcases moved with kept | gone
    · exact timed.present list entry map (kept.symm.trans found)
    · nomatch gone.1.symm.trans found
  · intro after same missing
    cases same
    rcases moved with kept | gone
    · exact timed.absent list map (kept.symm.trans missing)
    · obtain ⟨_, entry, found, old⟩ := gone
      exact timed.expired map found old

theorem Timed.recordTime_mine (mine : call.keyid = keyid) {scan : Scan} (value : scan.minOpsTimeout = timeout)
    (set : timeout ≠ noTimeout) :
    Timed keyid timeout granted call.policy.currentTime (tables.recordTime call scan).2 ∧
      ((tables.recordTime call scan).1 = .ok →
        Timed keyid timeout (some call.policy.currentTime) call.policy.currentTime
          (tables.recordTime call scan).2) := by
  unfold Enforcement.recordTime
  rw [value, if_neg set, mine]
  split
  · exact ⟨timed, nofun⟩
  next list map =>
  have unique : OneEntryEach (updateKeyAccessTime tables.maxAccessTimes list keyid
      call.policy.currentTime timeout).1 := (timed.unique list map).updateKeyAccessTime
  dsimp only
  cases result : (updateKeyAccessTime tables.maxAccessTimes list keyid call.policy.currentTime timeout).2 with
  | true =>
    obtain ⟨entry, found, now, kind⟩ := updateKeyAccessTime_done result
    have same : entry.timeout = timeout := by
      rcases kind with new | earlier
      · exact new
      · obtain ⟨old, present, equal⟩ := earlier
        exact equal.trans (timed.present list old map present).1
    have after (recent : Option UInt32) (order : ∀ last ∈ recent, last ≤ call.policy.currentTime) :
        Timed keyid timeout recent call.policy.currentTime
          { tables with accessTimeMap := some (updateKeyAccessTime tables.maxAccessTimes list
              keyid call.policy.currentTime timeout).1 } := by
      constructor
      · intro left equal
        cases equal
        exact unique
      · intro left other equal present
        cases equal
        cases Option.some.inj (found.symm.trans present)
        exact ⟨same, UInt32.le_of_eq now, fun last member => now ▸ order last member⟩
      · intro left equal missing
        cases equal
        nomatch found.symm.trans missing
    refine ⟨after granted ?_, fun _ => after _ ?_⟩
    · intro last member
      cases present : entryOf keyid list with
      | none =>
        have past := timed.absent list map present last member
        exact le_iff_toNat_le.mpr (by omega)
      | some old =>
      obtain ⟨_, before, order⟩ := timed.present list old map present
      exact UInt32.le_trans (order last member) before
    · intro last member
      cases member
      exact UInt32.le_refl _
  | false =>
  obtain ⟨before, missing⟩ := updateKeyAccessTime_failed result
  refine ⟨⟨?_, ?_, ?_⟩, nofun⟩
  · intro left equal
    cases equal
    exact unique
  · intro left entry equal present
    cases equal
    nomatch missing.symm.trans present
  · intro left equal _
    exact timed.absent list map before

theorem Timed.passed (passed : tables.minTimeBetweenOpsPassed call.policy timeout keyid = true) :
    ∀ last ∈ granted, last.toNat + timeout.toNat ≤ call.policy.currentTime.toNat := by
  intro last member
  unfold Enforcement.minTimeBetweenOpsPassed at passed
  split at passed
  · cases passed
  next list map =>
  unfold lastKeyAccessTime at passed
  cases found : entryOf keyid list with
  | none => exact timed.absent list map found last member
  | some entry =>
  obtain ⟨_, before, order⟩ := timed.present list entry map found
  have first := le_iff_toNat_le.mp (order last member)
  unfold entryOf at found
  simp only [found, Option.map_some, decide_eq_true_eq] at passed
  omega

/-- One call: what was known of the key is still known, and a call for the key
that is answered with `KM_ERROR_OK` comes after the timeout. -/
theorem Timed.authorizeBegin (set : timeout ≠ noTimeout) (last : call.keyid = keyid →
      AuthList.lastInteger Tag.minSecondsBetweenOps noTimeout call.authSet = timeout ∧
        ∃ param ∈ call.authSet, param.tag = Tag.minSecondsBetweenOps ∧ param.integer = timeout) :
    Timed keyid timeout granted call.policy.currentTime (tables.authorizeBegin call).2 ∧
      (call.keyid = keyid → (tables.authorizeBegin call).1 = .ok →
        (∀ last ∈ granted, last.toNat + timeout.toNat ≤ call.policy.currentTime.toNat) ∧
          Timed keyid timeout (some call.policy.currentTime) call.policy.currentTime
            (tables.authorizeBegin call).2) := by
  have ended := authorizeBegin_end tables call
  generalize tables.authorizeBegin call = result at ended ⊢
  cases ended with
  | refused _ wrong => exact ⟨timed, fun _ ok => absurd ok wrong⟩
  | @untimed scan checked refused =>
    refine ⟨?_, fun _ ok => absurd ok refused⟩
    by_cases mine : call.keyid = keyid
    · have value := (check_ok checked).params.minOpsTimeout.trans (last mine).1
      exact (timed.recordTime_mine mine value set).1
    · exact timed.recordTime_other mine scan
  | @recorded scan checked done =>
  have same := (recordUse_times (tables.recordTime call scan).2 call scan).1
  by_cases mine : call.keyid = keyid
  · obtain ⟨value, param, member, tag, limit⟩ := last mine
    have params := (check_ok checked).params
    have kept := timed.recordTime_mine mine (params.minOpsTimeout.trans value) set
    refine ⟨kept.1.congr same, fun _ _ => ⟨?_, (kept.2 done).congr same⟩⟩
    have passed := params.timePassed param member tag
    rw [limit, mine] at passed
    exact timed.passed passed
  · exact ⟨(timed.recordTime_other mine scan).congr same, fun equal => absurd equal mine⟩

end

/-!
## Whole runs
-/

/-- The times of the calls for the key, for a purpose that needs authorization,
that are answered with `KM_ERROR_OK`. -/
def Enforcement.grants (tables : Enforcement) (calls : List BeginCall) (keyid : UInt64) :
    List UInt32 :=
  ((tables.answers calls).filter fun (call, answer) =>
    call.keyid = keyid ∧ exemptPurpose call.purpose call.authSet = false ∧ answer = .ok).map
      (·.1.policy.currentTime)

theorem grants_cons (tables : Enforcement) (call : BeginCall) (rest : List BeginCall) (keyid : UInt64) :
    tables.grants (call :: rest) keyid = if call.keyid = keyid ∧ exemptPurpose call.purpose call.authSet = false ∧
          (tables.authorizeBegin call).1 = .ok then
        call.policy.currentTime :: (tables.authorizeBegin call).2.grants rest keyid
      else (tables.authorizeBegin call).2.grants rest keyid := by
  simp only [Enforcement.grants, Enforcement.answers, filter_cons, decide_eq_true_eq]
  split
  · rfl
  · rfl

def Monotone (calls : List BeginCall) : Prop :=
  calls.Pairwise fun earlier later => earlier.policy.currentTime ≤ later.policy.currentTime

def AuthList.limits (authSet : AuthList) : List UInt32 :=
  (List.filter (decide <| ·.tag = Tag.minSecondsBetweenOps) authSet).map Param.integer

theorem AuthList.lastInteger_limits (authSet : AuthList) (default : UInt32) :
    AuthList.lastInteger Tag.minSecondsBetweenOps default authSet = authSet.limits.getLastD default := by
  induction authSet generalizing default with
  | nil => rfl
  | cons param rest ih =>
  rw [lastInteger, ih]
  by_cases tag : param.tag = Tag.minSecondsBetweenOps
  · simp only [limits, filter_cons, tag, decide_true, if_true, map_cons, getLastD_cons]
  · simp only [limits, filter_cons, tag, decide_false, Bool.false_eq_true, if_false]

theorem grants_apart {calls : List BeginCall} {authSet : AuthList} (same : SameKey calls keyid authSet)
    (monotone : Monotone calls) (limited : authSet.limits.getLastD noTimeout = timeout) (set : timeout ≠ noTimeout)
    (timed : Timed keyid timeout granted time tables) (start : ∀ call ∈ calls, time ≤ call.policy.currentTime) :
    (∀ last ∈ granted, ∀ next ∈ tables.grants calls keyid, last.toNat + timeout.toNat ≤ next.toNat) ∧
      (tables.grants calls keyid).Pairwise fun first second =>
        first.toNat + timeout.toNat ≤ second.toNat := by
  induction calls generalizing tables granted time with
  | nil => exact ⟨fun _ _ _ member => (nomatch member), List.Pairwise.nil⟩
  | cons call rest ih =>
  obtain ⟨ahead, sorted⟩ := pairwise_cons.mp monotone
  have sameRest : SameKey rest keyid authSet := fun other later =>
    same other (mem_cons_of_mem _ later)
  have last (mine : call.keyid = keyid) :
      AuthList.lastInteger Tag.minSecondsBetweenOps noTimeout call.authSet = timeout ∧
        ∃ param ∈ call.authSet, param.tag = Tag.minSecondsBetweenOps ∧ param.integer = timeout := by
    rw [same call mem_cons_self mine, AuthList.lastInteger_limits]
    refine ⟨limited, ?_⟩
    have member : timeout ∈ authSet.limits := by
      cases values : authSet.limits with
      | nil =>
        rw [values] at limited
        exact absurd limited.symm set
      | cons value others =>
      rw [values, getLastD_cons] at limited
      rw [← limited, getLastD_eq_getLast?]
      cases final : others.getLast? with
      | none => exact mem_cons_self
      | some other => exact mem_cons_of_mem _ (mem_of_getLast? final)
    obtain ⟨param, found, value⟩ := mem_map.mp member
    obtain ⟨inside, tag⟩ := mem_filter.mp found
    exact ⟨param, inside, of_decide_eq_true tag, value⟩
  have step := (timed.later (start call mem_cons_self)).authorizeBegin set last
  rw [grants_cons]
  split
  next granted =>
    obtain ⟨apart, now⟩ := step.2 granted.1 granted.2.2
    obtain ⟨after, pairs⟩ := ih sameRest sorted now ahead
    refine ⟨?_, pairwise_cons.mpr ⟨after _ rfl, pairs⟩⟩
    intro earlier member next listed
    have first := apart earlier member
    rcases mem_cons.mp listed with equal | later
    · rw [equal]
      exact first
    · have second := after _ rfl next later
      omega
  next other => exact ih sameRest sorted step.1 ahead

theorem Timed.create (keyid : UInt64) (timeout maxTimes maxCounts : UInt32) (times counts : Bool) :
    Timed keyid timeout none 0 (.create maxTimes maxCounts times counts) := by
  have empty {list : List AccessTime}
      (map : (Enforcement.create maxTimes maxCounts times counts).accessTimeMap = some list) :
      list = [] := by
    cases times with
    | false => cases map
    | true =>
    cases map
    rfl
  constructor
  · intro list map
    rw [empty map]
    exact List.Pairwise.nil
  · intro list entry map found
    rw [empty map] at found
    cases found
  · intro list map missing last member
    cases member

/-- In every run from the start of a boot, the calls for a key with these limits
that are answered with `KM_ERROR_OK` are at least `limit` seconds apart. -/
def RateKept (limits : List UInt32) (limit : UInt32) : Prop :=
  ∀ (maxTimes maxCounts : UInt32) (times counts : Bool) (calls : List BeginCall) (keyid : UInt64)
    (authSet : AuthList), SameKey calls keyid authSet → Monotone calls →
    authSet.limits = limits →
    ((Enforcement.create maxTimes maxCounts times counts).grants calls keyid).Pairwise
      fun first second => limit.toNat ≤ second.toNat - first.toNat

variable {limits : List UInt32}

theorem rateKept {limit : UInt32} (below : limit ≤ limits.getLastD noTimeout)
    (set : limits.getLastD noTimeout ≠ noTimeout) : RateKept limits limit := by
  intro maxTimes maxCounts times counts calls keyid authSet same monotone listed
  have apart := (grants_apart same monotone (by rw [listed]) set (.create keyid _ maxTimes maxCounts times counts)
    fun call _ => le_iff_toNat_le.mpr (Nat.zero_le _)).2
  refine apart.imp ?_
  intro first second span
  have order := le_iff_toNat_le.mp below
  omega

/-!
## Runs that break a limit
-/

def rateKey (limits : List UInt32) : AuthList :=
  .number Tag.purpose Purpose.sign.toUInt64 ::
    limits.map fun limit => .number Tag.minSecondsBetweenOps limit.toUInt64

def rateCall (keyid : UInt64) (limits : List UInt32) (now : UInt32) : BeginCall where
  policy := quietPolicy now
  purpose := .sign
  keyid := keyid
  authSet := rateKey limits
  operationParams := []

theorem number_integer (tag : Tag) (value : UInt32) : (KeyParam.number tag value.toUInt64).integer = value := by
  exact toUInt32_toUInt64 value

theorem rateKey_limits (limits : List UInt32) : (rateKey limits).limits = limits := by
  have rest : (limits.map fun limit => KeyParam.number Tag.minSecondsBetweenOps limit.toUInt64).filter
      (decide <| ·.tag = Tag.minSecondsBetweenOps) =
        limits.map fun limit => .number Tag.minSecondsBetweenOps limit.toUInt64 := by
    apply filter_eq_self.mpr
    intro param member
    obtain ⟨limit, _, rfl⟩ := mem_map.mp member
    exact decide_eq_true rfl
  have head : decide ((KeyParam.number Tag.purpose Purpose.sign.toUInt64).tag =
      Tag.minSecondsBetweenOps) = false := by decide
  unfold AuthList.limits rateKey
  rw [filter_cons, head, if_neg nofun, rest, map_map]
  exact (map_congr_left fun limit _ => number_integer _ limit).trans (map_id limits)

theorem checkParams_fresh (map : tables.accessTimeMap = some list) (absent : entryOf call.keyid list = none)
    (scan : Scan) :
    checkParams tables call (limits.map fun limit => .number Tag.minSecondsBetweenOps limit.toUInt64) scan =
      .ok { scan with minOpsTimeout := limits.getLastD scan.minOpsTimeout } := by
  induction limits generalizing scan with
  | nil => rfl
  | cons limit rest ih =>
  have passed : tables.minTimeBetweenOpsPassed call.policy limit call.keyid = true := by
    unfold entryOf at absent
    simp only [Enforcement.minTimeBetweenOpsPassed, map, lastKeyAccessTime, absent, Option.map_none]
  have round : checkParam tables call scan (.number Tag.minSecondsBetweenOps limit.toUInt64) =
        .ok { scan with minOpsTimeout := limit } := by
    unfold checkParam
    simp only [number_integer, passed]
    rfl
  rw [map_cons, checkParams, round]
  dsimp only
  rw [ih, getLastD_cons]

theorem authorizeBegin_fresh (map : tables.accessTimeMap = some list) (absent : entryOf keyid list = none)
    (recorded : (tables.recordTime (rateCall keyid limits now)
      { Scan.start with minOpsTimeout := limits.getLastD noTimeout }).1 = .ok) :
    tables.authorizeBegin (rateCall keyid limits now) = (.ok, (tables.recordTime (rateCall keyid limits now)
        { Scan.start with minOpsTimeout := limits.getLastD noTimeout }).2) := by
  have purpose : authorizedPurpose Purpose.sign (rateKey limits) = .ok := rfl
  have params : checkParams tables (rateCall keyid limits now) (rateKey limits) .start =
      .ok { Scan.start with minOpsTimeout := limits.getLastD noTimeout } := by
    exact checkParams_fresh map absent .start
  have checked : tables.check (rateCall keyid limits now) =
      .ok { Scan.start with minOpsTimeout := limits.getLastD noTimeout } := by
    unfold Enforcement.check
    have set : (rateCall keyid limits now).authSet = rateKey limits := rfl
    have sign : (rateCall keyid limits now).purpose = Purpose.sign := rfl
    rw [set, sign, purpose]
    rw [params]
    rfl
  unfold Enforcement.authorizeBegin
  rw [checked]
  dsimp only
  generalize tables.recordTime (rateCall keyid limits now) _ = result at recorded ⊢
  obtain ⟨answer, after⟩ := result
  cases recorded
  rfl

theorem grants_unlimited (unset : limits.getLastD noTimeout = noTimeout) :
    (Enforcement.create 32 32 true true).grants [rateCall 7 limits 0, rateCall 7 limits 0] 7 = [0, 0] := by
  have first : (Enforcement.create 32 32 true true).authorizeBegin (rateCall 7 limits 0) =
      (.ok, .create 32 32 true true) := by
    have skipped : (Enforcement.create 32 32 true true).recordTime (rateCall 7 limits 0)
        { Scan.start with minOpsTimeout := limits.getLastD noTimeout } = (.ok, .create 32 32 true true) := by
      unfold Enforcement.recordTime
      rw [if_pos unset]
    rw [authorizeBegin_fresh rfl rfl (by rw [skipped]), skipped]
  have counts : (rateCall 7 limits 0).keyid = 7 ∧
      exemptPurpose (rateCall 7 limits 0).purpose (rateCall 7 limits 0).authSet = false ∧
        ((Enforcement.create 32 32 true true).authorizeBegin (rateCall 7 limits 0)).1 = .ok :=
    ⟨rfl, Bool.and_false _, by rw [first]⟩
  rw [grants_cons, if_pos counts, first]
  rw [grants_cons, if_pos counts]
  rfl

theorem updateKeyAccessTime_replaces (ne : entry.keyid ≠ key) (old : entry.timeout ≤ now - entry.accessTime) :
    updateKeyAccessTime 32 [entry] key now timeout = ([⟨key, now, timeout⟩], true) := by
  have gone : updateEntry key now [entry] = ([], false) := by
    simp only [updateEntry, if_neg ne, if_pos old]
  unfold updateKeyAccessTime
  rw [gone]
  rfl

def timesOnly (list : List AccessTime) : Enforcement where
  maxAccessTimes := 32
  maxAccessCounts := 32
  accessTimeMap := some list
  accessCountMap := some []

theorem authorizeBegin_replaces (ne : entry.keyid ≠ key)
    (old : entry.timeout ≤ now - entry.accessTime) (set : limits.getLastD noTimeout ≠ noTimeout) :
    (timesOnly [entry]).authorizeBegin (rateCall key limits now) =
      (.ok, timesOnly [⟨key, now, limits.getLastD noTimeout⟩]) := by
  have recorded : (timesOnly [entry]).recordTime (rateCall key limits now)
      { Scan.start with minOpsTimeout := limits.getLastD noTimeout } =
        (.ok, timesOnly [⟨key, now, limits.getLastD noTimeout⟩]) := by
    unfold Enforcement.recordTime
    rw [if_neg set]
    have replaced := @updateKeyAccessTime_replaces now key (limits.getLastD noTimeout) entry ne old
    simp only [timesOnly, rateCall, quietPolicy, replaced, if_true]
  have absent : entryOf key [entry] = none := by
    rw [entryOf_cons, if_neg ne]
    rfl
  rw [authorizeBegin_fresh rfl absent (by rw [recorded]), recorded]

theorem keys_apart : (8 : UInt64) ≠ 7 := by decide

/-- The last limit `last` decides when another key makes room: the entry is gone
after `last` seconds, and no other limit is looked at then. -/
theorem grants_forgotten (set : limits.getLastD noTimeout ≠ noTimeout) : (Enforcement.create 32 32 true true).grants
        [rateCall 7 limits 0, rateCall 8 [0] (limits.getLastD noTimeout),
          rateCall 7 limits (limits.getLastD noTimeout)] 7 =
      [0, limits.getLastD noTimeout] := by
  have first : (Enforcement.create 32 32 true true).authorizeBegin (rateCall 7 limits 0) =
      (.ok, timesOnly [⟨7, 0, limits.getLastD noTimeout⟩]) := by
    have recorded : (Enforcement.create 32 32 true true).recordTime (rateCall 7 limits 0)
        { Scan.start with minOpsTimeout := limits.getLastD noTimeout } =
          (.ok, timesOnly [⟨7, 0, limits.getLastD noTimeout⟩]) := by
      unfold Enforcement.recordTime
      rw [if_neg set]
      rfl
    rw [authorizeBegin_fresh rfl rfl (by rw [recorded]), recorded]
  have second : (timesOnly [⟨7, 0, limits.getLastD noTimeout⟩]).authorizeBegin
      (rateCall 8 [0] (limits.getLastD noTimeout)) = (.ok, timesOnly [⟨8, limits.getLastD noTimeout, 0⟩]) :=
    authorizeBegin_replaces keys_apart.symm (by rw [UInt32.sub_zero]; exact UInt32.le_refl _) (by decide)
  have third : (timesOnly [⟨8, limits.getLastD noTimeout, 0⟩]).authorizeBegin
      (rateCall 7 limits (limits.getLastD noTimeout)) =
        (.ok, timesOnly [⟨7, limits.getLastD noTimeout, limits.getLastD noTimeout⟩]) :=
    authorizeBegin_replaces keys_apart (by rw [UInt32.sub_self]; exact UInt32.le_refl _) set
  have exempt (key : UInt64) (time : UInt32) : exemptPurpose (rateCall key limits time).purpose
      (rateCall key limits time).authSet = false := Bool.and_false _
  rw [grants_cons, first, if_pos ⟨rfl, exempt 7 0, rfl⟩]
  rw [grants_cons, second, if_neg fun mine => keys_apart mine.1]
  rw [grants_cons, third, if_pos ⟨rfl, exempt 7 _, rfl⟩]
  rfl

/-- A limit is kept by every run exactly if it is zero, or if the limit that is
listed last is not smaller and is not `UINT32_MAX`. -/
theorem rateKept_iff {limits : List UInt32} {limit : UInt32} (member : limit ∈ limits) : RateKept limits limit ↔
      limit = 0 ∨ (limit ≤ limits.getLastD noTimeout ∧ limits.getLastD noTimeout ≠ noTimeout) := by
  constructor
  · intro kept
    by_cases zero : limit = 0
    · exact .inl zero
    right
    have positive : limit.toNat ≠ 0 := fun equal => zero (UInt32.toNat_inj.mp equal)
    have set : limits.getLastD noTimeout ≠ noTimeout := by
      intro unset
      have apart := kept 32 32 true true [rateCall 7 limits 0, rateCall 7 limits 0] 7 (rateKey limits) (by
          intro call listed _
          simp only [mem_cons, not_mem_nil, or_false, or_self] at listed
          rw [listed]
          rfl)
        (pairwise_pair.mpr (UInt32.le_refl _)) (rateKey_limits limits)
      rw [grants_unlimited unset, pairwise_pair] at apart
      exact positive (Nat.le_zero.mp apart)
    refine ⟨?_, set⟩
    have apart := kept 32 32 true true [rateCall 7 limits 0, rateCall 8 [0] (limits.getLastD noTimeout),
        rateCall 7 limits (limits.getLastD noTimeout)] 7 (rateKey limits)
      (by
        intro call listed mine
        simp only [mem_cons, not_mem_nil, or_false] at listed
        obtain rfl | rfl | rfl := listed
        · rfl
        · exact absurd mine keys_apart
        · rfl)
      (by
        have start (time : UInt32) : (0 : UInt32) ≤ time := UInt32.le_iff_toNat_le.mpr (Nat.zero_le _)
        refine pairwise_cons.mpr ⟨?_, pairwise_pair.mpr (UInt32.le_refl _)⟩
        intro call _
        exact start _)
      (rateKey_limits limits)
    rw [grants_forgotten set, pairwise_pair] at apart
    exact le_iff_toNat_le.mpr apart
  · intro condition
    rcases condition with zero | last
    · subst zero
      intro maxTimes maxCounts times counts calls keyid authSet _ _ _
      exact pairwise_of_forall fun _ _ => Nat.zero_le _
    · exact rateKept last.1 last.2

/-- A key with one limit of five seconds. -/
theorem five_seconds_kept : 5 ∈ [(5 : UInt32)] ∧ RateKept [5] 5 :=
  ⟨by decide, (rateKept_iff (by decide)).mpr (.inr (by decide))⟩

/-- With the limits 5 and 1 a key is used twice within a second, with a use of
another key in between. -/
theorem five_seconds_forgotten : (Enforcement.create 32 32 true true).grants
      [rateCall 7 [5, 1] 0, rateCall 8 [0] 1, rateCall 7 [5, 1] 1] 7 = [0, 1] := by decide

end Trusty.Keymaster
