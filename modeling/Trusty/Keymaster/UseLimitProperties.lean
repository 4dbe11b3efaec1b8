import Trusty.Keymaster.EnforcementProperties

/-!
`KM_TAG_MAX_USES_PER_BOOT`: how often calls of `AuthorizeBegin` for one key are
answered with `KM_ERROR_OK` in one boot.
-/

namespace Trusty.Keymaster

open List

variable {keyid : UInt64}

/-- The calls for the key, for a purpose that needs authorization, that are
answered with `KM_ERROR_OK`. -/
def Enforcement.uses (tables : Enforcement) (calls : List BeginCall) (keyid : UInt64) : Nat :=
  (tables.answers calls).countP fun (call, answer) =>
    call.keyid = keyid ∧ exemptPurpose call.purpose call.authSet = false ∧ answer = .ok

def countOf (keyid : UInt64) (list : List AccessCount) : Nat :=
  match list.find? (·.keyid == keyid) with
  | none => 0
  | some entry => entry.accessCount.toNat

theorem countOf_cons (keyid : UInt64) (entry : AccessCount) (rest : List AccessCount) : countOf keyid (entry :: rest) =
      if entry.keyid = keyid then entry.accessCount.toNat else countOf keyid rest := by
  unfold countOf
  rw [find?_cons]
  cases same : entry.keyid == keyid with
  | true => rw [if_pos (beq_iff_eq.mp same)]
  | false => rw [if_neg (beq_eq_false_iff_ne.mp same)]

variable {list : List AccessCount}

theorem incrementEntry_none (absent : incrementEntry keyid list = none) : list.find? (·.keyid == keyid) = none := by
  induction list with
  | nil => rfl
  | cons entry rest ih =>
  rw [incrementEntry] at absent
  split at absent
  · split at absent
    · cases absent
    · cases absent
  next other =>
  rw [find?_cons]
  simp only [beq_eq_false_iff_ne.mpr other]
  exact ih (by simpa using absent)

variable {incremented : List AccessCount}

theorem incrementEntry_some {other : UInt64} (found : incrementEntry other list = some incremented) :
    countOf keyid incremented = countOf keyid list ∨
      (other = keyid ∧ countOf keyid incremented = countOf keyid list + 1) := by
  induction list generalizing incremented with
  | nil => cases found
  | cons entry rest ih =>
  rw [incrementEntry] at found
  split at found
  next same =>
    split at found
    next small =>
      cases found
      rw [countOf_cons, countOf_cons]
      by_cases mine : entry.keyid = keyid
      · refine .inr ⟨same.symm.trans mine, ?_⟩
        have below : entry.accessCount.toNat < 2 ^ 64 - 1 := UInt64.lt_iff_toNat_lt.mp small
        rw [if_pos mine, if_pos mine, UInt64.toNat_add]
        have one : (1 : UInt64).toNat = 1 := rfl
        omega
      · left
        rw [if_neg mine, if_neg mine]
    · cases found
      exact .inl rfl
  next ne =>
  obtain ⟨tail, later, rfl⟩ := Option.map_eq_some_iff.mp found
  rw [countOf_cons, countOf_cons]
  split
  · exact .inl rfl
  · exact ih later

theorem incrementEntry_counts (found : incrementEntry keyid list = some incremented)
    (small : countOf keyid list < 2 ^ 64 - 1) : countOf keyid incremented = countOf keyid list + 1 := by
  induction list generalizing incremented with
  | nil => cases found
  | cons entry rest ih =>
  rw [incrementEntry] at found
  rw [countOf_cons] at small ⊢
  split at found
  next same =>
    rw [if_pos same] at small ⊢
    split at found
    · cases found
      rw [countOf_cons, if_pos same, UInt64.toNat_add]
      have one : (1 : UInt64).toNat = 1 := rfl
      omega
    next large => exact absurd (UInt64.lt_iff_toNat_lt.mpr small) large
  next ne =>
  rw [if_neg ne] at small ⊢
  obtain ⟨tail, later, rfl⟩ := Option.map_eq_some_iff.mp found
  rw [countOf_cons, if_neg ne]
  exact ih later small

theorem incrementKeyAccessCount_other {other : UInt64} (ne : other ≠ keyid) (maxSize : UInt32) :
    countOf keyid (incrementKeyAccessCount maxSize list other).1 = countOf keyid list := by
  unfold incrementKeyAccessCount
  split
  next found =>
    rcases incrementEntry_some found with same | mine
    · exact same
    · exact absurd mine.1 ne
  · split
    · rfl
    · rw [countOf_cons, if_neg ne]

theorem incrementKeyAccessCount_counts {maxSize : UInt32} (small : countOf keyid list < 2 ^ 64 - 1)
    (counted : (incrementKeyAccessCount maxSize list keyid).2 = true) :
    countOf keyid (incrementKeyAccessCount maxSize list keyid).1 = countOf keyid list + 1 := by
  unfold incrementKeyAccessCount at counted ⊢
  split at counted
  next found =>
    exact incrementEntry_counts found small
  next absent =>
  split at counted
  · cases counted
  next room =>
  have zero : countOf keyid list = 0 := by
    unfold countOf
    rw [incrementEntry_none absent]
  simp only [if_neg room, countOf_cons, if_true, zero]
  rfl

theorem incrementKeyAccessCount_failed {maxSize : UInt32} {key : UInt64}
    (failed : (incrementKeyAccessCount maxSize list key).2 = false) :
    (incrementKeyAccessCount maxSize list key).1 = list := by
  unfold incrementKeyAccessCount at failed ⊢
  split at failed
  · cases failed
  · split at failed
    next full => simp only [if_pos full]
    · cases failed

def Enforcement.countOf (tables : Enforcement) (keyid : UInt64) : Nat :=
  match tables.accessCountMap with
  | none => 0
  | some list => Keymaster.countOf keyid list

variable {tables : Enforcement}

theorem Enforcement.countOf_lt {limit : UInt32} (notExceeded : tables.maxUsesPerBootNotExceeded keyid limit = true)
    (bound : tables.countOf keyid ≤ max limit.toNat 1) : tables.countOf keyid < max limit.toNat 1 := by
  have limitSmall := limit.toNat_lt
  unfold Enforcement.maxUsesPerBootNotExceeded at notExceeded
  unfold Enforcement.countOf at bound ⊢
  split at notExceeded
  · cases notExceeded
  next list present =>
  simp only [present] at bound ⊢
  unfold Keymaster.countOf keyAccessCount at *
  cases found : list.find? (·.keyid == keyid) with
  | none => exact lt_of_lt_of_le zero_lt_one (le_max_right _ _)
  | some entry =>
  simp only [found, Option.map_some, decide_eq_true_eq] at notExceeded bound ⊢
  have below := UInt32.lt_iff_toNat_lt.mp notExceeded
  rw [UInt64.toNat_toUInt32] at below
  omega

variable {call : BeginCall} {scan : Scan}

theorem recordUse_failed (failed : (tables.recordUse call scan).1 ≠ .ok) (keyid : UInt64) :
    (tables.recordUse call scan).2.countOf keyid = tables.countOf keyid := by
  unfold Enforcement.recordUse at failed ⊢
  split
  · rfl
  next counted =>
  split
  · rfl
  next list present =>
  rw [if_neg counted] at failed
  simp only [present] at failed
  have left : (incrementKeyAccessCount tables.maxAccessCounts list call.keyid).2 = false := by
    cases answer : (incrementKeyAccessCount tables.maxAccessCounts list call.keyid).2 with
    | true => simp only [answer, if_true, ne_eq, not_true_eq_false] at failed
    | false => rfl
  simp only [Enforcement.countOf, present, incrementKeyAccessCount_failed left]

theorem recordUse_other (ne : call.keyid ≠ keyid) :
    (tables.recordUse call scan).2.countOf keyid = tables.countOf keyid := by
  unfold Enforcement.recordUse
  split
  · rfl
  split
  · rfl
  next list present =>
  simp only [Enforcement.countOf, present]
  exact incrementKeyAccessCount_other ne tables.maxAccessCounts

theorem recordUse_counts (mine : call.keyid = keyid) (limited : scan.updateAccessCount = true)
    (small : tables.countOf keyid < 2 ^ 64 - 1) (counted : (tables.recordUse call scan).1 = .ok) :
    (tables.recordUse call scan).2.countOf keyid = tables.countOf keyid + 1 := by
  unfold Enforcement.recordUse at counted ⊢
  simp only [limited, Bool.not_true, Bool.false_eq_true, if_false] at counted ⊢
  split at counted
  · cases counted
  next list present =>
  simp only [Enforcement.countOf, present, mine] at small counted ⊢
  apply incrementKeyAccessCount_counts small
  cases answer : (incrementKeyAccessCount tables.maxAccessCounts list keyid).2 with
  | true => rfl
  | false => simp [answer] at counted

theorem recordTime_countOf (tables : Enforcement) (call : BeginCall) (scan : Scan)
    (keyid : UInt64) : (tables.recordTime call scan).2.countOf keyid = tables.countOf keyid := by
  unfold Enforcement.countOf
  rw [(recordTime_counts tables call scan).1]

theorem authorizeBegin_failed (failed : (tables.authorizeBegin call).1 ≠ .ok) (keyid : UInt64) :
    (tables.authorizeBegin call).2.countOf keyid = tables.countOf keyid := by
  have ended := authorizeBegin_end tables call
  generalize tables.authorizeBegin call = result at failed ended ⊢
  cases ended with
  | refused => rfl
  | untimed => exact recordTime_countOf tables call _ keyid
  | recorded => exact (recordUse_failed failed keyid).trans (recordTime_countOf tables call _ keyid)

theorem authorizeBegin_other (ne : call.keyid ≠ keyid) :
    (tables.authorizeBegin call).2.countOf keyid = tables.countOf keyid := by
  have ended := authorizeBegin_end tables call
  generalize tables.authorizeBegin call = result at ended ⊢
  cases ended with
  | refused => rfl
  | untimed => exact recordTime_countOf tables call _ keyid
  | recorded =>
  exact (recordUse_other ne).trans (recordTime_countOf tables call _ keyid)

theorem authorizeBegin_ok {param : KeyParam} (mine : call.keyid = keyid) (member : param ∈ call.authSet)
    (limited : param.tag = Tag.maxUsesPerBoot) (bound : tables.countOf keyid ≤ max param.integer.toNat 1)
    (ok : (tables.authorizeBegin call).1 = .ok) :
    tables.countOf keyid < max param.integer.toNat 1 ∧
      (tables.authorizeBegin call).2.countOf keyid = tables.countOf keyid + 1 := by
  have ended := authorizeBegin_end tables call
  generalize tables.authorizeBegin call = result at ok ended ⊢
  cases ended with
  | refused _ wrong => contradiction
  | untimed _ refused => contradiction
  | @recorded scan checked timed =>
  have params := (check_ok checked).params
  have below := Enforcement.countOf_lt (mine ▸ params.notExceeded param member limited) bound
  refine ⟨below, ?_⟩
  have updates : scan.updateAccessCount = true := by
    rw [params.updateAccessCount, Bool.or_eq_true, any_eq_true]
    exact .inr ⟨param, member, decide_eq_true limited⟩
  have limitSmall := param.integer.toNat_lt
  have counted := recordUse_counts mine updates (by rw [recordTime_countOf]; omega) ok
  rwa [recordTime_countOf] at counted

def SameKey (calls : List BeginCall) (keyid : UInt64) (authSet : AuthList) : Prop :=
  ∀ call ∈ calls, call.keyid = keyid → call.authSet = authSet

theorem uses_bounded {calls : List BeginCall} {authSet : AuthList} {param : KeyParam}
    (same : SameKey calls keyid authSet) (member : param ∈ authSet) (limited : param.tag = Tag.maxUsesPerBoot)
    (tables : Enforcement) (bound : tables.countOf keyid ≤ max param.integer.toNat 1) :
    tables.uses calls keyid + tables.countOf keyid ≤ max param.integer.toNat 1 := by
  induction calls generalizing tables with
  | nil =>
    simp only [Enforcement.uses, Enforcement.answers, countP_nil]
    omega
  | cons call rest ih =>
  have sameRest : SameKey rest keyid authSet := fun other later =>
    same other (mem_cons_of_mem _ later)
  simp only [Enforcement.uses, Enforcement.answers, countP_cons]
  -- Only a call for this key that succeeds moves the count, by the use it adds.
  by_cases used : call.keyid = keyid ∧ (tables.authorizeBegin call).1 = .ok
  · have set := same call mem_cons_self used.1
    have step := authorizeBegin_ok used.1 (set ▸ member) limited bound used.2
    have later := ih sameRest (tables.authorizeBegin call).2 (by omega)
    simp only [Enforcement.uses] at later
    split
    · omega
    · omega
  · have unchanged : (tables.authorizeBegin call).2.countOf keyid = tables.countOf keyid := by
      by_cases mine : call.keyid = keyid
      · exact authorizeBegin_failed (fun ok => used ⟨mine, ok⟩) keyid
      · exact authorizeBegin_other mine
    have later := ih sameRest (tables.authorizeBegin call).2 (by omega)
    simp only [Enforcement.uses] at later
    rw [if_neg (by simp only [decide_eq_true_eq]; exact fun ⟨mine, _, ok⟩ => used ⟨mine, ok⟩)]
    omega

theorem countOf_create (maxTimes maxCounts : UInt32) (times counts : Bool) (keyid : UInt64) :
    (Enforcement.create maxTimes maxCounts times counts).countOf keyid = 0 := by
  cases counts with
  | false | true => rfl

/-- In every run from the start of a boot, the uses of the key are within the
limit `limit`. -/
def LimitKept (limit : UInt32) : Prop :=
  ∀ (maxTimes maxCounts : UInt32) (times counts : Bool) (calls : List BeginCall) (keyid : UInt64)
    (authSet : AuthList), SameKey calls keyid authSet →
    (∃ param ∈ authSet, param.tag = Tag.maxUsesPerBoot ∧ param.integer = limit) →
    (Enforcement.create maxTimes maxCounts times counts).uses calls keyid ≤ limit.toNat

def limitedKey (limit : UInt32) : AuthList :=
  [.number Tag.purpose Purpose.sign.toUInt64, .number Tag.maxUsesPerBoot limit.toUInt64]

def quietPolicy (now : UInt32) : Policy where
  activationDateValid _ := true
  expirationDatePassed _ := false
  authTokenTimedOut _ _ := false
  validateTokenSignature _ := false
  currentTime := now

def useOnce : BeginCall where
  policy := quietPolicy 0
  purpose := .sign
  keyid := 7
  authSet := limitedKey 0
  operationParams := []

/-- A key that may never be used is used once. -/
theorem forbidden_key_used : (Enforcement.create 32 32 true true).uses [useOnce] 7 = 1 := by decide

/-- The limit is kept by every run exactly if it is not zero: a key that is not
in the table yet is let through without a look at its limit. -/
theorem limitKept_iff (limit : UInt32) : LimitKept limit ↔ limit ≠ 0 := by
  constructor
  · intro kept zero
    subst zero
    have once := kept 32 32 true true [useOnce] 7 (limitedKey 0) (by
        intro call member _
        rw [mem_singleton.mp member]
        rfl)
      (by decide)
    nomatch once
  · intro positive maxTimes maxCounts times counts calls keyid authSet same limited
    obtain ⟨param, member, tag, value⟩ := limited
    have start := countOf_create maxTimes maxCounts times counts keyid
    have bounded := uses_bounded same member tag (.create maxTimes maxCounts times counts) (by omega)
    have nonzero : limit.toNat ≠ 0 := fun zero => positive (UInt32.toNat_inj.mp zero)
    rw [value] at bounded
    omega

end Trusty.Keymaster
