import Trusty.Keymaster.Enforcement

/-!
What the loop of `AuthorizeBegin` leaves behind, and what a call that is answered
with `KM_ERROR_OK` has done to the tables.
-/

namespace Trusty.Keymaster

open List

variable {tables : Enforcement} {call : BeginCall}

def AuthList.lastInteger (tag : Tag) (default : UInt32) : AuthList → UInt32
  | [] => default
  | entry :: rest =>
    AuthList.lastInteger tag (if entry.tag = tag then entry.integer else default) rest

structure CheckedParam (tables : Enforcement) (call : BeginCall) (scan : Scan) (param : KeyParam)
    (next : Scan) : Prop where
  timePassed : param.tag = Tag.minSecondsBetweenOps →
    tables.minTimeBetweenOpsPassed call.policy param.integer call.keyid = true
  notExceeded : param.tag = Tag.maxUsesPerBoot →
    tables.maxUsesPerBootNotExceeded call.keyid param.integer = true
  authNeeded : param.tag = Tag.userSecureId →
    AuthList.lastIndex Tag.noAuthRequired call.authSet = none
  minOpsTimeout : next.minOpsTimeout =
    if param.tag = Tag.minSecondsBetweenOps then param.integer else scan.minOpsTimeout
  updateAccessCount : next.updateAccessCount =
    (scan.updateAccessCount || decide (param.tag = Tag.maxUsesPerBoot))
  authenticationRequired : next.authenticationRequired =
    (scan.authenticationRequired || (decide (param.tag = Tag.userSecureId) &&
      (AuthList.lastIndex Tag.authTimeout call.authSet).isSome))
  authTokenMatched : next.authTokenMatched = true →
    scan.authTokenMatched = true ∨
      (param.tag = Tag.userSecureId ∧ call.tokenMatches param.longInteger = true)

variable {scan : Scan} {param : KeyParam}

theorem CheckedParam.skip (time : param.tag ≠ Tag.minSecondsBetweenOps)
    (uses : param.tag ≠ Tag.maxUsesPerBoot) (secure : param.tag ≠ Tag.userSecureId) (nonce : Bool) :
    CheckedParam tables call scan param { scan with callerNonceAuthorizedByKey := nonce } where
  timePassed tag := absurd tag time
  notExceeded tag := absurd tag uses
  authNeeded tag := absurd tag secure
  minOpsTimeout := by simp only [if_neg time]
  updateAccessCount := by simp only [uses, decide_false, Bool.or_false]
  authenticationRequired := by simp only [secure, decide_false, Bool.false_and, Bool.or_false]
  authTokenMatched := Or.inl

theorem checkParam_ok {next : Scan} (checked : checkParam tables call scan param = .ok next) :
    CheckedParam tables call scan param next := by
  have skip (tag : param.tag ∉ [Tag.minSecondsBetweenOps, Tag.maxUsesPerBoot, Tag.userSecureId])
      (nonce : Bool) :
      CheckedParam tables call scan param { scan with callerNonceAuthorizedByKey := nonce } := by
    simp only [mem_cons, not_mem_nil, or_false, not_or] at tag
    exact .skip tag.1 tag.2.1 tag.2.2 nonce
  unfold checkParam at checked
  by_cases active : param.tag = Tag.activeDatetime
  · rw [if_pos active] at checked
    split at checked
    · cases checked
      exact skip (by rw [active]; decide) _
    · cases checked
  rw [if_neg active] at checked
  by_cases origination : param.tag = Tag.originationExpireDatetime
  · rw [if_pos origination] at checked
    split at checked
    · cases checked
    · cases checked
      exact skip (by rw [origination]; decide) _
  rw [if_neg origination] at checked
  by_cases usage : param.tag = Tag.usageExpireDatetime
  · rw [if_pos usage] at checked
    split at checked
    · cases checked
    · cases checked
      exact skip (by rw [usage]; decide) _
  rw [if_neg usage] at checked
  by_cases time : param.tag = Tag.minSecondsBetweenOps
  · rw [if_pos time] at checked
    split at checked
    next passed =>
      cases checked
      exact
        { timePassed := fun _ => passed
          notExceeded := fun other => nomatch time.symm.trans other
          authNeeded := fun other => nomatch time.symm.trans other
          minOpsTimeout := by rw [if_pos time]
          updateAccessCount := by
            rw [time]
            simp [Tag.minSecondsBetweenOps, Tag.maxUsesPerBoot]
          authenticationRequired := by
            rw [time]
            simp [Tag.minSecondsBetweenOps, Tag.userSecureId]
          authTokenMatched := Or.inl }
    · cases checked
  rw [if_neg time] at checked
  by_cases uses : param.tag = Tag.maxUsesPerBoot
  · rw [if_pos uses] at checked
    split at checked
    next notExceeded =>
      cases checked
      exact
        { timePassed := fun other => absurd other time
          notExceeded := fun _ => notExceeded
          authNeeded := fun other => nomatch uses.symm.trans other
          minOpsTimeout := by rw [if_neg time]
          updateAccessCount := by simp only [uses, decide_true, Bool.or_true]
          authenticationRequired := by
            rw [uses]
            simp [Tag.maxUsesPerBoot, Tag.userSecureId]
          authTokenMatched := Or.inl }
    · cases checked
  rw [if_neg uses] at checked
  by_cases secure : param.tag = Tag.userSecureId
  · rw [if_pos secure] at checked
    split at checked
    · cases checked
    next auth =>
    have authNeeded : AuthList.lastIndex Tag.noAuthRequired call.authSet = none := by
      simpa using auth
    split at checked
    next timeout =>
      cases checked
      exact
        { timePassed := fun other => absurd other time
          notExceeded := fun other => absurd other uses
          authNeeded := fun _ => authNeeded
          minOpsTimeout := by rw [if_neg time]
          updateAccessCount := by simp only [uses, decide_false, Bool.or_false]
          authenticationRequired := by simp [secure, timeout]
          authTokenMatched := by
            intro matched
            rw [Bool.or_eq_true] at matched
            exact matched.imp_right fun found => ⟨secure, found⟩ }
    next timeout =>
    cases checked
    exact
      { timePassed := fun other => absurd other time
        notExceeded := fun other => absurd other uses
        authNeeded := fun _ => authNeeded
        minOpsTimeout := by rw [if_neg time]
        updateAccessCount := by simp only [uses, decide_false, Bool.or_false]
        authenticationRequired := by simp [timeout]
        authTokenMatched := Or.inl }
  rw [if_neg secure] at checked
  split at checked
  · cases checked
    exact .skip time uses secure _
  split at checked
  · cases checked
  · cases checked
    exact .skip time uses secure _

/-- What a loop that goes through the whole set has checked, and its variables
then. -/
structure CheckedParams (tables : Enforcement) (call : BeginCall) (set : AuthList) (scan : Scan)
    (last : Scan) : Prop where
  timePassed : ∀ param ∈ set, param.tag = Tag.minSecondsBetweenOps →
    tables.minTimeBetweenOpsPassed call.policy param.integer call.keyid = true
  notExceeded : ∀ param ∈ set, param.tag = Tag.maxUsesPerBoot →
    tables.maxUsesPerBootNotExceeded call.keyid param.integer = true
  authNeeded : ∀ param ∈ set, param.tag = Tag.userSecureId →
    AuthList.lastIndex Tag.noAuthRequired call.authSet = none
  minOpsTimeout : last.minOpsTimeout =
    AuthList.lastInteger Tag.minSecondsBetweenOps scan.minOpsTimeout set
  updateAccessCount : last.updateAccessCount =
    (scan.updateAccessCount || List.any set (decide <| ·.tag = Tag.maxUsesPerBoot))
  authenticationRequired : last.authenticationRequired =
    (scan.authenticationRequired || (List.any set (decide <| ·.tag = Tag.userSecureId) &&
      (AuthList.lastIndex Tag.authTimeout call.authSet).isSome))
  authTokenMatched : last.authTokenMatched = true →
    scan.authTokenMatched = true ∨
      ∃ param ∈ set, param.tag = Tag.userSecureId ∧ call.tokenMatches param.longInteger = true

theorem checkParams_ok {set : AuthList} {last : Scan}
    (checked : checkParams tables call set scan = .ok last) :
    CheckedParams tables call set scan last := by
  induction set generalizing scan with
  | nil =>
    cases checked
    exact
      { timePassed := by simp
        notExceeded := by simp
        authNeeded := by simp
        minOpsTimeout := rfl
        updateAccessCount := by simp
        authenticationRequired := by simp
        authTokenMatched := Or.inl }
  | cons param rest ih =>
  rw [checkParams] at checked
  split at checked
  · cases checked
  next next round =>
  have first := checkParam_ok round
  have others := ih checked
  exact
    { timePassed := forall_mem_cons.mpr ⟨first.timePassed, others.timePassed⟩
      notExceeded := forall_mem_cons.mpr ⟨first.notExceeded, others.notExceeded⟩
      authNeeded := forall_mem_cons.mpr ⟨first.authNeeded, others.authNeeded⟩
      minOpsTimeout := by
        rw [others.minOpsTimeout, first.minOpsTimeout, AuthList.lastInteger]
      updateAccessCount := by
        rw [others.updateAccessCount, first.updateAccessCount, any_cons, Bool.or_assoc]
      authenticationRequired := by
        rw [others.authenticationRequired, first.authenticationRequired, any_cons,
          Bool.or_assoc, ← Bool.and_or_distrib_right]
      authTokenMatched := by
        intro matched
        rcases others.authTokenMatched matched with earlier | later
        · exact (first.authTokenMatched earlier).imp_right fun found =>
            ⟨param, mem_cons_self, found⟩
        · obtain ⟨found, member, correct⟩ := later
          exact .inr ⟨found, mem_cons_of_mem _ member, correct⟩ }

structure Checked (tables : Enforcement) (call : BeginCall) (scan : Scan) : Prop where
  purpose : authorizedPurpose call.purpose call.authSet = .ok
  params : CheckedParams tables call call.authSet .start scan
  authenticated : scan.authenticationRequired = true → scan.authTokenMatched = true

theorem check_ok (checked : tables.check call = .ok scan) : Checked tables call scan := by
  unfold Enforcement.check at checked
  split at checked
  next purpose =>
    split at checked
    · cases checked
    next params =>
    split at checked
    · cases checked
    next authenticated =>
    split at checked
    · cases checked
    cases checked
    exact
      { purpose := purpose
        params := checkParams_ok params
        authenticated := by
          intro required
          simpa [required] using authenticated }
  · cases checked

theorem recordTime_counts (tables : Enforcement) (call : BeginCall) (scan : Scan) :
    (tables.recordTime call scan).2.accessCountMap = tables.accessCountMap ∧
      (tables.recordTime call scan).2.maxAccessCounts = tables.maxAccessCounts := by
  unfold Enforcement.recordTime
  split
  · exact ⟨rfl, rfl⟩
  · split
    · exact ⟨rfl, rfl⟩
    · exact ⟨rfl, rfl⟩

theorem recordUse_times (tables : Enforcement) (call : BeginCall) (scan : Scan) :
    (tables.recordUse call scan).2.accessTimeMap = tables.accessTimeMap ∧
      (tables.recordUse call scan).2.maxAccessTimes = tables.maxAccessTimes := by
  unfold Enforcement.recordUse
  split
  · exact ⟨rfl, rfl⟩
  · split
    · exact ⟨rfl, rfl⟩
    · exact ⟨rfl, rfl⟩

/-- How a call of `AuthorizeBegin` ends. -/
inductive BeginEnd (tables : Enforcement) (call : BeginCall) : KeymasterError × Enforcement → Prop
  | refused {error : KeymasterError} (failed : tables.check call = .error error)
      (wrong : error ≠ .ok) : BeginEnd tables call (error, tables)
  | untimed {scan : Scan} (checked : tables.check call = .ok scan)
      (refused : (tables.recordTime call scan).1 ≠ .ok) :
      BeginEnd tables call (tables.recordTime call scan)
  | recorded {scan : Scan} (checked : tables.check call = .ok scan)
      (timed : (tables.recordTime call scan).1 = .ok) :
      BeginEnd tables call ((tables.recordTime call scan).2.recordUse call scan)

theorem ite_ne_of_ne {α : Type} {condition : Prop} [Decidable condition] {first second other : α}
    (firstNe : first ≠ other) (secondNe : second ≠ other) : (if condition then first else second) ≠ other := by
  split
  · exact firstNe
  · exact secondNe

variable {error : KeymasterError}

theorem checkParam_error (failed : checkParam tables call scan param = .error error) : error ≠ .ok := by
  intro same
  rw [same] at failed
  refine absurd failed ?_
  -- Every branch ends with a result or with an error of its own.
  repeat' apply ite_ne_of_ne
  all_goals exact nofun

theorem checkParams_error {set : AuthList}
    (failed : checkParams tables call set scan = .error error) : error ≠ .ok := by
  induction set generalizing scan with
  | nil => exact (nomatch failed)
  | cons param rest ih =>
  rw [checkParams] at failed
  split at failed
  next round =>
    cases failed
    exact checkParam_error round
  · exact ih failed

theorem check_error (failed : tables.check call = .error error) : error ≠ .ok := by
  unfold Enforcement.check at failed
  split at failed
  · split at failed
    next loop =>
      cases failed
      exact checkParams_error loop
    · split at failed
      · cases failed
        decide
      split at failed
      · cases failed
        decide
      · cases failed
  next other =>
  cases failed
  exact other

theorem authorizeBegin_end (tables : Enforcement) (call : BeginCall) :
    BeginEnd tables call (tables.authorizeBegin call) := by
  unfold Enforcement.authorizeBegin
  split
  next failed => exact .refused failed (check_error failed)
  next scan checked =>
  generalize recorded : tables.recordTime call scan = result
  obtain ⟨answer, after⟩ := result
  cases answer with
  | ok =>
    have ended := BeginEnd.recorded checked (by rw [recorded])
    rwa [recorded] at ended
  | _ =>
  have ended := BeginEnd.untimed checked (by rw [recorded]; exact nofun)
  rwa [recorded] at ended

end Trusty.Keymaster
