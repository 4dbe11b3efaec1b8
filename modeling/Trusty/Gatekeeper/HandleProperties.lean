import Trusty.Gatekeeper.Handle

/-!
# What handles and tokens prove

Requests with signatures are those of the throttling model with the check of the
password decided. In every run a password is accepted only with a handle that was
issued for it.
-/

namespace Trusty.Gatekeeper

open Interaction List LittleEndian

variable {Sig : Type} {α β : Type}

theorem settle_bind (verdict : Bool) (program : GkM α) (rest : α → GkM β) : settle verdict (program >>= rest) =
      settle verdict program >>= fun value => settle verdict (rest value) := by
  induction program with
  | done value => rfl
  | ask op next ih =>
  cases op with
  | doVerify uid handle password => exact ih verdict
  | _ => exact congrArg (Interaction.ask _) (funext ih)

def Unchecking (program : GkM α) : Prop := ∀ verdict, settle verdict program = program

variable {program : GkM α}

theorem Unchecking.bind {rest : α → GkM β} (first : Unchecking program)
    (further : ∀ value, Unchecking (rest value)) : Unchecking (program >>= rest) := by
  intro verdict
  rw [settle_bind, first verdict]
  exact congrArg (program >>= ·) (funext fun value => further value verdict)

theorem unchecking_done (value : α) : Unchecking (.done value : GkM α) := fun _ => rfl

theorem unchecking_write (purpose : Purpose) (uid : UInt32) (record : FailureRecord)
    (secure : Bool) : Unchecking (writeFailureRecord purpose uid record secure) := by
  intro verdict
  cases secure with
  | true | false => rfl

theorem unchecking_get (uid : UInt32) (userId : UInt64) (secure : Bool) :
    Unchecking (getFailureRecord uid userId secure) := by
  cases secure with
  | false => exact fun _ => rfl
  | true =>
  refine Unchecking.bind (fun _ => rfl) fun found => ?_
  cases found with
  | none | some owner => exact unchecking_done _

theorem unchecking_throttleRequest (uid : UInt32) (timestamp : UInt64) (record : FailureRecord)
    (secure : Bool) : Unchecking (throttleRequest uid timestamp record secure) := by
  unfold throttleRequest
  dsimp only
  split_ifs
  · exact unchecking_done _
  · exact (unchecking_write _ _ _ _).bind fun _ => unchecking_done _
  · exact unchecking_done _
  · exact unchecking_done _

theorem unchecking_throttled (uid : UInt32) (handle : PasswordHandle) (timestamp : UInt64) :
    Unchecking (throttled uid handle timestamp) := by
  unfold throttled
  split
  · refine (unchecking_get _ _ _).bind fun found => ?_
    cases found with
    | none => exact unchecking_done _
    | some record =>
    refine (unchecking_throttleRequest _ _ _ _).bind fun refused => ?_
    cases refused with
    | some outcome => exact unchecking_done _
    | none =>
    refine (unchecking_write _ _ _ _).bind fun written => ?_
    cases written with
    | true | false => exact unchecking_done _
  · exact unchecking_done _

variable {device : Device Sig} {verdict : Bool}

theorem settle_createHandle (keyed : device.keyed = true) (uid : UInt32) (userId : UInt64)
    (password : List UInt8) :
    settle verdict (createHandle uid userId) = outcomeOf <$> issueHandle device uid userId password := by
  unfold createHandle issueHandle createPasswordHandle
  simp only [keyed, if_true]
  refine congrArg (Interaction.ask (GkOp.writeSecure .clear uid (noFailures userId))) (funext fun written => ?_)
  cases written with
  | true | false => rfl

variable [DecidableEq Sig]

theorem enroll_settled (keyed : device.keyed = true) (request : SignedEnroll Sig) :
    settle (request.passwordHandle.all (checkPassword device · request.enrolledPassword)) (enroll request.plain) =
      outcomeOf <$> enrollSigned device request := by
  obtain ⟨uid, handle, enrolled, provided⟩ := request
  unfold enroll enrollSigned
  dsimp only [SignedEnroll.plain]
  cases provided with
  | none => rfl
  | some password =>
  cases handle with
  | none =>
    exact congrArg (Interaction.ask GkOp.drawUserId) (funext fun userId => settle_createHandle keyed uid userId password)
  | some handle =>
  dsimp only [Option.map, Option.all]
  generalize checkPassword device handle _ = verdict
  split
  · rfl
  refine congrArg (Interaction.ask GkOp.getTime) (funext fun timestamp => ?_)
  change settle verdict (throttled uid handle.toPasswordHandle timestamp >>= _) = _ <$> (throttled _ _ _ >>= _)
  rw [settle_bind, unchecking_throttled, map_bind]
  refine congrArg (throttled _ _ _ >>= ·) (funext fun waited => ?_)
  cases waited with
  | error refused => rfl
  | ok timeout =>
  cases verdict with
  | false => rfl
  | true => exact settle_createHandle keyed uid handle.userId password

theorem verify_settled (device : Device Sig) (request : SignedVerify Sig) :
    settle (request.passwordHandle.all (checkPassword device · request.providedPassword)) (verify request.plain) =
      (fun answer => (outcomeOf answer.1, answer.2)) <$> verifySigned device request := by
  obtain ⟨uid, challenge, handle, provided⟩ := request
  unfold verify verifySigned
  dsimp only [SignedVerify.plain]
  cases provided with
  | none => rfl
  | some password =>
  cases handle with
  | none => rfl
  | some handle =>
  dsimp only [Option.map, Option.all]
  generalize checkPassword device handle _ = verdict
  split
  · rfl
  refine congrArg (Interaction.ask GkOp.getTime) (funext fun timestamp => ?_)
  change settle verdict (throttled uid handle.toPasswordHandle timestamp >>= _) = _ <$> (throttled _ _ _ >>= _)
  rw [settle_bind, unchecking_throttled, map_bind]
  refine congrArg (throttled _ _ _ >>= ·) (funext fun waited => ?_)
  cases waited with
  | error refused => rfl
  | ok timeout =>
  cases verdict with
  | false => rfl
  | true =>
  cases throttle : handle.throttle with
  | false => rfl
  | true =>
  cases secure : handle.throttleSecure with
  | false | true => rfl

/-- Everything is answered freely, but no random number is drawn twice. -/
def drawing : Environment GkOp GkOp.Reply (List UInt64) where
  move _ _ := False
  answer
    | drawn, .drawUserId, value, after => value ∉ drawn ∧ after = value :: drawn
    | drawn, .drawSalt, value, after => value ∉ drawn ∧ after = value :: drawn
    | drawn, _, _, after => after = drawn

theorem drawing_still (drawn later : List UInt64) : ¬drawing.move drawn later := id

variable {drawn : List UInt64}

theorem drawing_grows {after : List UInt64} {op : GkOp} {reply : op.Reply}
    (answered : drawing.answer drawn op reply after) : drawn ⊆ after := by
  cases op with
  | drawUserId | drawSalt =>
    rw [answered.2]
    exact subset_cons_self _ _
  | _ =>
  have same : after = drawn := answered
  rw [same]
  exact List.Subset.refl _

variable {value : α}

theorem runs_grows {after : List UInt64} (run : Runs drawing program drawn value after) : drawn ⊆ after := by
  induction run with
  | done reached => rw [eq_of_still drawing_still reached]; exact List.Subset.refl _
  | ask reached answered _ ih =>
  rw [eq_of_still drawing_still reached] at answered
  exact fun number member => ih (drawing_grows answered member)

theorem runs_done {result : α} {after : List UInt64} (run : Runs drawing (.done value : GkM α) drawn result after) :
    value = result ∧ after = drawn := by
  cases run with
  | done reached => exact ⟨rfl, eq_of_still drawing_still reached⟩

theorem runs_bind {rest : α → GkM β} {result : β} {after : List UInt64}
    (run : Runs drawing (program >>= rest) drawn result after) :
    ∃ value middle, Runs drawing program drawn value middle ∧ Runs drawing (rest value) middle result after := by
  induction program generalizing drawn with
  | done value => exact ⟨value, drawn, .done .refl, run⟩
  | ask op next ih =>
  cases run with
  | ask reached answered further =>
  obtain ⟨value, middle, first, second⟩ := ih _ further
  exact ⟨value, middle, .ask reached answered first, second⟩

variable {handle : SignedHandle Sig}

omit [DecidableEq Sig] in
theorem issueHandle_signed {uid : UInt32} {userId : UInt64} {password : List UInt8} {after : List UInt64}
    (run : Runs drawing (issueHandle device uid userId password) drawn (.ok handle) after) :
    handle.userId = userId ∧ handle.signature = device.sign (handle.toSign handle.salt password) := by
  unfold issueHandle createPasswordHandle at run
  obtain ⟨flags, _, _, run⟩ := runs_bind run
  obtain ⟨salt, _, _, run⟩ := runs_bind run
  split at run
  · cases (runs_done run).1
  next created made =>
  cases (runs_done run).1
  split at made
  · cases made
    exact ⟨rfl, rfl⟩
  · cases made

variable {password : Option (List UInt8)}

theorem checkPassword_signed {expected : SignedHandle Sig} (accepted : checkPassword device expected password = true) :
    ∃ given, password = some given ∧ expected.signature = device.sign (expected.toSign expected.salt given) := by
  unfold checkPassword createPasswordHandle at accepted
  cases password with
  | none => cases accepted
  | some given =>
  dsimp only at accepted
  split at accepted
  · cases accepted
  next generated made =>
  split at made
  · cases made
    exact ⟨given, rfl, (of_decide_eq_true accepted).symm⟩
  · cases made

theorem enrollSigned_issued {request : SignedEnroll Sig} {after : List UInt64}
    (run : Runs drawing (enrollSigned device request) drawn (.ok handle) after) :
    ∃ password, request.providedPassword = some password ∧
      handle.signature = device.sign (handle.toSign handle.salt password) ∧
      ((request.passwordHandle = none ∧ handle.userId ∉ drawn ∧ handle.userId ∈ after) ∨
        ∃ expected, request.passwordHandle = some expected ∧ handle.userId = expected.userId ∧
          checkPassword device expected request.enrolledPassword = true) := by
  unfold enrollSigned at run
  cases provided : request.providedPassword with
  | none =>
    rw [provided] at run
    cases (runs_done run).1
  | some password =>
  rw [provided] at run
  refine ⟨password, rfl, ?_⟩
  cases given : request.passwordHandle with
  | none =>
    rw [given] at run
    obtain ⟨userId, middle, drew, run⟩ := runs_bind run
    obtain ⟨same, signed⟩ := issueHandle_signed run
    have grown := runs_grows run
    cases drew with
    | ask reached answered ended =>
    rw [eq_of_still drawing_still reached] at answered
    obtain ⟨value, left⟩ := runs_done ended
    cases value
    rw [left, answered.2] at grown
    refine ⟨signed, .inl ⟨rfl, ?_, ?_⟩⟩
    · rw [same]
      exact answered.1
    · rw [same]
      exact grown (mem_cons_self ..)
  | some expected =>
  rw [given] at run
  dsimp only at run
  split at run
  · cases (runs_done run).1
  obtain ⟨timestamp, _, _, run⟩ := runs_bind run
  obtain ⟨waited, _, _, run⟩ := runs_bind run
  cases waited with
  | error refused => cases (runs_done run).1
  | ok timeout =>
  dsimp only at run
  split at run
  next accepted =>
    obtain ⟨same, signed⟩ := issueHandle_signed run
    exact ⟨signed, .inr ⟨expected, rfl, same, accepted⟩⟩
  · cases (runs_done run).1

theorem verifySigned_checked {request : SignedVerify Sig} {token : Keymaster.AuthToken} {reenroll : Bool}
    {after : List UInt64} (run : Runs drawing (verifySigned device request) drawn (.ok token, reenroll) after) :
    ∃ handle password timestamp, request.passwordHandle = some handle ∧ request.providedPassword = some password ∧
      token = mintAuthToken device.tokenSign timestamp handle.userId 0 request.challenge ∧
      checkPassword device handle (some password) = true := by
  unfold verifySigned at run
  cases provided : request.providedPassword with
  | none =>
    rw [provided] at run
    cases (runs_done run).1
  | some password =>
  cases given : request.passwordHandle with
  | none =>
    rw [provided, given] at run
    cases (runs_done run).1
  | some handle =>
  rw [provided, given] at run
  dsimp only at run
  split at run
  · cases (runs_done run).1
  obtain ⟨timestamp, _, _, run⟩ := runs_bind run
  obtain ⟨waited, _, _, run⟩ := runs_bind run
  cases waited with
  | error refused => cases (runs_done run).1
  | ok timeout =>
  dsimp only at run
  split at run
  next accepted =>
    refine ⟨handle, password, timestamp, rfl, rfl, ?_, accepted⟩
    split at run
    · obtain ⟨_, _, _, run⟩ := runs_bind run
      cases (runs_done run).1
      rfl
    · cases (runs_done run).1
      rfl
  · cases (runs_done run).1

structure Issued (Sig : Type) where
  handle : SignedHandle Sig
  password : List UInt8

structure Ledger (Sig : Type) where
  drawn : List UInt64
  issued : List (Issued Sig)

/-- Only a signature that is known can be presented. -/
def Unforged (sign : List UInt8 → Sig) (issued : List (Issued Sig))
    (handle : Option (SignedHandle Sig)) : Prop :=
  ∀ presented message, handle = some presented → presented.signature = sign message →
    ∃ entry ∈ issued, entry.handle.signature = presented.signature

/-- A request with any handle that is not forged, in any state of the process. -/
inductive Serves (sign : List UInt8 → Sig) : Ledger Sig → Ledger Sig → Prop where
  | enrolled {drawn after issued handle password} {device : Device Sig}
      {request : SignedEnroll Sig} (signs : device.sign = sign)
      (unforged : Unforged sign issued request.passwordHandle)
      (given : request.providedPassword = some password)
      (ran : Runs drawing (enrollSigned device request) drawn (.ok handle) after) :
      Serves sign ⟨drawn, issued⟩ ⟨after, ⟨handle, password⟩ :: issued⟩
  | notEnrolled {drawn after issued refused} {device : Device Sig} {request : SignedEnroll Sig}
      (signs : device.sign = sign) (unforged : Unforged sign issued request.passwordHandle)
      (ran : Runs drawing (enrollSigned device request) drawn (.error refused) after) :
      Serves sign ⟨drawn, issued⟩ ⟨after, issued⟩
  | verified {drawn after issued answer} {device : Device Sig} {request : SignedVerify Sig}
      (signs : device.sign = sign) (unforged : Unforged sign issued request.passwordHandle)
      (ran : Runs drawing (verifySigned device request) drawn answer after) :
      Serves sign ⟨drawn, issued⟩ ⟨after, issued⟩

/-- A handle shows the password of an issued one, and agrees with it in all that is
signed. -/
def Issued.Shown (entry : Issued Sig) (handle : SignedHandle Sig) (password : List UInt8) : Prop :=
  entry.handle.toPasswordHandle = handle.toPasswordHandle ∧ entry.handle.salt = handle.salt ∧
    entry.handle.signature = handle.signature ∧ entry.password = password

def Ledger.Sound (sign : List UInt8 → Sig) (ledger : Ledger Sig) : Prop :=
  ∀ entry ∈ ledger.issued,
    entry.handle.signature = sign (entry.handle.toSign entry.handle.salt entry.password) ∧
      entry.handle.userId ∈ ledger.drawn

theorem encode_inj {count first second : Nat} (small : first < 256 ^ count) (small' : second < 256 ^ count)
    (same : LittleEndian.encode count first = LittleEndian.encode count second) : first = second := by
  rw [← decode_encode small, same, decode_encode small']

theorem encode64_append_inj {first second : UInt64} {rest rest' : List UInt8}
    (same : LittleEndian.encode 8 first.toNat ++ rest = LittleEndian.encode 8 second.toNat ++ rest') :
    first = second ∧ rest = rest' := by
  obtain ⟨front, back⟩ := append_inj same (by
    rw [length_encode, length_encode])
  exact ⟨UInt64.toNat_inj.mp (encode_inj first.toNat_lt second.toNat_lt front), back⟩

theorem toSign_inj {first second : PasswordHandle} {salt salt' : UInt64} {password password' : List UInt8}
    (same : first.toSign salt password = second.toSign salt' password') :
    first = second ∧ salt = salt' ∧ password = password' := by
  obtain ⟨salts, same⟩ := encode64_append_inj same
  obtain ⟨versions, same⟩ := cons.inj same
  obtain ⟨users, same⟩ := encode64_append_inj same
  obtain ⟨flags, passwords⟩ := encode64_append_inj same
  refine ⟨?_, salts, passwords⟩
  cases first
  cases second
  cases versions
  cases users
  cases flags
  rfl

variable {sign : List UInt8 → Sig} {ledger after : Ledger Sig}

theorem Ledger.Sound.shown (sound : ledger.Sound sign) (injective : Function.Injective sign)
    (signs : device.sign = sign) (unforged : Unforged sign ledger.issued (some handle))
    (accepted : checkPassword device handle password = true) :
    ∃ given, password = some given ∧ ∃ entry ∈ ledger.issued, entry.Shown handle given := by
  obtain ⟨given, present, signed⟩ := checkPassword_signed accepted
  rw [signs] at signed
  obtain ⟨entry, member, same⟩ := unforged handle _ rfl signed
  have message : sign (entry.handle.toSign entry.handle.salt entry.password) =
      sign (handle.toSign handle.salt given) := by
    rw [← (sound entry member).1, same, signed]
  obtain ⟨fields, salts, passwords⟩ := toSign_inj (injective message)
  exact ⟨given, present, entry, member, fields, salts, same, passwords⟩

omit [DecidableEq Sig] in
theorem Ledger.Sound.later {after : List UInt64} {issued : List (Issued Sig)}
    (sound : Ledger.Sound sign ⟨drawn, issued⟩) (grown : drawn ⊆ after) :
    Ledger.Sound sign ⟨after, issued⟩ :=
  fun entry member => ⟨(sound entry member).1, grown (sound entry member).2⟩

theorem Ledger.Sound.serves (sound : ledger.Sound sign) (injective : Function.Injective sign)
    (served : Serves sign ledger after) : after.Sound sign := by
  cases served with
  | notEnrolled _ _ ran | verified _ _ ran => exact sound.later (runs_grows ran)
  | enrolled signs unforged given ran =>
  have kept := sound.later (runs_grows ran)
  obtain ⟨password, provided, signed, origin⟩ := enrollSigned_issued ran
  cases given.symm.trans provided
  rw [signs] at signed
  refine forall_mem_cons.mpr ⟨⟨signed, ?_⟩, kept⟩
  rcases origin with fresh | old
  · exact fresh.2.2
  obtain ⟨expected, presented, same, accepted⟩ := old
  rw [presented] at unforged
  obtain ⟨_, _, entry, member, fields, _⟩ := sound.shown injective signs unforged accepted
  rw [same, ← fields]
  exact (kept entry member).2

theorem sound_of_served (injective : Function.Injective sign)
    (served : Relation.ReflTransGen (Serves sign) ⟨[], []⟩ ledger) : ledger.Sound sign := by
  induction served with
  | refl => exact nofun
  | tail _ step ih => exact ih.serves injective step

/-- After any requests, a token is given only for an issued handle with its password,
and a user that has a handle gets another one only for that. -/
theorem handles_sound (injective : Function.Injective sign)
    (served : Relation.ReflTransGen (Serves sign) ⟨[], []⟩ ledger) {device : Device Sig} (signs : device.sign = sign) :
    (∀ (request : SignedVerify Sig) (token : Keymaster.AuthToken) (reenroll : Bool)
        (drawn : List UInt64), Unforged sign ledger.issued request.passwordHandle →
        Runs drawing (verifySigned device request) ledger.drawn (.ok token, reenroll) drawn →
        ∃ handle password, request.passwordHandle = some handle ∧ request.providedPassword = some password ∧
          ∃ entry ∈ ledger.issued, entry.Shown handle password ∧ token.userId = entry.handle.userId) ∧
      ∀ (request : SignedEnroll Sig) (handle : SignedHandle Sig) (drawn : List UInt64),
        Unforged sign ledger.issued request.passwordHandle →
        Runs drawing (enrollSigned device request) ledger.drawn (.ok handle) drawn →
        (∃ expected password, request.passwordHandle = some expected ∧ request.enrolledPassword = some password ∧
          ∃ entry ∈ ledger.issued, entry.Shown expected password ∧ handle.userId = entry.handle.userId) ∨
          (request.passwordHandle = none ∧ ∀ entry ∈ ledger.issued, entry.handle.userId ≠ handle.userId) := by
  have sound := sound_of_served injective served
  constructor
  · intro request token reenroll drawn unforged ran
    obtain ⟨handle, password, timestamp, presented, provided, minted, accepted⟩ := verifySigned_checked ran
    rw [presented] at unforged
    obtain ⟨given, same, entry, member, shown⟩ := sound.shown injective signs unforged accepted
    cases same
    refine ⟨handle, password, presented, provided, entry, member, shown, ?_⟩
    rw [minted, shown.1]
    cases device.tokenSign with
    | none | some sign => rfl
  · intro request handle drawn unforged ran
    obtain ⟨_, _, _, origin⟩ := enrollSigned_issued ran
    rcases origin with fresh | old
    · refine .inr ⟨fresh.1, ?_⟩
      intro entry member same
      exact fresh.2.1 (same ▸ (sound entry member).2)
    obtain ⟨expected, presented, same, accepted⟩ := old
    rw [presented] at unforged
    obtain ⟨given, enrolled, entry, member, shown⟩ := sound.shown injective signs unforged accepted
    refine .inl ⟨expected, given, presented, enrolled, entry, member, shown, ?_⟩
    rw [same, shown.1]

/-!
A user enrolls the password `1`, and verifies it with the handle.
-/

def plainDevice : Device (List UInt8) := ⟨id, true, true, none⟩

def firstEnroll : SignedEnroll (List UInt8) := ⟨0, none, none, some [1]⟩

def firstHandle : SignedHandle (List UInt8) where
  version := 2
  userId := 7
  flags := 1
  salt := 8
  signature := PasswordHandle.toSign ⟨2, 7, 1⟩ 8 [1]
  hardwareBacked := true

theorem firstHandle_settled : settle true (enroll ⟨0, some firstHandle.toPasswordHandle, some [1], some [2]⟩) =
      outcomeOf <$> enrollSigned plainDevice ⟨0, some firstHandle, some [1], some [2]⟩ :=
  have keyed : plainDevice.keyed = true := rfl
  enroll_settled keyed ⟨0, some firstHandle, some [1], some [2]⟩

def firstVerify : SignedVerify (List UInt8) := ⟨0, 5, some firstHandle, some [1]⟩

def firstLedger : Ledger (List UInt8) := ⟨[8, 7], [⟨firstHandle, [1]⟩]⟩

theorem runs_ask {op : GkOp} {next : op.Reply → GkM α} {after final : List UInt64} (reply : op.Reply)
    (answered : drawing.answer drawn op reply after) (further : Runs drawing (next reply) after value final) :
    Runs drawing (.ask op next) drawn value final :=
  .ask .refl answered further

theorem firstEnroll_runs : Runs drawing (enrollSigned plainDevice firstEnroll) [] (.ok firstHandle) [8, 7] := by
  refine runs_ask (7 : UInt64) ⟨not_mem_nil, rfl⟩ (runs_ask true rfl ?_)
  exact runs_ask (8 : UInt64) ⟨by decide, rfl⟩ (.done .refl)

theorem firstVerify_runs : Runs drawing (verifySigned plainDevice firstVerify) [8, 7]
    (.ok (mintAuthToken none 0 7 0 5), false) [8, 7] := by
  refine runs_ask (0 : UInt64) rfl (runs_ask (some ⟨7, 0, 0⟩ : Option FailureRecord) rfl ?_)
  exact runs_ask true rfl (runs_ask true rfl (.done .refl))

theorem first_handle_shown : Function.Injective (id : List UInt8 → List UInt8) ∧
      Relation.ReflTransGen (Serves id) ⟨[], []⟩ firstLedger ∧
      Unforged id firstLedger.issued (some firstHandle) ∧
      ∃ entry ∈ firstLedger.issued, entry.Shown firstHandle [1] ∧ entry.handle.userId = 7 := by
  have injective : Function.Injective (id : List UInt8 → List UInt8) := fun _ _ same => same
  have served : Relation.ReflTransGen (Serves id) ⟨[], []⟩ firstLedger :=
    .single (.enrolled rfl (fun _ _ same => absurd same.symm (Option.some_ne_none _)) rfl firstEnroll_runs)
  have unforged : Unforged id firstLedger.issued (some firstHandle) := by
    intro presented message same _
    cases same
    exact ⟨_, mem_singleton.mpr rfl, rfl⟩
  obtain ⟨handle, password, presented, provided, entry, member, shown, _⟩ :=
    (@handles_sound _ _ id firstLedger injective served plainDevice rfl).1 firstVerify _ _ _ unforged firstVerify_runs
  cases presented
  cases provided
  refine ⟨injective, served, unforged, entry, member, shown, ?_⟩
  rw [shown.1]
  rfl

end Trusty.Gatekeeper
