import Trusty.Storage.RpmbTransportProperties

/-!
When a successful `rpmb_write` means that the device has carried out the write. The
result packet names the address but not the call, so the answer depends on what the
transport already holds.
-/

namespace Trusty.Storage.RpmbTransport

open List

open Interaction (Stable Upholds upholds_ask upholds_bind upholds_done)

/-- An `rpmb_write` that is about to return zero has made the device store this
data at this address, with the counter of the call, since it began. -/
def WritePerformed (system : System) : Prop :=
  ∀ buf addr sync start outcome,
    system.running = some ⟨.write buf addr sync, start, .done outcome⟩ → outcome.ret = 0 →
      ⟨outcome.state.writeCounter - 1, addr, buf.val⟩ ∈ system.world.performed.drop start

/-- An earlier request for `addr` that the device can still be made to carry out,
by first giving it other earlier requests. -/
def Executable (world : World) (addr : UInt16) (message : List RpmbBody) : Prop :=
  ∃ counter, message ∈ world.signed ∧
    WriteRequest world.device.capacity counter addr message ∧
    world.device.counter.toNat ≤ counter ∧ counter < maxCounter.toNat ∧
    ∀ earlier, world.device.counter.toNat ≤ earlier → earlier < counter →
      ∃ other elsewhere, other ∈ world.signed ∧
        WriteRequest world.device.capacity earlier elsewhere other

/-- The message that `rpmb_write_data` authenticates. -/
def DeviceWrite.message (write : DeviceWrite) : List RpmbBody :=
  rpmbMessage (dataWriteCmd write.counter write.address write.data)

/-- The transport holds a confirmation for `addr`, or a request for it, other than
that of this call, that the device can still carry out. -/
def Forgeable (system : System) (buf : RpmbBuffer) (addr : UInt16) : Prop :=
  (∃ message ∈ system.world.signed, WriteConfirmed addr message) ∨
    ∃ message, Executable system.world addr message ∧
      (system.state.writeCounter ≠ 0 →
        message ≠ DeviceWrite.message ⟨system.state.writeCounter, addr, buf.val⟩)

variable {addr : UInt16} {write : DeviceWrite}

theorem DeviceWrite.message_request {capacity counter : Nat}
    (request : WriteRequest capacity counter addr write.message) :
    counter = write.counter.toNat ∧ addr = write.address := by
  obtain ⟨first, rest, same, -, -, -, counted, addressed⟩ := request
  have member : first ∈ write.message := same ▸ mem_cons_self
  simp only [DeviceWrite.message, rpmbMessage, dataWriteCmd, map_map, mem_map] at member
  obtain ⟨data, -, rfl⟩ := member
  simp only [Function.comp_apply, rpmbGetU32_rpmbU32, rpmbGetU16_rpmbU16] at counted addressed
  exact ⟨counted.symm, addressed.symm⟩

@[simp] theorem DeviceWrite.message_data (write : DeviceWrite) : write.message.map RpmbBody.data = write.data := by
  simp [DeviceWrite.message, rpmbMessage, dataWriteCmd, Function.comp_def]

/-- Since `before`, nothing was confirmed at `addr`, `own` is the only new
request, and the device has only followed earlier requests. -/
structure Unconfirmed (before : World) (addr : UInt16) (own : List RpmbBody) (world : World) :
    Prop where
  capacity : world.device.capacity = before.device.capacity
  lengthened : before.performed.length ≤ world.performed.length
  requests : ∀ message ∈ world.signed, ∀ capacity counter elsewhere,
    WriteRequest capacity counter elsewhere message → message ∈ before.signed ∨ message = own
  silent : ∀ message ∈ world.signed, ¬WriteConfirmed addr message
  reached : before.device.counter.toNat ≤ world.device.counter.toNat
  followed : ∀ earlier, before.device.counter.toNat ≤ earlier →
    earlier < world.device.counter.toNat → ∃ other elsewhere, other ∈ before.signed ∧
      WriteRequest before.device.capacity earlier elsewhere other

variable {before world : World}

theorem Unconfirmed.refl (own : List RpmbBody) (silent : ∀ message ∈ before.signed, ¬WriteConfirmed addr message) :
    Unconfirmed before addr own before :=
  ⟨rfl, le_rfl, fun _ member _ _ _ _ => .inl member, silent, le_rfl, fun _ low high => by omega⟩

theorem Unconfirmed.own {own : List RpmbBody}
    (kept : Unconfirmed before addr [] world) : Unconfirmed before addr own world := { kept with
  requests := by
    intro message member capacity counter elsewhere request
    rcases kept.requests message member capacity counter elsewhere request with known | rfl
    · exact .inl known
    · obtain ⟨first, rest, same, -⟩ := request
      contradiction }

private theorem counter_lt {counter : UInt32} (unexpired : counter ≠ maxCounter) :
    counter.toNat < maxCounter.toNat := by
  have bound := counter.toNat_lt
  have distinct : counter.toNat ≠ 4294967295 := fun same =>
    unexpired (UInt32.toNat_inj.mp same)
  change counter.toNat < 4294967295
  omega

private theorem counter_succ {counter : UInt32} (unexpired : counter ≠ maxCounter) :
    (counter + 1).toNat = counter.toNat + 1 := by
  have bound : counter.toNat < 4294967295 := counter_lt unexpired
  change (counter.toNat + 1) % 4294967296 = _
  omega

variable {own : List RpmbBody}

/-- A delivery keeps everything unconfirmed unless it makes the device carry out
the request of this call. -/
theorem Unconfirmed.delivered {later : World} (only : ∀ message, Executable before addr message → message = own)
    (kept : Unconfirmed before addr own world) (delivered : Delivered world later) :
    Unconfirmed before addr own later ∨ ∃ elsewhere,
      WriteRequest world.device.capacity world.device.counter.toNat elsewhere own ∧
      later.performed = world.performed ++ [⟨world.device.counter, elsewhere, own.map RpmbBody.data⟩] := by
  cases delivered with
  | quiet signed performed device =>
    refine .inl ⟨device ▸ kept.capacity, performed ▸ kept.lengthened,
      fun message member => ?_, fun message member => ?_, device ▸ kept.reached,
      device ▸ kept.followed⟩
    · intro capacity counter elsewhere request
      rcases signed message member with old | quiet
      · exact kept.requests message old capacity counter elsewhere request
      · exact absurd request (quiet.1 _ _ _)
    · rcases signed message member with old | quiet
      · exact kept.silent message old
      · exact quiet.2 addr
  | written elsewhere message confirmation authentic request unexpired confirmed signed performed
      counter capacity =>
      rcases kept.requests message authentic _ _ _ request with known | rfl
      · by_cases here : elsewhere = addr
        · subst here
          have executable : Executable before elsewhere message :=
            ⟨world.device.counter.toNat, known, kept.capacity ▸ request, kept.reached,
              counter_lt unexpired, kept.followed⟩
          obtain rfl := only message executable
          exact .inr ⟨elsewhere, request, performed⟩
        have next := counter_succ unexpired
        rw [← counter] at next
        refine .inl ⟨capacity.trans kept.capacity, ?_, ?_, ?_, ?_, ?_⟩
        · rw [performed, length_append]
          exact Nat.le_add_right_of_le kept.lengthened
        · intro other member _ _ _ requested
          rw [signed, mem_append, mem_singleton] at member
          rcases member with old | rfl
          · exact kept.requests other old _ _ _ requested
          · exact absurd requested confirmed.not_request
        · intro other member again
          rw [signed, mem_append, mem_singleton] at member
          rcases member with old | rfl
          · exact kept.silent other old again
          · exact here (confirmed.address again)
        · exact le_trans kept.reached (next ▸ Nat.le_succ _)
        · intro earlier low high
          rcases Nat.lt_succ_iff_lt_or_eq.mp (next ▸ high) with before | rfl
          · exact kept.followed earlier low before
          · exact ⟨message, elsewhere, known, kept.capacity ▸ request⟩
      · exact .inr ⟨elsewhere, request, performed⟩

theorem Unconfirmed.congr {later : World} (kept : Unconfirmed before addr own world)
    (device : later.device = world.device) (signed : later.signed = world.signed)
    (performed : later.performed = world.performed) : Unconfirmed before addr own later :=
  ⟨device ▸ kept.capacity, performed ▸ kept.lengthened, signed ▸ kept.requests,
    signed ▸ kept.silent, device ▸ kept.reached, device ▸ kept.followed⟩

theorem Unconfirmed.emit (hmac : Hmac) (packets : List RpmbPacket) (kept : Unconfirmed before addr own world)
    (request : ∀ capacity counter elsewhere,
      WriteRequest capacity counter elsewhere (rpmbMessage packets) → rpmbMessage packets = own)
    (unconfirming : ¬WriteConfirmed addr (rpmbMessage packets)) :
    Unconfirmed before addr own (world.emit hmac packets) := by
  unfold World.emit
  split
  · refine { kept with requests := ?_, silent := ?_ }
    · intro message member capacity counter elsewhere requested
      rcases mem_append.mp member with old | new
      · exact kept.requests message old capacity counter elsewhere requested
      · obtain rfl := mem_singleton.mp new
        exact .inr (request capacity counter elsewhere requested)
    · intro message member
      rcases mem_append.mp member with old | new
      · exact kept.silent message old
      · obtain rfl := mem_singleton.mp new
        exact unconfirming
  · exact kept

theorem not_confirmed_of_request {request : RpmbRequest} {message : List RpmbBody}
    (typed : ∀ body ∈ message, rpmbGetU16 body.reqResp = request.code) : ¬WriteConfirmed addr message := by
  rintro ⟨body, rfl, fits⟩
  exact code_ne ((typed body (mem_singleton_self _)).symm.trans fits.type)

/-- The write was carried out since `before`, or nothing was confirmed yet. -/
structure InCall (before : World) (write : DeviceWrite) (world : World) : Prop where
  key : world.key = before.key
  progress : write ∈ world.performed.drop before.performed.length ∨
    Unconfirmed before write.address write.message world

theorem InCall.stable (hmac : Hmac)
    (only : ∀ message, Executable before write.address message → message = write.message) :
    Stable (transport hmac) (InCall before write) := by
  rintro world later ⟨key, progress⟩ ⟨packets, count, delivered⟩
  have frame := deliver_frame delivered
  refine ⟨frame.key.trans key, ?_⟩
  rcases progress with done | kept
  · exact .inl (performed_stable hmac write _ world later done ⟨packets, count, delivered⟩)
  rcases kept.delivered only (deliver_cases delivered) with still | ⟨addr, request, performed⟩
  · exact .inr still
  obtain ⟨counter, rfl⟩ := DeviceWrite.message_request request
  left
  rw [performed, drop_append_of_le_length kept.lengthened, DeviceWrite.message_data, UInt32.toNat_inj.mp counter]
  exact mem_append_right _ (mem_singleton_self _)

theorem InCall.checked (held : InCall before write world) : InCall before write world.checkReceived :=
  ⟨by simpa using held.key, held.progress.imp (by simp) fun kept => kept.congr (by simp) (by simp) (by simp)⟩

theorem InCall.congr {before world later : World} (held : InCall before write world) (key : later.key = world.key)
    (device : later.device = world.device) (signed : later.signed = world.signed)
    (performed : later.performed = world.performed) : InCall before write later :=
  ⟨key.trans held.key, held.progress.imp (fun done => performed ▸ done) fun kept => kept.congr device signed performed⟩

theorem message_requests (write : DeviceWrite) :
    ∀ body ∈ write.message, rpmbGetU16 body.reqResp = RpmbRequest.dataWrite.code := by
  intro body member
  simp only [DeviceWrite.message, rpmbMessage, dataWriteCmd, map_map, mem_map] at member
  obtain ⟨data, -, rfl⟩ := member
  exact rpmbGetU16_rpmbU16 _

variable {hmac : Hmac}

theorem Unconfirmed.emit_quiet (hmac : Hmac) {packet : RpmbPacket} (quiet : Quiet [packet.body])
    (kept : Unconfirmed before addr own world) : Unconfirmed before addr own (world.emit hmac [packet]) :=
  kept.emit hmac [packet] (fun _ _ _ requested => absurd requested (quiet.1 _ _ _)) (quiet.2 addr)

theorem InCall.transmitted {mac : RpmbKey} {sent : Option Request} (held : InCall before write world) :
    InCall before write { (world.emit hmac (setLastMac mac
        (dataWriteCmd write.counter write.address write.data))).emit hmac [resultReadCmd] with
      sent } := by
  refine ⟨by simpa using held.key, held.progress.imp (by simp) fun kept => ?_⟩
  have message : rpmbMessage (setLastMac mac (dataWriteCmd write.counter write.address write.data)) = write.message :=
    rpmbMessage_setLastMac ..
  have requested := kept.emit hmac (setLastMac mac
    (dataWriteCmd write.counter write.address write.data)) (fun _ _ _ _ => message)
    (message ▸ not_confirmed_of_request (message_requests write))
  have quiet : Quiet [resultReadCmd.body] := quiet_of_request .resultRead (by decide) (rpmbGetU16_rpmbU16 _)
  exact (requested.emit_quiet hmac quiet).congr rfl rfl rfl

def WriteEnds (before : World) (buf : RpmbBuffer) (addr : UInt16) (result : Int × RpmbState)
    (world : World) : Prop :=
  world.key = before.key ∧ result.2.key = before.key ∧
    (result.1 = 0 →
      ⟨result.2.writeCounter - 1, addr, buf.val⟩ ∈ world.performed.drop before.performed.length)

theorem writeData_upholds {state : RpmbState} {buf : RpmbBuffer} (sync : Bool) (key : state.key = before.key)
    (only : ∀ message, Executable before addr message →
      message = DeviceWrite.message ⟨state.writeCounter, addr, buf.val⟩)
    (held : InCall before ⟨state.writeCounter, addr, buf.val⟩ world) :
    Upholds (transport hmac) (fun _ _ => True) (WriteEnds before buf addr)
      (rpmbWriteData state buf addr sync) world := by
  have stable : Stable (transport hmac) (InCall before ⟨state.writeCounter, addr, buf.val⟩) := InCall.stable hmac only
  have failed : ∀ {ret : Int} {left : RpmbState} {later : World}, ret < 0 → left.key = state.key →
      InCall before ⟨state.writeCounter, addr, buf.val⟩ later →
      Upholds (transport hmac) (fun _ _ => True) (WriteEnds before buf addr) (.done (ret, left)) later := by
    intro ret left later negative same held
    refine upholds_done stable held fun final held => ?_
    exact ⟨held.key, same.trans key, fun zero => absurd zero (Int.ne_of_lt negative)⟩
  refine upholds_ask stable held (fun _ _ => trivial) fun _ _ _ held signing => ?_
  rcases answer_mac signing with ⟨rfl, rfl⟩ | ⟨rfl, rfl⟩
  · exact failed (by decide) rfl held
  refine upholds_ask stable held.checked (fun _ _ => trivial) fun _ _ _ held sending => ?_
  obtain rfl := answer_transmit sending
  refine upholds_ask stable held.transmitted (fun _ _ => trivial) fun asked _ _ held receiving => ?_
  rcases answer_receive receiving with ⟨ret, rfl, rfl⟩ | ⟨res, rfl, unforged, rfl⟩
  · exact failed ret.property rfl held
  have held : InCall before ⟨state.writeCounter, addr, buf.val⟩
    { asked with received := some res.toList } := held.congr rfl rfl rfl rfl
  refine upholds_ask (stable.and (unforged_stable hmac res.toList)) ⟨held, unforged⟩
    (fun _ _ => trivial) fun _ _ _ held checking => ?_
  obtain ⟨held, unforged⟩ := held
  rcases answer_mac checking with ⟨rfl, rfl⟩ | ⟨rfl, rfl⟩
  · exact failed (by decide) rfl held
  simp only [Interaction.bind]
  split
  · rename_i negative
    split
    · exact failed negative rfl held.checked
    · exact failed negative rfl held.checked
  rename_i accepted
  have keys : state.key = _ := key.trans held.key.symm
  rw [keys] at accepted
  obtain ⟨authentic, fits⟩ := accepted_signed unforged accepted
  have done := held.progress.resolve_right fun kept =>
    kept.silent _ authentic ⟨_, rfl, fits⟩
  refine upholds_done (stable.and (performed_stable hmac ⟨state.writeCounter, addr, buf.val⟩ before.performed.length))
    ⟨held.checked, by simpa using done⟩ fun final held => ?_
  exact ⟨held.1.key, key, fun _ => by simpa using held.2⟩

structure Waiting (before : World) (addr : UInt16) (world : World) : Prop where
  key : world.key = before.key
  unconfirmed : Unconfirmed before addr [] world

theorem Waiting.stable (hmac : Hmac) (only : ∀ message, ¬Executable before addr message) :
    Stable (transport hmac) (Waiting before addr) := by
  rintro world later ⟨key, kept⟩ ⟨packets, count, delivered⟩
  refine ⟨(deliver_frame delivered).key.trans key, ?_⟩
  rcases kept.delivered (fun message executable => absurd executable (only message))
    (deliver_cases delivered) with still | ⟨elsewhere, ⟨first, rest, empty, -⟩, -⟩
  · exact still
  · contradiction

theorem Waiting.inCall (counter : UInt32) (buf : RpmbBuffer) (waiting : Waiting before addr world) :
    InCall before ⟨counter, addr, buf.val⟩ world :=
  ⟨waiting.key, .inr waiting.unconfirmed.own⟩

theorem readCounter_upholds (state : RpmbState) (only : ∀ message, ¬Executable before addr message)
    (waiting : Waiting before addr world) :
    Upholds (transport hmac) (fun _ _ => True)
      (fun result later => result.2.key = state.key ∧ Waiting before addr later)
      (rpmbReadCounter state) world := by
  have stable := Waiting.stable hmac only
  have ends : ∀ {ret : Int} {left : RpmbState} {later : World}, left.key = state.key → Waiting before addr later →
      Upholds (transport hmac) (fun _ _ => True) (fun (result : Int × RpmbState) later => result.2.key = state.key ∧
          Waiting before addr later) (.done (ret, left)) later := fun same waiting =>
    upholds_done stable waiting fun _ waiting => ⟨same, waiting⟩
  refine upholds_ask stable waiting (fun _ _ => trivial) fun _ nonce _ waiting choosing => ?_
  obtain rfl := answer_nonce choosing
  refine upholds_ask stable waiting (fun _ _ => trivial) fun _ _ _ waiting sending => ?_
  obtain rfl := answer_transmit sending
  have quiet : Quiet [(getCounterCmd nonce).body] := quiet_of_request .getCounter (by decide) (rpmbGetU16_rpmbU16 _)
  refine upholds_ask stable ⟨by simpa using waiting.key, (waiting.unconfirmed.emit_quiet hmac quiet).congr rfl rfl rfl⟩
    (fun _ _ => trivial) fun asked _ _ waiting receiving => ?_
  rcases answer_receive receiving with ⟨ret, rfl, rfl⟩ | ⟨res, rfl, -, rfl⟩
  · exact ends rfl waiting
  refine upholds_ask stable ⟨waiting.key, waiting.unconfirmed.congr rfl rfl rfl⟩ (fun _ _ => trivial)
    fun _ _ _ waiting checking => ?_
  rcases answer_mac checking with ⟨rfl, rfl⟩ | ⟨rfl, rfl⟩
  · exact ends rfl waiting
  · exact ends rfl ⟨by simpa using waiting.key, waiting.unconfirmed.congr (by simp) (by simp) (by simp)⟩

variable {system : System}

theorem write_upholds {buf : RpmbBuffer} (sync : Bool) (keys : system.state.key = system.world.key)
    (safe : ¬Forgeable system buf addr) :
    Upholds (transport hmac) (fun _ _ => True) (WriteEnds system.world buf addr)
      (rpmbWrite system.state buf addr sync) system.world := by
  have silent : ∀ message ∈ system.world.signed, ¬WriteConfirmed addr message :=
    fun message member confirmed => safe (.inl ⟨message, member, confirmed⟩)
  rw [rpmbWrite]
  split
  · rename_i zero
    have only : ∀ message, ¬Executable system.world addr message :=
      fun message executable => safe (.inr ⟨message, executable, fun nonzero => absurd zero nonzero⟩)
    refine upholds_bind ((readCounter_upholds system.state only
      ⟨rfl, .refl [] silent⟩).mono fun result later ends => ?_)
    obtain ⟨key, waiting⟩ := ends
    dsimp only
    split
    · rename_i negative
      refine upholds_done (Waiting.stable hmac only) waiting fun final waiting => ?_
      exact ⟨waiting.key, key.trans keys, fun success => absurd success (Int.ne_of_lt negative)⟩
    · exact writeData_upholds sync (key.trans keys)
        (fun message executable => absurd executable (only message)) (waiting.inCall _ buf)
  · rename_i nonzero
    refine writeData_upholds sync keys (fun message executable => ?_) ⟨rfl, .inr (.refl _ silent)⟩
    by_contra other
    exact safe (.inr ⟨message, executable, fun _ => other⟩)

theorem key_stable (hmac : Hmac) (state : RpmbState) : Stable (transport hmac) fun world => state.key = world.key := by
  rintro world later keys ⟨packets, count, delivered⟩
  exact keys.trans (deliver_frame delivered).key.symm

theorem read_upholds (state : RpmbState) (addr count : UInt16) (keys : state.key = world.key) :
    Upholds (transport hmac) (fun _ _ => True)
      (fun _ later => state.key = later.key) (rpmbRead state addr count) world := by
  have stable := key_stable hmac state
  have ends : ∀ {result : Int × Option (List RpmbData)} {later : World},
      state.key = later.key → Upholds (transport hmac) (fun _ _ => True)
        (fun (_ : Int × Option (List RpmbData)) later => state.key = later.key)
        (.done result) later := fun keys =>
    upholds_done stable keys fun _ keys => keys
  refine upholds_ask stable keys (fun _ _ => trivial) fun _ _ _ keys choosing => ?_
  obtain rfl := answer_nonce choosing
  refine upholds_ask stable keys (fun _ _ => trivial) fun _ _ _ keys sending => ?_
  obtain rfl := answer_transmit sending
  refine upholds_ask stable (by simpa using keys) (fun _ _ => trivial) fun _ _ _ keys receiving => ?_
  rcases answer_receive receiving with ⟨ret, rfl, rfl⟩ | ⟨res, rfl, -, rfl⟩
  · exact ends keys
  refine upholds_ask stable keys (fun _ _ => trivial) fun _ _ _ keys checking => ?_
  rcases answer_mac checking with ⟨rfl, rfl⟩ | ⟨rfl, rfl⟩
  · exact ends keys
  simp only [Interaction.bind]
  split
  · exact ends (by simpa using keys)
  · exact ends (by simpa using keys)

def writeContract (hmac : Hmac) : Contract hmac where
  env := transport hmac
  guard _ _ := True
  idle state world := state.key = world.key
  ends call start outcome world :=
    outcome.state.key = world.key ∧
      ∀ buf addr sync, call = .write buf addr sync → outcome.ret = 0 →
        ⟨outcome.state.writeCounter - 1, addr, buf.val⟩ ∈ world.performed.drop start
  moves {world later _ _} delivered := show (transport hmac).move world later from ⟨_, _, delivered⟩
  idle_boot _ := rfl
  idle_move keys moved := key_stable hmac _ _ _ keys moved
  idle_ends ends := ends.1

theorem begin_upholds (call : Call) (keys : system.state.key = system.world.key)
    (unforgeable : ∀ buf addr sync, call = .write buf addr sync → ¬Forgeable system buf addr) :
    Upholds (writeContract hmac).env (writeContract hmac).guard
      ((writeContract hmac).ends call system.world.performed.length)
      (call.program system.state) (system.begin call).world := by
  cases call with
  | read addr count =>
    have keys : system.state.key = (system.begin (.read addr count)).world.key := keys
    exact (read_upholds system.state addr count keys).map fun _ _ same => ⟨same, by simp⟩
  | write buf addr sync =>
  let begun : System := { system with world := { system.world with sent := none, received := none } }
  have keys : begun.state.key = begun.world.key := keys
  have unforgeable : ¬Forgeable begun buf addr := unforgeable buf addr sync rfl
  refine (write_upholds sync keys unforgeable).map fun result later ends => ?_
  refine ⟨ends.2.1.trans ends.1.symm, ?_⟩
  rintro _ _ _ ⟨⟩
  exact ends.2.2

/-- In every run in which no write call begins while the transport could answer
it without the device, every successful write was carried out. -/
theorem writePerformed_of_unforgeable (hmac : Hmac) (world : World) (actions : List Action) (system : System)
    (reached : run hmac (.boot world) actions = some system) (unforgeable : ∀ before buf addr sync after middle,
      actions = before ++ .call (.write buf addr sync) :: after →
      run hmac (.boot world) before = some middle → ¬Forgeable middle buf addr) : WritePerformed system := by
  have holds : (writeContract hmac).Holds system := by
    refine run_invariant reached (Contract.holds_boot _ world) ?_
    intro before action after middle next split earlier stepped holds
    refine holds.step stepped (fun call called keys => ?_) fun _ _ answered => answered
    refine begin_upholds call keys fun buf addr sync written => ?_
    subst written called
    exact unforgeable before buf addr sync after middle split earlier
  intro buf addr sync start outcome running success
  exact (holds.running _ running).result.2 buf addr sync rfl success

def System.succeeds (system : System) (call : Call) (start : Nat) : Bool :=
  match system.running with
  | some ⟨current, began, .done outcome⟩ => current = call ∧ began = start ∧ outcome.ret = 0
  | _ => false

theorem System.succeeds_running {call : Call} {start : Nat} (succeeds : system.succeeds call start = true) :
    ∃ outcome, system.running = some ⟨call, start, .done outcome⟩ ∧ outcome.ret = 0 := by
  unfold System.succeeds at succeeds
  split at succeeds
  · rename_i current began outcome running
    obtain ⟨rfl, rfl, success⟩ := of_decide_eq_true succeeds
    exact ⟨outcome, running, success⟩
  · contradiction

theorem honestWrite_performed : ∃ system, run sampleHmac (.boot sampleWorld) honestWrite = some system ∧
      system.succeeds (.write ⟨[1], by simp⟩ 0 true) 0 = true ∧ WritePerformed system := by
  have succeeds : (run sampleHmac (.boot sampleWorld) honestWrite).any
      (System.succeeds · (.write ⟨[1], by simp⟩ 0 true) 0) = true := by decide +kernel
  obtain ⟨system, reached, ends⟩ := (Option.any_eq_true _ _).mp succeeds
  refine ⟨system, reached, ends, writePerformed_of_unforgeable _ _ _ _ reached ?_⟩
  intro before buf addr sync after middle split earlier
  cases before with
  | nil =>
    cases earlier
    rintro (⟨message, member, -⟩ | ⟨message, ⟨counter, member, -⟩, -⟩) <;> cases member
  | cons first front =>
  have member : .call (.write buf addr sync) ∈ honestWrite.tail :=
    (congrArg List.tail split) ▸ mem_append_right _ mem_cons_self
  simp [honestWrite] at member

def replayedResult : List Action :=
  honestWrite ++ [.finish, .call (.write ⟨[2], by simp⟩ 0 true), .mac true, .transmit,
    .receive (.ok (sealed (writeResultMessage 1 ⟨0, 0⟩ 0))), .mac true]

theorem replayed_result_accepted : ¬∀ hmac world actions system,
    run hmac (.boot world) actions = some system → WritePerformed system := by
  intro always
  have accepted : (run sampleHmac (.boot sampleWorld) replayedResult).any (fun system =>
      system.succeeds (.write ⟨[2], by simp⟩ 0 true) 1 && system.world.performed.length = 1) = true := by
    decide +kernel
  obtain ⟨system, reached, ends⟩ := (Option.any_eq_true _ _).mp accepted
  simp only [Bool.and_eq_true, decide_eq_true_eq] at ends
  obtain ⟨outcome, running, success⟩ := System.succeeds_running ends.1
  have performed := always _ _ _ system reached _ _ _ _ outcome running success
  rw [drop_eq_nil_of_le (le_of_eq ends.2)] at performed
  exact not_mem_nil performed

end Trusty.Storage.RpmbTransport
