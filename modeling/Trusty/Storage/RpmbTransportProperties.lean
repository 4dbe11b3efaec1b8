import Trusty.Storage.RpmbTransport

/-! What one move of the transport can do, and the rules for whole runs. -/

namespace Trusty.Storage.RpmbTransport

def transport (hmac : Hmac) : Interaction.Environment RpmbOp RpmbOp.Reply World where
  move world later := ∃ packets count, world.deliver hmac packets count = some later
  answer world op reply later := ∃ action, world.answer hmac op action = some (reply, later)

/-- A data write request for `addr` with the counter `counter`, which a device of
this capacity does not refuse for its form. -/
def WriteRequest (capacity counter : Nat) (addr : UInt16) (message : List RpmbBody) : Prop :=
  ∃ first rest, message = first :: rest ∧
    rpmbGetU16 first.reqResp = RpmbRequest.dataWrite.code ∧
    (rpmbGetU16 first.blockCount).toNat = message.length ∧
    addr.toNat + message.length ≤ capacity ∧
    (rpmbGetU32 first.writeCounter).toNat = counter ∧
    rpmbGetU16 first.address = addr

/-- The message of a packet that reports a successful data write at `addr`. -/
def WriteConfirmed (addr : UInt16) (message : List RpmbBody) : Prop :=
  ∃ body, message = [body] ∧ ResponseFits .dataWrite none (some addr) body

def Quiet (message : List RpmbBody) : Prop :=
  (∀ capacity counter addr, ¬WriteRequest capacity counter addr message) ∧
    ∀ addr, ¬WriteConfirmed addr message

theorem code_ne {request : RpmbRequest} {response : RpmbResponse} : request.code ≠ response.code := by
  cases request <;> cases response <;> decide

theorem quiet_of_response (response : RpmbResponse) {body : RpmbBody} {rest : List RpmbBody}
    (typed : rpmbGetU16 body.reqResp = response.code)
    (failed : response = .dataWrite → rpmbGetU16 body.result ≠ RpmbResult.ok.code) : Quiet (body :: rest) := by
  constructor
  · rintro capacity counter addr ⟨first, others, same, requested, -⟩
    obtain ⟨rfl, rfl⟩ := List.cons.inj same
    exact code_ne (requested.symm.trans typed)
  rintro addr ⟨confirmed, same, fits⟩
  obtain ⟨rfl, rfl⟩ := List.cons.inj same
  have written : response = .dataWrite := by
    have codes : response.code = RpmbResponse.dataWrite.code := typed.symm.trans fits.type
    revert codes
    cases response <;> decide
  exact failed written fits.result

theorem quiet_of_request (request : RpmbRequest) (other : request ≠ .dataWrite) {body : RpmbBody}
    (typed : rpmbGetU16 body.reqResp = request.code) : Quiet [body] := by
  constructor
  · rintro capacity counter addr ⟨first, others, same, requested, -⟩
    obtain ⟨rfl, -⟩ := List.cons.inj same
    have codes : request.code = RpmbRequest.dataWrite.code := typed.symm.trans requested
    revert codes other
    cases request <;> decide
  · rintro addr ⟨confirmed, same, fits⟩
    obtain ⟨rfl, -⟩ := List.cons.inj same
    exact code_ne (typed.symm.trans fits.type)

theorem quiet_refusal {counter : UInt32} {address : RpmbU16} {result : UInt16}
    (failed : result ≠ RpmbResult.ok.code) : Quiet (writeResultMessage counter address result) :=
  quiet_of_response .dataWrite (by simp) fun _ => by simpa using failed

theorem quiet_counterMessage (counter : UInt32) (nonce : RpmbNonce) : Quiet (counterMessage counter nonce) :=
  quiet_of_response .getCounter (by simp) (by simp)

theorem quiet_dataReadMessage (device : Device) (first : RpmbBody) (count : Nat) :
    Quiet (device.dataReadMessage first count) := by
  cases count with
  | zero =>
    constructor
    · rintro capacity counter addr ⟨body, rest, same, -⟩
      simp [Device.dataReadMessage] at same
    · rintro addr ⟨body, same, -⟩
      simp [Device.dataReadMessage] at same
  | succ count =>
  rw [Device.dataReadMessage, List.range_succ_eq_map, List.map_cons]
  exact quiet_of_response .dataRead (by simp) (by simp)

variable {message : List RpmbBody}

theorem WriteConfirmed.address {addr other : UInt16} (confirmed : WriteConfirmed addr message)
    (again : WriteConfirmed other message) : addr = other := by
  obtain ⟨body, rfl, fits⟩ := confirmed
  obtain ⟨same, equal, fitsOther⟩ := again
  obtain ⟨rfl, -⟩ := List.cons.inj equal
  exact (fits.addr addr rfl).symm.trans (fitsOther.addr other rfl)

theorem WriteConfirmed.not_request {addr other : UInt16} {capacity counter : Nat}
    (confirmed : WriteConfirmed addr message) : ¬WriteRequest capacity counter other message := by
  obtain ⟨body, rfl, fits⟩ := confirmed
  rintro ⟨first, rest, same, requested, -⟩
  obtain ⟨rfl, -⟩ := List.cons.inj same
  exact code_ne (requested.symm.trans fits.type)

/-- What a delivery leaves: nothing that concerns data writes, or one data write
of an authenticated request together with its confirmation. -/
inductive Delivered (world later : World) : Prop where
  | quiet (signed : ∀ message ∈ later.signed, message ∈ world.signed ∨ Quiet message)
      (performed : later.performed = world.performed)
      (device : later.device = world.device)
  | written (addr : UInt16) (message confirmation : List RpmbBody)
      (authentic : message ∈ world.signed)
      (request : WriteRequest world.device.capacity world.device.counter.toNat addr message)
      (unexpired : world.device.counter ≠ maxCounter)
      (confirmed : WriteConfirmed addr confirmation)
      (signed : later.signed = world.signed ++ [confirmation])
      (performed : later.performed = world.performed ++
        [⟨world.device.counter, addr, message.map RpmbBody.data⟩])
      (counter : later.device.counter = world.device.counter + 1)
      (capacity : later.device.capacity = world.device.capacity)

theorem dataWrite_cases (hmac : Hmac) (key : RpmbKey) (device : Device) (first : RpmbBody) (packets : List RpmbPacket) :
    (∃ result, result ≠ RpmbResult.ok.code ∧ device.dataWrite hmac key first packets =
      (device, writeResultMessage device.counter first.address result, none)) ∨
    (device.counter ≠ maxCounter ∧ device.admits first packets.length = true ∧
      MacValid hmac key packets ∧ rpmbGetU32 first.writeCounter = device.counter ∧
      device.dataWrite hmac key first packets =
        (device.store (rpmbGetU16 first.address).toNat ((rpmbMessage packets).map RpmbBody.data),
          writeResultMessage (device.counter + 1) first.address RpmbResult.ok.code,
          some ⟨device.counter, rpmbGetU16 first.address, (rpmbMessage packets).map RpmbBody.data⟩)) := by
  unfold Device.dataWrite
  by_cases expired : device.counter = maxCounter
  · exact .inl ⟨_, by decide, if_pos expired⟩
  by_cases admitted : device.admits first packets.length = true
  · by_cases valid : MacValid hmac key packets
    · by_cases counted : rpmbGetU32 first.writeCounter = device.counter
      · exact .inr ⟨expired, admitted, valid, counted, by simp [expired, admitted, valid, counted]⟩
      · exact .inl ⟨RpmbResult.countFailure.code, by decide, by simp [expired, admitted, valid, counted]⟩
    · exact .inl ⟨RpmbResult.authFailure.code, by decide, by simp [expired, admitted, valid]⟩
  · refine .inl ⟨if (rpmbGetU16 first.blockCount).toNat = packets.length then
      RpmbResult.addrFailure.code else RpmbResult.generalFailure.code, ?_,
      by simp [expired, admitted]⟩
    split <;> decide

variable {world later : World}

private theorem delivered_quiet (quiet : Quiet message) (signed : later.signed = world.signed ++ [message])
    (performed : later.performed = world.performed) (device : later.device = world.device) : Delivered world later := by
  refine .quiet (fun other member => ?_) performed device
  rw [signed] at member
  rcases List.mem_append.mp member with old | new
  · exact .inl old
  · exact .inr (List.mem_singleton.mp new ▸ quiet)

variable {hmac : Hmac} {packets : List RpmbPacket} {count : Nat}

theorem deliver_cases (delivered : world.deliver hmac packets count = some later) :
    Delivered world later := by
  cases packets with
  | nil => simp [World.deliver] at delivered
  | cons packet rest =>
  simp only [World.deliver] at delivered
  split at delivered
  · contradiction
  rename_i unforged
  rw [not_not] at unforged
  split at delivered
  · rename_i requested
    rcases dataWrite_cases hmac world.key world.device packet.body (packet :: rest) with
      ⟨result, failed, outcome⟩ | ⟨unexpired, admitted, valid, counted, outcome⟩
    · rw [outcome] at delivered
      cases delivered
      exact delivered_quiet (quiet_refusal failed) rfl (List.append_nil _) rfl
    rw [outcome] at delivered
    cases delivered
    have fits : ResponseFits .dataWrite none (some (rpmbGetU16 packet.body.address))
        { writeCounter := rpmbU32 (world.device.counter + 1)
          address := packet.body.address
          result := rpmbU16 RpmbResult.ok.code
          reqResp := rpmbU16 RpmbResponse.dataWrite.code } :=
      ⟨rpmbGetU16_rpmbU16 _, rpmbGetU16_rpmbU16 _, by simp, by simp⟩
    simp only [Device.admits, decide_eq_true_eq] at admitted
    exact .written (rpmbGetU16 packet.body.address) (rpmbMessage (packet :: rest)) _
      (unforged valid)
      ⟨packet.body, rpmbMessage rest, rfl, requested, by simpa [rpmbMessage] using admitted.1,
        by simpa [rpmbMessage] using admitted.2, congrArg UInt32.toNat counted, rfl⟩
      unexpired ⟨_, rfl, fits⟩ rfl rfl rfl rfl
  split at delivered
  · cases delivered
    exact delivered_quiet (quiet_counterMessage ..) rfl rfl rfl
  split at delivered
  · cases delivered
    exact delivered_quiet (quiet_dataReadMessage ..) rfl rfl rfl
  · cases delivered
    exact .quiet (fun _ member => .inl member) rfl rfl

structure DeliveryFrame (world later : World) : Prop where
  key : later.key = world.key
  sent : later.sent = world.sent
  received : later.received = world.received
  exchanges : later.exchanges = world.exchanges
  grows : ∀ message ∈ world.signed, message ∈ later.signed

theorem deliver_frame (delivered : world.deliver hmac packets count = some later) : DeliveryFrame world later := by
  cases packets with
  | nil => simp [World.deliver] at delivered
  | cons packet rest =>
  simp only [World.deliver] at delivered
  repeat' split at delivered
  all_goals cases delivered
  all_goals exact ⟨rfl, rfl, rfl, rfl, fun _ member => by simp [World.sign, member]⟩

theorem unforged_stable (hmac : Hmac) (packets : List RpmbPacket) :
    Interaction.Stable (transport hmac) fun world => Unforged hmac world packets := by
  rintro world later unforged ⟨delivery, count, delivered⟩ valid
  have frame := deliver_frame delivered
  exact frame.grows _ (unforged (frame.key ▸ valid))

theorem performed_stable (hmac : Hmac) (write : DeviceWrite) (start : Nat) :
    Interaction.Stable (transport hmac) fun world => write ∈ world.performed.drop start := by
  rintro world later done ⟨packets, count, delivered⟩
  cases deliver_cases delivered with
  | quiet _ performed => simpa only [performed] using done
  | written _ _ _ _ _ _ _ _ performed =>
  rw [performed, List.drop_append]
  exact List.mem_append_left _ done

theorem toList_single (res : Vector RpmbPacket 1) (first : 0 < 1) : res.toList = [res[0]] := by
  refine List.ext_getElem (by simp) fun index _ bound => ?_
  have zero : index = 0 := by simpa using bound
  subst zero
  simp

theorem accepted_signed {responseType : RpmbResponse} {res : Vector RpmbPacket 1} {nonce : Option RpmbNonce}
    {addr : Option UInt16} (unforged : Unforged hmac world res.toList)
    (accepted : ¬rpmbCheckResponse responseType res.toList
      (some (hmac world.key (rpmbMessage res.toList))) nonce addr < 0) :
    [res[0].body] ∈ world.signed ∧ ResponseFits responseType nonce addr res[0].body := by
  have single := toList_single res one_pos
  obtain ⟨fits, tagged⟩ := rpmbCheckResponse_fits accepted
  rw [single] at fits tagged unforged
  refine ⟨unforged ?_, fits _ (List.mem_singleton_self _)⟩
  rw [MacValid, carriedMac, List.getLast?_singleton, Option.map_some, tagged _ List.getLast?_singleton]

theorem answer_nonce {reply : RpmbNonce}
    (answered : (transport hmac).answer world .nonce reply later) : later = world := by
  obtain ⟨action, answered⟩ := answered
  cases action with
  | nonce value =>
    cases answered
    rfl
  | _ => simp [World.answer] at answered

theorem answer_mac {key : RpmbKey} {reply : Option RpmbKey}
    (answered : (transport hmac).answer world (.mac key message) reply later) :
    (reply = none ∧ later = world) ∨ (reply = some (hmac key message) ∧ later = world.checkReceived) := by
  obtain ⟨action, answered⟩ := answered
  cases action with
  | mac computed =>
    cases computed with
    | false =>
      cases answered
      exact .inl ⟨rfl, rfl⟩
    | true =>
    cases answered
    exact .inr ⟨rfl, rfl⟩
  | _ => simp [World.answer] at answered

theorem answer_transmit {reliableWrite write : List RpmbPacket} {sync : Bool} {reply : Unit}
    (answered : (transport hmac).answer world (.transmit reliableWrite write sync) reply later) :
    later = { (world.emit hmac reliableWrite).emit hmac write with
      sent := some ⟨reliableWrite, write⟩ } := by
  obtain ⟨action, answered⟩ := answered
  cases action with
  | transmit =>
    cases answered
    rfl
  | _ => simp [World.answer] at answered

theorem answer_receive {reply : Except RpmbError (Vector RpmbPacket count)}
    (answered : (transport hmac).answer world (.receive count) reply later) :
    (∃ ret, reply = .error ret ∧ later = world) ∨
      ∃ res : Vector RpmbPacket count, reply = .ok res ∧ Unforged hmac world res.toList ∧
        later = { world with received := some res.toList } := by
  obtain ⟨action, answered⟩ := answered
  cases action with
  | receive response =>
    cases response with
    | error ret =>
      cases answered
      exact .inl ⟨ret, rfl, rfl⟩
    | ok packets =>
    simp only [World.answer] at answered
    split at answered
    · split at answered
      · rename_i length unforged
        cases answered
        exact .inr ⟨_, rfl, unforged, rfl⟩
      · contradiction
    · contradiction
  | _ => simp [World.answer] at answered

@[simp] theorem checkReceived_key (world : World) : world.checkReceived.key = world.key := by
  unfold World.checkReceived
  split <;> rfl

@[simp] theorem checkReceived_device (world : World) : world.checkReceived.device = world.device := by
  unfold World.checkReceived
  split <;> rfl

@[simp] theorem checkReceived_signed (world : World) : world.checkReceived.signed = world.signed := by
  unfold World.checkReceived
  split <;> rfl

@[simp] theorem checkReceived_performed (world : World) : world.checkReceived.performed = world.performed := by
  unfold World.checkReceived
  split <;> rfl

@[simp] theorem emit_nil (hmac : Hmac) (world : World) : world.emit hmac [] = world := rfl

@[simp] theorem emit_key (hmac : Hmac) (world : World) (packets : List RpmbPacket) :
    (world.emit hmac packets).key = world.key := by
  unfold World.emit
  split <;> rfl

@[simp] theorem emit_performed (hmac : Hmac) (world : World) (packets : List RpmbPacket) :
    (world.emit hmac packets).performed = world.performed := by
  unfold World.emit
  split <;> rfl

@[simp] theorem emit_received (hmac : Hmac) (world : World) (packets : List RpmbPacket) :
    (world.emit hmac packets).received = world.received := by
  unfold World.emit
  split <;> rfl

@[simp] theorem emit_exchanges (hmac : Hmac) (world : World) (packets : List RpmbPacket) :
    (world.emit hmac packets).exchanges = world.exchanges := by
  unfold World.emit
  split <;> rfl

theorem emit_grows (member : message ∈ world.signed) : message ∈ (world.emit hmac packets).signed := by
  unfold World.emit
  split
  · exact List.mem_append_left _ member
  · exact member

theorem checkReceived_exchanges {exchange : Exchange}
    (member : exchange ∈ world.exchanges) : exchange ∈ world.checkReceived.exchanges := by
  unfold World.checkReceived
  split
  · exact List.mem_append_left _ member
  · exact member

structure WorldFrame (world later : World) : Prop where
  key : later.key = world.key
  exchanges : ∀ exchange ∈ world.exchanges, exchange ∈ later.exchanges

theorem answer_frame {op : RpmbOp} {reply : op.Reply}
    (answered : (transport hmac).answer world op reply later) : WorldFrame world later := by
  cases op with
  | nonce =>
    obtain rfl := answer_nonce answered
    exact ⟨rfl, fun _ member => member⟩
  | mac key message =>
    rcases answer_mac answered with ⟨-, rfl⟩ | ⟨-, rfl⟩
    · exact ⟨rfl, fun _ member => member⟩
    · exact ⟨by simp, fun _ member => checkReceived_exchanges member⟩
  | transmit reliableWrite write sync =>
    obtain rfl := answer_transmit answered
    exact ⟨by simp, by simp⟩
  | receive count =>
  rcases answer_receive answered with ⟨_, -, rfl⟩ | ⟨_, -, -, rfl⟩
  · exact ⟨rfl, fun _ member => member⟩
  · exact ⟨rfl, fun _ member => member⟩

variable {system : System}

theorem run_append {middle : System} {before after : List Action} (reached : run hmac system before = some middle) :
    run hmac system (before ++ after) = run hmac middle after := by
  simp only [run] at reached ⊢
  rw [List.foldlM_append, reached, Option.bind_eq_bind, Option.bind_some]

variable {actions : List Action}

theorem run_invariant {inv : System → Prop} {final : System} (reached : run hmac system actions = some final)
    (start : inv system) (keeps : ∀ before action after middle next, actions = before ++ action :: after →
      run hmac system before = some middle → step hmac middle action = some next →
      inv middle → inv next) : inv final := by
  induction actions using List.reverseRecOn generalizing final with
  | nil =>
    cases reached
    exact start
  | append_singleton before action ih =>
  cases earlier : run hmac system before with
  | none =>
    rw [run] at earlier
    simp [run, List.foldlM_append, earlier] at reached
  | some middle =>
  rw [run_append earlier] at reached
  have stepped : step hmac middle action = some final := by
    simpa [run] using reached
  refine keeps before action [] middle final rfl earlier stepped (ih earlier ?_)
  intro front first rest mid next split
  exact keeps front first (rest ++ [action]) mid next (by simp [split])

inductive Stepped (hmac : Hmac) (system next : System) : Action → Prop where
  | call (call : Call) (idle : system.running = none) (same : next = system.begin call) :
      Stepped hmac system next (.call call)
  | move (packets : List RpmbPacket) (count : Nat) (later : World)
      (delivered : system.world.deliver hmac packets count = some later)
      (same : next = { system with world := later }) : Stepped hmac system next (.deliver packets count)
  | finish (call : Call) (start : Nat) (outcome : Outcome)
      (ended : system.running = some ⟨call, start, .done outcome⟩)
      (same : next = { system with state := outcome.state, running := none }) :
      Stepped hmac system next .finish
  | restart (same : next = .boot system.world) : Stepped hmac system next .restart
  | answer (action : Action) (call : Call) (start : Nat) (op : RpmbOp)
      (ask : op.Reply → RpmbProgram Outcome) (reply : op.Reply) (later : World)
      (asked : system.running = some ⟨call, start, .ask op ask⟩)
      (answered : (transport hmac).answer system.world op reply later)
      (same : next = { system with world := later, running := some ⟨call, start, ask reply⟩ }) :
      Stepped hmac system next action

section

variable {next : System} {action : Action} (stepped : step hmac system action = some next)
include stepped

theorem step_cases : Stepped hmac system next action := by
  cases action with
  | call call =>
    simp only [step] at stepped
    split at stepped
    · rename_i idle
      cases stepped
      exact .call call idle rfl
    · contradiction
  | deliver packets count =>
    simp only [step, Option.map_eq_some_iff] at stepped
    obtain ⟨later, delivered, rfl⟩ := stepped
    exact .move packets count later delivered rfl
  | finish =>
    simp only [step] at stepped
    split at stepped
    · rename_i call start outcome ended
      cases stepped
      exact .finish call start outcome ended rfl
    · contradiction
  | restart =>
    cases stepped
    exact .restart rfl
  | _ =>
  simp only [step] at stepped
  split at stepped
  · rename_i call start op ask asked
    simp only [Option.map_eq_some_iff] at stepped
    obtain ⟨⟨reply, later⟩, answered, rfl⟩ := stepped
    exact .answer _ call start op ask reply later asked ⟨_, answered⟩ rfl
  · contradiction

theorem step_frame : WorldFrame system.world next.world := by
  cases step_cases stepped with
  | call _ _ same | finish _ _ _ _ same | restart same =>
    subst same
    exact ⟨rfl, fun _ member => member⟩
  | move packets count later delivered same =>
    subst same
    have frame := deliver_frame delivered
    exact ⟨frame.key, fun _ member => frame.exchanges ▸ member⟩
  | answer action call start op ask reply later asked answered same =>
  subst same
  exact answer_frame answered

end

theorem run_frame {final : System} (reached : run hmac system actions = some final) :
    WorldFrame system.world final.world := by
  apply run_invariant reached
  · exact ⟨rfl, fun _ member => member⟩
  intro before action after middle next split earlier stepped frame
  have kept := step_frame stepped
  exact ⟨kept.key.trans frame.key, fun exchange member => kept.exchanges exchange (frame.exchanges exchange member)⟩

/-- What a run of calls keeps: `idle` between calls, `guard` at every question of a
call, `ends` when it is about to return. -/
structure Contract (hmac : Hmac) where
  env : Interaction.Environment RpmbOp RpmbOp.Reply World
  guard : RpmbOp → World → Prop
  idle : RpmbState → World → Prop
  ends : Call → Nat → Outcome → World → Prop
  moves : ∀ {world later packets count},
    world.deliver hmac packets count = some later → env.move world later
  idle_boot : ∀ world, idle (rpmbInit world.key) world
  idle_move : ∀ {state world later}, idle state world → env.move world later → idle state later
  idle_ends : ∀ {call start outcome world}, ends call start outcome world → idle outcome.state world

structure Contract.Holds {hmac : Hmac} (contract : Contract hmac) (system : System) : Prop where
  idle : system.running = none → contract.idle system.state system.world
  running : ∀ running, system.running = some running →
    Interaction.Upholds contract.env contract.guard (contract.ends running.call running.start)
      running.program system.world

theorem Contract.holds_boot (contract : Contract hmac) (world : World) : contract.Holds (.boot world) :=
  ⟨fun _ => contract.idle_boot world, by simp [System.boot]⟩

theorem Contract.Holds.step {contract : Contract hmac} {system next : System} {action : Action}
    (holds : contract.Holds system) (stepped : step hmac system action = some next)
    (begins : ∀ call, action = .call call → contract.idle system.state system.world →
      Interaction.Upholds contract.env contract.guard
        (contract.ends call system.world.performed.length) (call.program system.state)
        (system.begin call).world) (answers : ∀ op reply, (transport hmac).answer system.world op reply next.world →
      contract.env.answer system.world op reply next.world) : contract.Holds next := by
  cases step_cases stepped with
  | call call idle same =>
    subst same
    refine ⟨by simp [System.begin], fun running started => ?_⟩
    cases started
    exact begins call rfl (holds.idle idle)
  | move packets count later delivered same =>
    subst same
    exact ⟨fun idle => contract.idle_move (holds.idle idle) (contract.moves delivered),
      fun running started => (holds.running running started).move (contract.moves delivered)⟩
  | finish call start outcome ended same =>
    subst same
    exact ⟨fun _ => contract.idle_ends (holds.running _ ended).result, by simp⟩
  | restart same =>
    subst same
    exact contract.holds_boot _
  | answer action call start op ask reply later asked answered same =>
  subst same
  refine ⟨by simp, fun running started => ?_⟩
  cases started
  exact (holds.running _ asked).answer (answers op reply answered)

def sampleHmac : Hmac := fun key message =>
  message.foldl (fun digest body =>
    digest * 16777619 + body.data.setWidth 256 + body.nonce.setWidth 256 * 257 +
      BitVec.ofNat 256 ((rpmbGetU32 body.writeCounter).toNat * 2 ^ 64 +
        (rpmbGetU16 body.address).toNat * 2 ^ 96 + (rpmbGetU16 body.result).toNat * 2 ^ 112 +
        (rpmbGetU16 body.reqResp).toNat * 2 ^ 128)) (key + 1)

def sampleWorld : World where
  key := 9
  device := ⟨0, 16, fun _ => 0⟩
  signed := []
  performed := []
  sent := none
  received := none
  exchanges := []

def sealed (message : List RpmbBody) : List RpmbPacket :=
  setLastMac (sampleHmac 9 message) (message.map fun body => { body })

def honestWrite : List Action :=
  [.call (.write ⟨[1], by simp⟩ 0 true), .nonce 3, .transmit, .deliver [getCounterCmd 3] 1,
    .receive (.ok (sealed (counterMessage 0 3))), .mac true, .mac true, .transmit,
    .deliver (sealed (rpmbMessage (dataWriteCmd 0 0 [1]))) 1,
    .receive (.ok (sealed (writeResultMessage 1 ⟨0, 0⟩ 0))), .mac true]

end Trusty.Storage.RpmbTransport
