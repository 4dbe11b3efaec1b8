import Trusty.Storage.RpmbTransportProperties

/-!
Where the write counter of the client comes from. `rpmb_read_counter` stores it before
it checks the response, so the answer depends on responses that fail the check.
-/

namespace Trusty.Storage.RpmbTransport

open List

open Interaction (Stable Upholds upholds_ask upholds_bind upholds_done)

def AuthenticCounter (world : World) (exchange : Exchange) (counter : UInt32) : Prop :=
  ∃ nonce body, exchange.request = ⟨[], [getCounterCmd nonce]⟩ ∧
    rpmbMessage exchange.response = [body] ∧ [body] ∈ world.signed ∧
    ResponseFits .getCounter (some nonce) none body ∧ rpmbGetU32 body.writeCounter = counter

/-- The response to a data write request that `rpmb_check_response` accepts. -/
def acceptedWrite (hmac : Hmac) (key : RpmbKey) (exchange : Exchange) : Bool :=
  match exchange.request.reliableWrite with
  | [] => false
  | cmd :: _ =>
    ¬rpmbCheckResponse .dataWrite exchange.response (hmac key (rpmbMessage exchange.response))
      none (rpmbGetU16 cmd.body.address) < 0

def Derived (hmac : Hmac) (world : World) (value : UInt32) : Prop :=
  ∃ before exchange after counter, world.exchanges = before ++ exchange :: after ∧
    AuthenticCounter world exchange counter ∧
    value = counter + UInt32.ofNat (after.countP (acceptedWrite hmac world.key))

def CounterAuthentic (hmac : Hmac) (world : World) (value : UInt32) : Prop :=
  value = 0 ∨ Derived hmac world value

/-- Between calls and when a call is about to return the counter is authentic, and so
is that of a write request that goes out. -/
structure CounterProvenance (hmac : Hmac) (system : System) : Prop where
  idle : system.running = none → CounterAuthentic hmac system.world system.state.writeCounter
  returning : ∀ call start outcome, system.running = some ⟨call, start, .done outcome⟩ →
    CounterAuthentic hmac system.world outcome.state.writeCounter
  sending : ∀ call start reliableWrite write sync next,
    system.running = some ⟨call, start, .ask (.transmit reliableWrite write sync) next⟩ →
    ∀ packet ∈ reliableWrite, Derived hmac system.world (rpmbGetU32 packet.body.writeCounter)

/-- A response to a counter request passes its check or carries the counter zero. -/
def counterChecked (hmac : Hmac) (key : RpmbKey) (exchange : Exchange) : Bool :=
  match exchange.request with
  | ⟨[], [cmd]⟩ =>
    rpmbGetU16 cmd.body.reqResp ≠ RpmbRequest.getCounter.code ∨
      ¬rpmbCheckResponse .getCounter exchange.response
        (hmac key (rpmbMessage exchange.response)) cmd.body.nonce none < 0 ∨
      ∀ packet ∈ exchange.response, rpmbGetU32 packet.body.writeCounter = 0
  | _ => true

variable {hmac : Hmac}

section

variable {world later : World} {value : UInt32}

theorem Derived.mono (derived : Derived hmac world value) (key : later.key = world.key)
    (exchanges : later.exchanges = world.exchanges)
    (grows : ∀ message ∈ world.signed, message ∈ later.signed) : Derived hmac later value := by
  obtain ⟨before, exchange, after, counter, split, authentic, same⟩ := derived
  obtain ⟨nonce, body, requested, response, signed, fits⟩ := authentic
  exact ⟨before, exchange, after, counter, exchanges.trans split,
    ⟨nonce, body, requested, response, grows _ signed, fits⟩, key ▸ same⟩

theorem CounterAuthentic.mono (authentic : CounterAuthentic hmac world value) (key : later.key = world.key)
    (exchanges : later.exchanges = world.exchanges) (grows : ∀ message ∈ world.signed, message ∈ later.signed) :
    CounterAuthentic hmac later value :=
  authentic.imp_right fun derived => derived.mono key exchanges grows

theorem Derived.exchanged {exchange : Exchange} (derived : Derived hmac world value) (key : later.key = world.key)
    (exchanges : later.exchanges = world.exchanges ++ [exchange]) (signed : later.signed = world.signed) :
    Derived hmac later (if acceptedWrite hmac world.key exchange then value + 1 else value) := by
  obtain ⟨before, first, after, counter, split, authentic, rfl⟩ := derived
  obtain ⟨nonce, body, requested, response, known, fits⟩ := authentic
  refine ⟨before, first, after ++ [exchange], counter, by simp [exchanges, split],
    ⟨nonce, body, requested, response, signed ▸ known, fits⟩, ?_⟩
  rw [key, countP_append]
  split
  · rename_i accepted
    simp [accepted, UInt32.ofNat_add, UInt32.add_assoc]
  · rename_i rejected
    simp [rejected]

end

/-- The transport when every response to a counter request is as `counterChecked` asks. -/
def checkedTransport (hmac : Hmac) : Interaction.Environment RpmbOp RpmbOp.Reply World where
  move := (transport hmac).move
  answer world op reply later := (transport hmac).answer world op reply later ∧
    ∀ exchange ∈ later.exchanges, counterChecked hmac later.key exchange = true

def sendsDerived (hmac : Hmac) : RpmbOp → World → Prop
  | .transmit reliableWrite _ _, world =>
    ∀ packet ∈ reliableWrite, Derived hmac world (rpmbGetU32 packet.body.writeCounter)
  | _, _ => True

structure Tracked (key : RpmbKey) (sent : Option Request) (received : Option (List RpmbPacket))
    (fact : World → Prop) (world : World) : Prop where
  key : world.key = key
  sent : world.sent = sent
  received : world.received = received
  fact : fact world

def Lasting (fact : World → Prop) : Prop :=
  ∀ world later, fact world → later.key = world.key → later.exchanges = world.exchanges →
    (∀ message ∈ world.signed, message ∈ later.signed) → fact later

variable {received : Option (List RpmbPacket)} {fact : World → Prop} {key : RpmbKey} {sent : Option Request}

theorem Tracked.stable (hmac : Hmac) (lasting : Lasting fact) :
    Stable (checkedTransport hmac) (Tracked key sent received fact) := by
  rintro world later tracked ⟨packets, count, delivered⟩
  have frame := deliver_frame delivered
  exact ⟨frame.key.trans tracked.key, frame.sent.trans tracked.sent, frame.received.trans tracked.received,
    lasting world later tracked.fact frame.key frame.exchanges frame.grows⟩

variable {world : World}

theorem Tracked.transmitted {reliableWrite write : List RpmbPacket} (lasting : Lasting fact)
    (tracked : Tracked key sent received fact world) :
    Tracked key (some ⟨reliableWrite, write⟩) received fact { (world.emit hmac reliableWrite).emit hmac write with
        sent := some ⟨reliableWrite, write⟩ } := by
  refine ⟨by simpa using tracked.key, rfl, by simpa using tracked.received,
    lasting world _ tracked.fact (by simp) (by simp) fun message member => ?_⟩
  exact emit_grows (emit_grows member)

theorem Tracked.receives {packets : List RpmbPacket} (lasting : Lasting fact)
    (tracked : Tracked key sent received fact world) :
    Tracked key sent (some packets) fact { world with received := some packets } :=
  ⟨tracked.key, tracked.sent, rfl, lasting world _ tracked.fact rfl rfl fun _ member => member⟩

theorem Tracked.signs (tracked : Tracked key none received fact world) : world.checkReceived = world := by
  simp [World.checkReceived, tracked.sent]

theorem Tracked.checks {request : Request} {response : List RpmbPacket}
    (tracked : Tracked key (some request) (some response) fact world) :
    world.checkReceived = { world with
        sent := none
        received := none
        exchanges := world.exchanges ++ [⟨request, response⟩] } := by
  simp [World.checkReceived, tracked.sent, tracked.received]

theorem derived_lasting (hmac : Hmac) (value : UInt32) : Lasting fun world => Derived hmac world value :=
  fun _ _ derived key exchanges grows => derived.mono key exchanges grows

theorem authentic_lasting (hmac : Hmac) (value : UInt32) : Lasting fun world => CounterAuthentic hmac world value :=
  fun _ _ authentic key exchanges grows => authentic.mono key exchanges grows

/-- The end of a call that leaves `state`. -/
def CounterEnds (hmac : Hmac) (state : RpmbState) (world : World) : Prop :=
  state.key = world.key ∧ CounterAuthentic hmac world state.writeCounter

theorem upholds_counterEnds {α : Type} {value : α} (state : α → RpmbState) (key : (state value).key = world.key)
    (authentic : CounterAuthentic hmac world (state value).writeCounter) :
    Upholds (checkedTransport hmac) (sendsDerived hmac)
      (fun value later => CounterEnds hmac (state value) later) (.done value) world :=
  upholds_done (Tracked.stable hmac (authentic_lasting hmac (state value).writeCounter))
    ⟨key.symm, rfl, rfl, authentic⟩ fun _ tracked => ⟨tracked.key.symm, tracked.fact⟩

private theorem acceptedWrite_eq {key mac : RpmbKey} {counter : UInt32} {addr : UInt16} {buf : RpmbBuffer}
    {write response : List RpmbPacket} :
    acceptedWrite hmac key ⟨⟨setLastMac mac (dataWriteCmd counter addr buf.val), write⟩, response⟩ =
      decide (¬rpmbCheckResponse .dataWrite response (hmac key (rpmbMessage response)) none addr < 0) := by
  obtain ⟨blocks, nonempty⟩ := buf
  cases blocks with
  | nil => contradiction
  | cons block rest =>
  cases rest with
  | nil | cons second others => simp [acceptedWrite, dataWriteCmd, setLastMac]

private theorem sent_counter {mac : RpmbKey} {counter : UInt32} {addr : UInt16} {buf : List RpmbData}
    {packet : RpmbPacket} (member : packet ∈ setLastMac mac (dataWriteCmd counter addr buf)) :
    rpmbGetU32 packet.body.writeCounter = counter := by
  have known : packet.body ∈ rpmbMessage (dataWriteCmd counter addr buf) := by
    rw [← rpmbMessage_setLastMac mac]
    exact mem_map_of_mem member
  simp only [rpmbMessage, dataWriteCmd, map_map, mem_map] at known
  obtain ⟨data, -, same⟩ := known
  rw [← same]
  exact rpmbGetU32_rpmbU32 counter

variable {state : RpmbState}

theorem writeData_counter (buf : RpmbBuffer) (addr : UInt16) (sync : Bool)
    (tracked : Tracked state.key none none (fun world => Derived hmac world state.writeCounter) world) :
    Upholds (checkedTransport hmac) (sendsDerived hmac) (fun result later => CounterEnds hmac result.2 later)
      (rpmbWriteData state buf addr sync) world := by
  have lasting := derived_lasting hmac state.writeCounter
  refine upholds_ask (Tracked.stable hmac lasting) tracked (fun _ _ => trivial) fun _ _ _ tracked signing => ?_
  rcases answer_mac signing.1 with ⟨rfl, rfl⟩ | ⟨rfl, rfl⟩
  · exact upholds_counterEnds Prod.snd tracked.key.symm (.inr tracked.fact)
  rw [tracked.signs]
  refine upholds_ask (Tracked.stable hmac lasting) tracked ?_ fun _ _ _ tracked sending => ?_
  · intro later tracked packet member
    rw [sent_counter member]
    exact tracked.fact
  obtain rfl := answer_transmit sending.1
  refine upholds_ask (Tracked.stable hmac lasting) (tracked.transmitted lasting)
    (fun _ _ => trivial) fun _ _ _ tracked receiving => ?_
  rcases answer_receive receiving.1 with ⟨ret, rfl, rfl⟩ | ⟨res, rfl, -, rfl⟩
  · exact upholds_counterEnds Prod.snd tracked.key.symm (.inr tracked.fact)
  refine upholds_ask (Tracked.stable hmac lasting) (tracked.receives lasting)
    (fun _ _ => trivial) fun checked _ _ tracked checking => ?_
  rcases answer_mac checking.1 with ⟨rfl, rfl⟩ | ⟨rfl, rfl⟩
  · exact upholds_counterEnds Prod.snd tracked.key.symm (.inr tracked.fact)
  have derived := tracked.fact.exchanged (checkReceived_key checked)
    (congrArg World.exchanges tracked.checks) (checkReceived_signed checked)
  have key : state.key = checked.checkReceived.key := by simpa using tracked.key.symm
  rw [tracked.key, acceptedWrite_eq] at derived
  simp only [Interaction.bind]
  split
  · rename_i negative
    rw [if_neg (by simpa using negative)] at derived
    split
    · exact upholds_counterEnds Prod.snd key (.inl rfl)
    · exact upholds_counterEnds Prod.snd key (.inr derived)
  · rename_i accepted
    rw [if_pos (by simpa using accepted)] at derived
    exact upholds_counterEnds Prod.snd key (.inr derived)

def CounterRead (hmac : Hmac) (result : Int × RpmbState) (later : World) : Prop :=
  CounterEnds hmac result.2 later ∧
    (¬result.1 < 0 → Tracked result.2.key none none (fun world => Derived hmac world result.2.writeCounter) later)

theorem readCounter_counter (tracked : Tracked state.key none none
      (fun world => CounterAuthentic hmac world state.writeCounter) world) :
    Upholds (checkedTransport hmac) (sendsDerived hmac) (CounterRead hmac) (rpmbReadCounter state) world := by
  have lasting := authentic_lasting hmac state.writeCounter
  have failed : ∀ {ret : Int} {sent : Option Request} {received : Option (List RpmbPacket)}
      {later : World}, ret < 0 → Tracked state.key sent received
        (fun world => CounterAuthentic hmac world state.writeCounter) later →
      Upholds (checkedTransport hmac) (sendsDerived hmac) (CounterRead hmac) (.done (ret, state)) later :=
    fun negative tracked =>
    upholds_done (Tracked.stable hmac lasting) tracked fun _ tracked =>
      ⟨⟨tracked.key.symm, tracked.fact⟩, fun success => absurd negative success⟩
  refine upholds_ask (Tracked.stable hmac lasting) tracked (fun _ _ => trivial) fun _ nonce _ tracked choosing => ?_
  obtain rfl := answer_nonce choosing.1
  refine upholds_ask (Tracked.stable hmac lasting) tracked
    (fun _ _ _ member => absurd member not_mem_nil) fun _ _ _ tracked sending => ?_
  obtain rfl := answer_transmit sending.1
  refine upholds_ask (Tracked.stable hmac lasting) (tracked.transmitted lasting)
    (fun _ _ => trivial) fun _ _ _ tracked receiving => ?_
  rcases answer_receive receiving.1 with ⟨ret, rfl, rfl⟩ | ⟨res, rfl, unforged, rfl⟩
  · exact failed ret.property tracked
  have settled : Stable (checkedTransport hmac) fun world =>
      Unforged hmac world res.toList := unforged_stable hmac res.toList
  refine upholds_ask ((Tracked.stable hmac lasting).and settled)
    ⟨tracked.receives lasting, unforged⟩ (fun _ _ => trivial) fun checked _ _ held checking => ?_
  obtain ⟨tracked, unforged⟩ := held
  rcases answer_mac checking.1 with ⟨rfl, rfl⟩ | ⟨rfl, rfl⟩
  · exact failed (by decide) tracked
  have key : state.key = checked.checkReceived.key := by simpa using tracked.key.symm
  by_cases accepted : rpmbCheckResponse .getCounter res.toList
      (some (hmac state.key (rpmbMessage res.toList))) (some nonce) none < 0
  · have zero : rpmbGetU32 res[0].body.writeCounter = 0 := by
      have member : (⟨⟨[], [getCounterCmd nonce]⟩, res.toList⟩ : Exchange) ∈
          checked.checkReceived.exchanges := by simp [tracked.checks]
      rcases of_decide_eq_true (checking.2 _ member) with other | passed | zero
      · exact absurd (rpmbGetU16_rpmbU16 _) other
      · rw [← key] at passed
        contradiction
      · exact zero _ (by simp)
    refine upholds_done (Tracked.stable hmac (authentic_lasting hmac 0))
      ⟨key.symm, rfl, rfl, .inl rfl⟩ fun _ tracked => ?_
    exact ⟨⟨tracked.key.symm, .inl zero⟩, fun success => absurd accepted success⟩
  · rw [← tracked.key] at accepted
    obtain ⟨signed, fits⟩ := accepted_signed unforged accepted
    have derived : Derived hmac checked.checkReceived (rpmbGetU32 res[0].body.writeCounter) := by
      refine ⟨checked.exchanges, ⟨⟨[], [getCounterCmd nonce]⟩, res.toList⟩, [], _,
        congrArg World.exchanges tracked.checks,
        ⟨nonce, res[0].body, rfl, ?_, by simpa using signed, fits, rfl⟩, by simp⟩
      exact congrArg rpmbMessage (toList_single res _)
    refine upholds_done (Tracked.stable hmac (derived_lasting hmac _))
      ⟨key.symm, congrArg World.sent tracked.checks, congrArg World.received tracked.checks,
        derived⟩ fun _ tracked => ?_
    exact ⟨⟨tracked.key.symm, .inr tracked.fact⟩, fun _ => tracked⟩

theorem write_counter (buf : RpmbBuffer) (addr : UInt16) (sync : Bool)
    (tracked : Tracked state.key none none (fun world => CounterAuthentic hmac world state.writeCounter) world) :
    Upholds (checkedTransport hmac) (sendsDerived hmac) (fun result later => CounterEnds hmac result.2 later)
      (rpmbWrite state buf addr sync) world := by
  rw [rpmbWrite]
  split
  · refine upholds_bind ((readCounter_counter tracked).mono fun result later ends => ?_)
    dsimp only
    split
    · exact upholds_counterEnds Prod.snd ends.1.1 ends.1.2
    · rename_i success
      exact writeData_counter buf addr sync (ends.2 success)
  · rename_i nonzero
    exact writeData_counter buf addr sync { tracked with fact := tracked.fact.resolve_left nonzero }

theorem read_counter (addr count : UInt16)
    (tracked : Tracked state.key none none (fun world => CounterAuthentic hmac world state.writeCounter) world) :
    Upholds (checkedTransport hmac) (sendsDerived hmac)
      (fun _ later => CounterEnds hmac state later) (rpmbRead state addr count) world := by
  have lasting := authentic_lasting hmac state.writeCounter
  refine upholds_ask (Tracked.stable hmac lasting) tracked (fun _ _ => trivial) fun _ nonce _ tracked choosing => ?_
  obtain rfl := answer_nonce choosing.1
  refine upholds_ask (Tracked.stable hmac lasting) tracked
    (fun _ _ _ member => absurd member not_mem_nil) fun _ _ _ tracked sending => ?_
  obtain rfl := answer_transmit sending.1
  refine upholds_ask (Tracked.stable hmac lasting) (tracked.transmitted lasting)
    (fun _ _ => trivial) fun _ _ _ tracked receiving => ?_
  rcases answer_receive receiving.1 with ⟨ret, rfl, rfl⟩ | ⟨res, rfl, -, rfl⟩
  · exact upholds_counterEnds (fun _ => state) tracked.key.symm tracked.fact
  refine upholds_ask (Tracked.stable hmac lasting) (tracked.receives lasting)
    (fun _ _ => trivial) fun checked _ _ tracked checking => ?_
  rcases answer_mac checking.1 with ⟨rfl, rfl⟩ | ⟨rfl, rfl⟩
  · exact upholds_counterEnds (fun _ => state) tracked.key.symm tracked.fact
  have authentic : CounterAuthentic hmac checked.checkReceived state.writeCounter := by
    refine tracked.fact.imp_right fun derived => ?_
    simpa [acceptedWrite] using derived.exchanged (checkReceived_key checked)
      (congrArg World.exchanges tracked.checks) (checkReceived_signed checked)
  have key : state.key = checked.checkReceived.key := by simpa using tracked.key.symm
  simp only [Interaction.bind]
  split
  · exact upholds_counterEnds (fun _ => state) key authentic
  · exact upholds_counterEnds (fun _ => state) key authentic

def counterContract (hmac : Hmac) : Contract hmac where
  env := checkedTransport hmac
  guard := sendsDerived hmac
  idle state world := CounterEnds hmac state world
  ends _ _ outcome world := CounterEnds hmac outcome.state world
  moves delivered := ⟨_, _, delivered⟩
  idle_boot _ := ⟨rfl, .inl rfl⟩
  idle_move := by
    rintro state world later ⟨key, authentic⟩ ⟨packets, count, delivered⟩
    have frame := deliver_frame delivered
    exact ⟨key.trans frame.key.symm, authentic.mono frame.key frame.exchanges frame.grows⟩
  idle_ends ends := ends

/-- In every run in which each response to a counter request passes its check or
carries the counter zero, the counter of the client is authentic throughout. -/
theorem counterProvenance_of_checked (hmac : Hmac) (world : World) (actions : List Action) (system : System)
    (reached : run hmac (.boot world) actions = some system)
    (checked : ∀ exchange ∈ system.world.exchanges, counterChecked hmac world.key exchange = true) :
    CounterProvenance hmac system := by
  have holds : (counterContract hmac).Holds system := by
    refine run_invariant reached (Contract.holds_boot _ world) ?_
    intro before action after middle next split earlier stepped holds
    refine holds.step stepped (fun call called idle => ?_) fun op reply answered =>
      ⟨answered, fun exchange member => ?_⟩
    · have tracked : Tracked middle.state.key none none
          (fun world => CounterAuthentic hmac world middle.state.writeCounter)
          (middle.begin call).world := ⟨idle.1.symm, rfl, rfl, idle.2⟩
      cases call with
      | write buf addr sync => exact (write_counter buf addr sync tracked).map fun _ _ ends => ends
      | read addr count => exact (read_counter addr count tracked).map fun _ _ ends => ends
    · have first : run hmac (.boot world) (before ++ [action]) = some next := by
        rw [run_append earlier]
        simpa [run] using stepped
      have rest : run hmac next after = some system := by
        rw [← run_append first, append_assoc, singleton_append, ← split]
        exact reached
      rw [(run_frame first).key]
      exact checked exchange ((run_frame rest).exchanges exchange member)
  exact ⟨fun idle => (holds.idle idle).2, fun call start outcome running => (holds.running _ running).result.2,
    fun call start reliableWrite write sync next running => (holds.running _ running).guarded⟩

theorem honestWrite_counterProvenance : ∃ system, run sampleHmac (.boot sampleWorld) honestWrite = some system ∧
      system.world.exchanges.length = 2 ∧ CounterProvenance sampleHmac system := by
  have checks : (run sampleHmac (.boot sampleWorld) honestWrite).any (fun system =>
      system.world.exchanges.length = 2 &&
        system.world.exchanges.all (counterChecked sampleHmac sampleWorld.key)) = true := by
    decide +kernel
  obtain ⟨system, reached, checked⟩ := (Option.any_eq_true _ _).mp checks
  simp only [Bool.and_eq_true, decide_eq_true_eq, all_eq_true] at checked
  exact ⟨system, reached, checked.1, counterProvenance_of_checked _ _ _ _ reached checked.2⟩

theorem block_ne_nil : [(1 : RpmbData)] ≠ [] := cons_ne_nil _ _

def forgedCounter : List Action :=
  [.call (.write ⟨[1], block_ne_nil⟩ 0 true), .nonce 3, .transmit,
    .receive (.ok [{ body := { writeCounter := rpmbU32 77 } }]), .mac true, .finish,
    .call (.write ⟨[1], block_ne_nil⟩ 0 true), .mac true]

def sendsForged (system : System) : Bool :=
  match system.running with
  | some ⟨_, _, .ask (.transmit (packet :: _) _ _) _⟩ =>
    rpmbGetU32 packet.body.writeCounter = 77 ∧ system.world.signed = []
  | _ => false

theorem forged_counter_sent : ¬∀ hmac world actions system,
    run hmac (.boot world) actions = some system → CounterProvenance hmac system := by
  intro always
  have forged : (run sampleHmac (.boot sampleWorld) forgedCounter).any sendsForged = true := by
    decide +kernel
  obtain ⟨system, reached, sends⟩ := (Option.any_eq_true _ _).mp forged
  unfold sendsForged at sends
  split at sends
  · rename_i running
    obtain ⟨-, unsigned⟩ := of_decide_eq_true sends
    have derived := (always _ _ _ system reached).sending _ _ _ _ _ _ running _ mem_cons_self
    obtain ⟨_, _, _, _, _, ⟨_, _, _, _, signed, _⟩, _⟩ := derived
    rw [unsigned] at signed
    exact not_mem_nil signed
  · cases sends

end Trusty.Storage.RpmbTransport
