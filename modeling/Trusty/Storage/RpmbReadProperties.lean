import Trusty.Storage.RpmbTransportProperties

/-!
# Reads are fresh

A read that succeeds returns what the device held at one moment of the call. The nonce
ties the response to the call, the MAC in the last packet the packets to each other.
-/

namespace Trusty.Storage.RpmbTransport

open Interaction (Stable Upholds upholds_ask upholds_done)

structure Watched where
  world : World
  devices : List Device

def Watched.start (world : World) : Watched := ⟨world, [world.device]⟩

def FreshNonce (world : World) : (op : RpmbOp) → op.Reply → Prop
  | .nonce, nonce => ∀ message ∈ world.signed, ∀ body ∈ message, body.nonce ≠ nonce
  | _, _ => True

def freshTransport (hmac : Hmac) : Interaction.Environment RpmbOp RpmbOp.Reply Watched where
  move watched later := (transport hmac).move watched.world later.world ∧
    later.devices = watched.devices ++ [later.world.device]
  answer watched op reply later := (transport hmac).answer watched.world op reply later.world ∧
    later.devices = watched.devices ++ [later.world.device] ∧ FreshNonce watched.world op reply

def IsReadResponse (body : RpmbBody) : Prop :=
  rpmbGetU16 body.reqResp = RpmbResponse.dataRead.code

structure ReadsDevice (world later : World) : Prop where
  key : later.key = world.key
  signed : ∀ message ∈ later.signed, message ∈ world.signed ∨
    (∀ body ∈ message, ¬IsReadResponse body) ∨
      ∃ first count, message = world.device.dataReadMessage first count

variable {world : World}

theorem readsDevice_of_signed {later : World} (key : later.key = world.key)
    (signed : later.signed = world.signed) : ReadsDevice world later :=
  ⟨key, fun _ member => .inl (signed ▸ member)⟩

theorem readsDevice_of_single {world later : World} {body : RpmbBody} {code : UInt16} (key : later.key = world.key)
    (signed : later.signed = world.signed ++ [[body]]) (type : rpmbGetU16 body.reqResp = code)
    (other : code ≠ RpmbResponse.dataRead.code) : ReadsDevice world later := by
  refine ⟨key, fun message member => ?_⟩
  rw [signed] at member
  rcases List.mem_append.mp member with old | new
  · exact .inl old
  obtain rfl := List.mem_singleton.mp new
  refine .inr (.inl fun single only response => ?_)
  obtain rfl := List.mem_singleton.mp only
  exact other (type.symm.trans response)

theorem deliver_readsDevice {hmac : Hmac} {later : World} {packets : List RpmbPacket}
    {count : Nat} (delivered : world.deliver hmac packets count = some later) :
    ReadsDevice world later := by
  have key := (deliver_frame delivered).key
  cases packets with
  | nil => simp [World.deliver] at delivered
  | cons packet rest =>
  simp only [World.deliver] at delivered
  split at delivered
  · contradiction
  split at delivered
  · rcases dataWrite_cases hmac world.key world.device packet.body (packet :: rest) with
      ⟨result, -, outcome⟩ | ⟨-, -, -, -, outcome⟩
    all_goals
      rw [outcome] at delivered
      cases delivered
      exact readsDevice_of_single key rfl (rpmbGetU16_rpmbU16 _) (by decide)
  split at delivered
  · cases delivered
    exact readsDevice_of_single key rfl (rpmbGetU16_rpmbU16 _) (by decide)
  split at delivered
  · cases delivered
    refine ⟨key, fun message member => ?_⟩
    rcases List.mem_append.mp member with old | new
    · exact .inl old
    · exact .inr (.inr ⟨_, _, List.mem_singleton.mp new⟩)
  · cases delivered
    exact readsDevice_of_signed rfl rfl

theorem transmit_readsDevice (hmac : Hmac) (world : World) (nonce : RpmbNonce) (addr : UInt16) (request : Request) :
    ReadsDevice world { (world.emit hmac []).emit hmac [dataReadCmd nonce addr] with
      sent := some request } := by
  rw [emit_nil]
  by_cases valid : MacValid hmac world.key [dataReadCmd nonce addr]
  · have emitted : world.emit hmac [dataReadCmd nonce addr] =
        world.sign (rpmbMessage [dataReadCmd nonce addr]) := if_pos valid
    rw [emitted]
    exact readsDevice_of_single rfl rfl (rpmbGetU16_rpmbU16 _) code_ne
  · have emitted : world.emit hmac [dataReadCmd nonce addr] = world := if_neg valid
    rw [emitted]
    exact readsDevice_of_signed rfl rfl

structure Answers (key : RpmbKey) (nonce : RpmbNonce) (watched : Watched) : Prop where
  key : watched.world.key = key
  present : watched.world.device ∈ watched.devices
  reads : ∀ message ∈ watched.world.signed,
    (∃ body ∈ message, body.nonce = nonce ∧ IsReadResponse body) →
      ∃ device ∈ watched.devices, ∃ first count, message = device.dataReadMessage first count

theorem Answers.next {key : RpmbKey} {nonce : RpmbNonce} {watched later : Watched} (answers : Answers key nonce watched)
    (reads : ReadsDevice watched.world later.world)
    (devices : later.devices = watched.devices ++ [later.world.device]) : Answers key nonce later := by
  have grows : ∀ device ∈ watched.devices, device ∈ later.devices := fun device member =>
    devices ▸ List.mem_append_left _ member
  refine ⟨reads.key.trans answers.key, by simp [devices], fun message member responds => ?_⟩
  rcases reads.signed message member with old | silent | ⟨first, count, same⟩
  · obtain ⟨device, seen, reading⟩ := answers.reads message old responds
    exact ⟨device, grows device seen, reading⟩
  · obtain ⟨body, inside, -, response⟩ := responds
    exact absurd response (silent body inside)
  · exact ⟨_, grows _ answers.present, first, count, same⟩

theorem Answers.stable (hmac : Hmac) (key : RpmbKey) (nonce : RpmbNonce) :
    Stable (freshTransport hmac) (Answers key nonce) := by
  rintro watched later answers ⟨⟨packets, count, delivered⟩, devices⟩
  exact answers.next (deliver_readsDevice delivered) devices

theorem unforged_watched (hmac : Hmac) (packets : List RpmbPacket) :
    Stable (freshTransport hmac) fun watched => Unforged hmac watched.world packets :=
  fun _ _ unforged moved => unforged_stable hmac packets _ _ unforged moved.1

theorem accepted_reads {hmac : Hmac} {watched : Watched} {key : RpmbKey} {nonce : RpmbNonce} {addr : UInt16}
    {res : List RpmbPacket} (nonempty : res ≠ []) (answers : Answers key nonce watched)
    (unforged : Unforged hmac watched.world res)
    (accepted : ¬rpmbCheckResponse .dataRead res (some (hmac key (rpmbMessage res))) (some nonce) (some addr) < 0) :
    ∃ device ∈ watched.devices, res.map (·.body.data) =
      (List.range res.length).map fun index => device.memory (addr.toNat + index) := by
  obtain ⟨fits, tagged⟩ := rpmbCheckResponse_fits accepted
  obtain ⟨packet, rest, rfl⟩ := List.exists_cons_of_ne_nil nonempty
  have valid : MacValid hmac watched.world.key (packet :: rest) := by
    rw [MacValid, carriedMac, List.getLast?_eq_some_getLast nonempty, Option.map_some,
      tagged _ (List.getLast?_eq_some_getLast nonempty), answers.key]
  have fitsFirst := fits packet List.mem_cons_self
  obtain ⟨device, seen, first, count, same⟩ := answers.reads _ (unforged valid)
    ⟨packet.body, List.mem_cons_self, fitsFirst.nonce nonce rfl, fitsFirst.type⟩
  have length : (packet :: rest).length = count := by
    simpa [rpmbMessage, Device.dataReadMessage] using congrArg List.length same
  have address : rpmbGetU16 first.address = addr := by
    have inside : packet.body ∈ device.dataReadMessage first count := same ▸ List.mem_cons_self
    obtain ⟨index, -, body⟩ := List.mem_map.mp inside
    have addressed := fitsFirst.addr addr rfl
    rw [← body] at addressed
    exact addressed
  refine ⟨device, seen, ?_⟩
  have datas := congrArg (List.map RpmbBody.data) same
  simp only [rpmbMessage, Device.dataReadMessage, List.map_map, address] at datas
  rw [length]
  exact datas

def ReadFresh (addr count : UInt16) (result : Int × Option (List RpmbData)) (later : Watched) : Prop :=
  result.1 = 0 → ∃ device ∈ later.devices, result.2 =
    some ((List.range count.toNat).map fun index => device.memory (addr.toNat + index))

theorem readFresh_stable (hmac : Hmac) (addr count : UInt16) (result : Int × Option (List RpmbData)) :
    Stable (freshTransport hmac) (ReadFresh addr count result) := by
  rintro watched later fresh ⟨-, devices⟩ success
  obtain ⟨device, seen, same⟩ := fresh success
  exact ⟨device, devices ▸ List.mem_append_left _ seen, same⟩

theorem read_fresh {hmac : Hmac} {state : RpmbState} {addr count : UInt16} (positive : count ≠ 0)
    (keys : state.key = world.key) :
    Upholds (freshTransport hmac) (fun _ _ => True) (ReadFresh addr count)
      (rpmbRead state addr count) (.start world) := by
  have ends : ∀ {result : Int × Option (List RpmbData)} {later : Watched},
      ReadFresh addr count result later → Upholds (freshTransport hmac)
        (fun _ _ => True) (ReadFresh addr count) (.done result) later := fun fresh =>
    upholds_done (readFresh_stable hmac addr count _) fresh fun _ fresh => fresh
  have present : Stable (freshTransport hmac) fun watched =>
      watched.world.key = state.key ∧ watched.world.device ∈ watched.devices := by
    rintro watched later ⟨key, -⟩ ⟨⟨packets, size, delivered⟩, devices⟩
    exact ⟨(deliver_frame delivered).key.trans key, by simp [devices]⟩
  refine upholds_ask present ⟨keys.symm, List.mem_singleton_self _⟩
    (fun _ _ => trivial) fun drawn nonce after before choosing => ?_
  obtain ⟨choosing, devices, unused⟩ := choosing
  have same := answer_nonce choosing
  have stable := Answers.stable hmac state.key nonce
  have answers : Answers state.key nonce after := by
    refine ⟨same ▸ before.1, by simp [devices], fun message member responds => ?_⟩
    obtain ⟨body, inside, carried, -⟩ := responds
    exact absurd carried (unused message (same ▸ member) body inside)
  refine upholds_ask stable answers (fun _ _ => trivial) fun _ _ _ answers sending => ?_
  have answers := answers.next (answer_transmit sending.1 ▸ transmit_readsDevice hmac _ nonce addr _) sending.2.1
  refine upholds_ask stable answers (fun _ _ => trivial) fun _ _ received answers receiving => ?_
  rcases answer_receive receiving.1 with ⟨ret, rfl, -⟩ | ⟨res, rfl, unforged, same⟩
  · exact ends fun success => absurd success (Int.ne_of_lt ret.property)
  have answers := answers.next (readsDevice_of_signed (by rw [same]) (by rw [same])) receiving.2.1
  have unforged : Unforged hmac received.world res.toList := same ▸ unforged
  refine upholds_ask (stable.and (unforged_watched hmac res.toList))
    ⟨answers, unforged⟩ (fun _ _ => trivial) fun checked _ final held checking => ?_
  obtain ⟨answers, unforged⟩ := held
  rcases answer_mac checking.1 with ⟨rfl, -⟩ | ⟨rfl, same⟩
  · exact ends fun success => absurd success (by decide)
  simp only [Interaction.bind]
  split
  case isTrue negative => exact ends fun success => absurd success (Int.ne_of_lt negative)
  case isFalse accepted =>
    have nonempty : res.toList ≠ [] := by
      intro empty
      have length := congrArg List.length empty
      simp at length
      exact positive (UInt16.toNat_inj.mp length)
    obtain ⟨device, seen, datas⟩ := accepted_reads nonempty answers unforged accepted
    refine ends fun _ => ⟨device, checking.2.1 ▸ List.mem_append_left _ seen, ?_⟩
    rw [datas, Vector.length_toList]

/-- A read that returns 0 has copied, in order, the blocks that the device held from
`addr` on at one moment between the call and its return. -/
theorem rpmb_read_returns_device_contents (hmac : Hmac) (world final : World) (devices : List Device)
    (state : RpmbState) (keys : state.key = world.key) (addr count : UInt16) (positive : 1 ≤ count)
    (data : Option (List RpmbData))
    (returns : Interaction.Runs (freshTransport hmac) (rpmbRead state addr count) (.start world)
      (0, data) ⟨final, devices⟩) :
    ∃ device ∈ devices, data = some ((List.range count.toNat).map fun index => device.memory (addr.toNat + index)) := by
  have nonzero : count ≠ 0 := by
    rintro rfl
    nomatch positive
  exact (read_fresh nonzero keys).runs returns rfl

def sampleRead : List RpmbBody := sampleWorld.device.dataReadMessage (dataReadCmd 5 3).body 2

/-- Two blocks of the sample device are read over an honest transport. -/
theorem honestRead_returns_device_contents : ∃ final devices data,
    Interaction.Runs (freshTransport sampleHmac) (rpmbRead (rpmbInit 9) 3 2) (.start sampleWorld)
      (0, data) ⟨final, devices⟩ ∧
    ∃ device ∈ devices, data = some ((List.range 2).map fun index => device.memory (3 + index)) := by
  let sent : World := { sampleWorld with sent := some ⟨[], [dataReadCmd 5 3]⟩ }
  let res : Vector RpmbPacket 2 := ⟨(sealed sampleRead).toArray, by decide +kernel⟩
  let received : World := { sent.sign sampleRead with received := some (sealed sampleRead) }
  let seen (count : Nat) := List.replicate count sampleWorld.device
  have drawn : (freshTransport sampleHmac).answer (.start sampleWorld) .nonce (5 : RpmbNonce) ⟨sampleWorld, seen 2⟩ :=
    ⟨⟨.nonce 5, rfl⟩, rfl, fun _ member => absurd member List.not_mem_nil⟩
  have transmitted : (freshTransport sampleHmac).answer ⟨sampleWorld, seen 2⟩
      (.transmit [] [dataReadCmd 5 3] false) () ⟨sent, seen 3⟩ := by
    have silent : ¬MacValid sampleHmac 9 [dataReadCmd 5 3] := by decide +kernel
    have emitted : sampleWorld.emit sampleHmac [dataReadCmd 5 3] = sampleWorld := if_neg silent
    refine ⟨⟨.transmit, ?_⟩, rfl, trivial⟩
    simp only [World.answer, emit_nil, emitted, sent]
  have served : (freshTransport sampleHmac).move ⟨sent, seen 3⟩ ⟨sent.sign sampleRead, seen 4⟩ := by
    have unforged : Unforged sampleHmac sent [dataReadCmd 5 3] := by decide +kernel
    refine ⟨⟨[dataReadCmd 5 3], 2, ?_⟩, rfl⟩
    simp only [World.deliver]
    rw [if_neg (not_not.mpr unforged), if_neg (by decide), if_neg (by decide), if_pos (by decide)]
    rfl
  have answered : (freshTransport sampleHmac).answer ⟨sent.sign sampleRead, seen 4⟩ (.receive 2)
      (.ok res) ⟨received, seen 5⟩ := by
    have unforged : Unforged sampleHmac (sent.sign sampleRead) (sealed sampleRead) := by
      decide +kernel
    refine ⟨⟨.receive (.ok (sealed sampleRead)), ?_⟩, rfl, trivial⟩
    simp only [World.answer]
    rw [dif_pos (by decide +kernel), if_pos unforged]
  have checked : (freshTransport sampleHmac).answer ⟨received, seen 5⟩
      (.mac 9 (rpmbMessage res.toList)) (some (sampleHmac 9 (rpmbMessage res.toList)))
      ⟨received.checkReceived, seen 6⟩ := ⟨⟨.mac true, rfl⟩, rfl, trivial⟩
  have accepted : ¬rpmbCheckResponse .dataRead res.toList
      (some (sampleHmac 9 (rpmbMessage res.toList))) (some 5) (some 3) < 0 := by decide +kernel
  have returns : Interaction.Runs (freshTransport sampleHmac) (rpmbRead (rpmbInit 9) 3 2)
      (.start sampleWorld) (0, some (res.toList.map (·.body.data)))
      ⟨received.checkReceived, seen 6⟩ := by
    refine .ask .refl drawn (.ask .refl transmitted (.ask (.single served) answered (.ask .refl checked ?_)))
    simp only [Interaction.bind]
    rw [if_neg accepted]
    exact .done .refl
  exact ⟨_, _, _, returns, rpmb_read_returns_device_contents _ _ _ _ _ rfl 3 2 (by decide) _ returns⟩

end Trusty.Storage.RpmbTransport
