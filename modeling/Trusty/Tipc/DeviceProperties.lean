import Trusty.Tipc.Device

/-!
# The table of endpoints stays consistent

A step of a thread keeps the table, the cookies and the list of handles in agreement,
whatever the others are at, and so does every run in which the device goes online
with each probe.
-/

namespace Trusty.Tipc

open List

open Function (update update_self update_of_ne)

/-!
## Addresses
-/

theorem addrToSlot_slotToAddr (slot : Slot) : (addrToSlot (slotToAddr slot)).toNat = slot.val := by
  have below : slot.val < 2 ^ 32 := by omega
  simp only [addrToSlot, slotToAddr, UInt32.add_sub_cancel]
  exact UInt32.toNat_ofNat_of_lt' below

theorem slotToAddr_ne_zero (slot : Slot) : slotToAddr slot ≠ 0 := by
  intro zero
  have is := congrArg UInt32.toNat zero
  simp only [slotToAddr, tipcAddrBase, UInt32.toNat_add, UInt32.toNat_ofNat, UInt32.toNat_ofNat'] at is
  omega

variable {addr : UInt32}

theorem eq_slotToAddr {slot : Slot} (is : (addrToSlot addr).toNat = slot.val) : addr = slotToAddr slot := by
  have same : addrToSlot addr = addrToSlot (slotToAddr slot) :=
    UInt32.toNat.inj (is.trans (addrToSlot_slotToAddr slot).symm)
  exact (UInt32.sub_left_inj tipcAddrBase).mp same

variable {remote : UInt32}

section Table

variable {dev : Dev} {slot : Slot} {chan : Chan}

theorem freeLocalAddr_slotToAddr (dev : Dev) (slot : Slot) : dev.freeLocalAddr (slotToAddr slot) = { dev with
        inuse := update dev.inuse slot false
        epts := update dev.epts slot ⟨0, none⟩ } := by
  have is := addrToSlot_slotToAddr slot
  have below : (addrToSlot (slotToAddr slot)).toNat < 256 := by omega
  have same : (⟨(addrToSlot (slotToAddr slot)).toNat, below⟩ : Slot) = slot := Fin.ext is
  rw [Dev.freeLocalAddr, dif_pos below, same]

theorem lookupEpt_eq_some (found : dev.lookupEpt addr = some slot) :
    addr = slotToAddr slot ∧ dev.inuse slot = true := by
  unfold Dev.lookupEpt at found
  split at found
  · rename_i below
    split at found
    · rename_i used
      cases found
      exact ⟨eq_slotToAddr rfl, used⟩
    · contradiction
  · contradiction

theorem lookupEpt_slotToAddr (used : dev.inuse slot = true) : dev.lookupEpt (slotToAddr slot) = some slot := by
  have is := addrToSlot_slotToAddr slot
  have below : (addrToSlot (slotToAddr slot)).toNat < 256 := by omega
  have same : (⟨(addrToSlot (slotToAddr slot)).toNat, below⟩ : Slot) = slot := Fin.ext is
  rw [Dev.lookupEpt, dif_pos below, same, if_pos used]

theorem bitmapFfz_eq_some (found : dev.bitmapFfz = some slot) : dev.inuse slot = false := by
  simpa using find?_some found

theorem findEpt_eq_some {target : UInt32} (found : dev.findEpt remote target = some slot) :
    dev.inuse slot = true ∧ (dev.epts slot).remote = remote := by
  have search : ∀ {slot}, dev.searchEpt remote = some slot →
      dev.inuse slot = true ∧ (dev.epts slot).remote = remote := by
    intro slot found
    have holds := find?_some found
    simpa using holds
  unfold Dev.findEpt at found
  split at found
  · rename_i other looked
    split at found
    · rename_i is
      cases found
      exact ⟨(lookupEpt_eq_some looked).2, is⟩
    · exact search found
  · exact search found

end Table

/-!
## What holds of the table
-/

def Rx.joins : Rx → Option Chan
  | .opened _ chan | .placed _ chan | .tagged chan => some chan
  | _ => none

/-- A channel in a slot has the slot as its cookie and is in the list, except for
the one that is being connected. -/
def Attached (dev : Dev) (rx : Option Rx) (slot : Slot) (chan : Chan) : Prop :=
  (dev.cookie chan = some slot ∧ chan ∈ dev.handleList) ∨
    ∃ thread, rx = some thread ∧ thread.joins = some chan

structure Wired (dev : Dev) (rx : Option Rx) (opened : Nat) : Prop where
  inuse : ∀ slot, dev.inuse slot = true ↔ (dev.epts slot).chan ≠ none
  own : ∀ {slot other chan}, (dev.epts slot).chan = some chan →
    (dev.epts other).chan = some chan → slot = other
  cookie : ∀ {chan slot}, dev.cookie chan = some slot → (dev.epts slot).chan = some chan
  listed : ∀ {chan}, chan ∈ dev.handleList → ∃ slot, dev.cookie chan = some slot
  nodup : dev.handleList.Nodup
  attached : ∀ {slot chan}, (dev.epts slot).chan = some chan → Attached dev rx slot chan
  known : ∀ {slot chan}, (dev.epts slot).chan = some chan → chan < opened
  opened : ∀ {remote chan}, rx = some (.opened remote chan) →
    chan < opened ∧ ∀ slot, (dev.epts slot).chan ≠ some chan
  placed : ∀ {addr chan}, rx = some (.placed addr chan) →
    ∃ slot, addr = slotToAddr slot ∧ (dev.epts slot).chan = some chan ∧
      dev.cookie chan = none ∧ chan ∉ dev.handleList
  tagged : ∀ {chan}, rx = some (.tagged chan) →
    ∃ slot, dev.cookie chan = some slot ∧ chan ∉ dev.handleList

section Wired

variable {dev : Dev} {rx : Option Rx} {opened : Nat} {slot : Slot} {chan : Chan}

theorem Wired.used (wired : Wired dev rx opened) (used : dev.inuse slot = true) :
    ∃ chan, (dev.epts slot).chan = some chan :=
  Option.ne_none_iff_exists'.mp ((wired.inuse slot).mp used)

theorem Wired.start : Wired .start none 0 :=
  ⟨fun _ => ⟨nofun, fun some => absurd rfl some⟩, nofun, nofun, nofun, .nil, nofun, nofun, nofun, nofun, nofun⟩

section

variable (wired : Wired dev rx opened)
include wired

theorem Wired.close (is : (dev.epts slot).chan = some chan)
    (apart : ∀ thread, rx = some thread → thread.joins ≠ some chan) :
    Wired ((dev.detach chan).freeLocalAddr (slotToAddr slot)) rx opened := by
  have stays : ∀ {other value}, (update dev.epts slot ⟨0, none⟩ other).chan = some value →
        other ≠ slot ∧ value ≠ chan ∧ (dev.epts other).chan = some value := by
    intro other value holds
    by_cases same : other = slot
    · rw [same, update_self] at holds
      contradiction
    rw [update_of_ne same] at holds
    refine ⟨same, ?_, holds⟩
    rintro rfl
    exact same (wired.own holds is)
  rw [freeLocalAddr_slotToAddr]
  constructor <;> dsimp only [Dev.detach]
  case inuse =>
    intro other
    by_cases same : other = slot
    · rw [same]
      simp
    · simpa [update_of_ne same] using wired.inuse other
  case own =>
    intro first second value left right
    exact wired.own (stays left).2.2 (stays right).2.2
  case cookie =>
    intro value other holds
    by_cases same : value = chan
    · rw [same, update_self] at holds
      contradiction
    rw [update_of_ne same] at holds
    have placed := wired.cookie holds
    have differs : other ≠ slot := by
      rintro rfl
      rw [is] at placed
      exact same (Option.some.inj placed).symm
    rw [update_of_ne differs]
    exact placed
  case listed =>
    intro value mem
    have before := (wired.nodup.mem_erase_iff).mp mem
    rw [update_of_ne before.1]
    exact wired.listed before.2
  case nodup => exact wired.nodup.erase chan
  case attached =>
    intro other value holds
    obtain ⟨_, differs, before⟩ := stays holds
    have erased : value ∈ dev.handleList.erase chan ↔ value ∈ dev.handleList := mem_erase_of_ne differs
    have kept := wired.attached before
    unfold Attached at kept ⊢
    dsimp only
    rw [update_of_ne differs, erased]
    exact kept
  case known =>
    intro other value holds
    exact wired.known (stays holds).2.2
  case opened =>
    intro remote value holds
    obtain ⟨below, free⟩ := wired.opened holds
    exact ⟨below, fun other placed => free other (stays placed).2.2⟩
  case placed =>
    intro addr value holds
    obtain ⟨other, addr, placed, uncooked, unlisted⟩ := wired.placed holds
    have apart : value ≠ chan := by
      rintro rfl
      exact apart _ holds rfl
    have differs : other ≠ slot := by
      rintro rfl
      rw [is] at placed
      exact apart (Option.some.inj placed).symm
    refine ⟨other, addr, ?_, ?_, fun mem => unlisted (mem_of_mem_erase mem)⟩
    · rw [update_of_ne differs]
      exact placed
    · rw [update_of_ne apart]
      exact uncooked
  case tagged =>
    intro value holds
    obtain ⟨other, cookie, unlisted⟩ := wired.tagged holds
    have differs : value ≠ chan := by
      rintro rfl
      exact apart _ holds rfl
    refine ⟨other, ?_, fun mem => unlisted (mem_of_mem_erase mem)⟩
    rw [update_of_ne differs]
    exact cookie

theorem Wired.rest {other : Option Rx} (before : ∀ thread, rx = some thread → thread.joins = none)
    (after : ∀ thread, other = some thread → thread.joins = none) : Wired dev other opened := by
  refine { wired with attached := ?_, opened := ?_, placed := ?_, tagged := ?_ }
  · intro slot chan is
    rcases wired.attached is with settled | joining
    · exact .inl settled
    · obtain ⟨thread, is, joins⟩ := joining
      rw [before thread is] at joins
      contradiction
  · exact fun is => nomatch after _ is
  · exact fun is => nomatch after _ is
  · exact fun is => nomatch after _ is

theorem Wired.loose (free : ∀ slot, (dev.epts slot).chan ≠ some chan) :
    dev.cookie chan = none ∧ chan ∉ dev.handleList := by
  have none : dev.cookie chan = none := by
    cases is : dev.cookie chan with
    | none => rfl
    | some slot => exact absurd (wired.cookie is) (free slot)
  refine ⟨none, fun mem => ?_⟩
  obtain ⟨slot, is⟩ := wired.listed mem
  rw [none] at is
  contradiction

theorem Wired.connReq (before : ∀ thread, rx = some thread → thread.joins = none)
    (remote : UInt32) : Wired dev (some (.opened remote opened)) (opened + 1) := by
  have rest : Wired dev none opened := wired.rest before nofun
  refine ⟨rest.inuse, rest.own, rest.cookie, rest.listed, rest.nodup, ?_, ?_, ?_, nofun, nofun⟩
  · intro slot chan is
    rcases rest.attached is with settled | joining
    · exact .inl settled
    · obtain ⟨thread, none, _⟩ := joining
      contradiction
  · exact fun is => Nat.lt_succ_of_lt (rest.known is)
  · intro other chan is
    obtain ⟨rfl, rfl⟩ := Rx.opened.inj (Option.some.inj is)
    exact ⟨Nat.lt_succ_self _, fun slot placed => lt_irrefl _ (rest.known placed)⟩

end

theorem Wired.alloc (wired : Wired dev (some (.opened remote chan)) opened) (free : dev.inuse slot = false) :
    Wired { dev with
      inuse := update dev.inuse slot true
      epts := update dev.epts slot ⟨remote, some chan⟩ }
      (some (.placed (slotToAddr slot) chan)) opened := by
  obtain ⟨below, new⟩ := wired.opened rfl
  obtain ⟨uncooked, unlisted⟩ := wired.loose new
  have holds : ∀ {other value}, (update dev.epts slot ⟨remote, some chan⟩ other).chan = some value →
      (other = slot ∧ value = chan) ∨ (other ≠ slot ∧ (dev.epts other).chan = some value) := by
    intro other value is
    by_cases same : other = slot
    · rw [same, update_self] at is
      exact .inl ⟨same, (Option.some.inj is).symm⟩
    · rw [update_of_ne same] at is
      exact .inr ⟨same, is⟩
  have unused : ∀ value, (dev.epts slot).chan ≠ some value := by
    intro value is
    have used := (wired.inuse slot).mpr (by rw [is]; exact nofun)
    rw [free] at used
    contradiction
  refine ⟨fun other => ?_, ?_, ?_, wired.listed, wired.nodup, ?_, ?_, nofun, ?_, nofun⟩ <;> dsimp only
  · by_cases same : other = slot
    · rw [same]
      simp
    · simpa [update_of_ne same] using wired.inuse other
  · intro first second value left right
    rcases holds left with own | placed
    · rcases holds right with also | placed
      · exact own.1.trans also.1.symm
      · exact absurd (own.2 ▸ placed.2) (new second)
    · rcases holds right with own | also
      · exact absurd (own.2 ▸ placed.2) (new first)
      · exact wired.own placed.2 also.2
  · intro value other is
    have placed := wired.cookie is
    have differs : other ≠ slot := fun same => unused value (same ▸ placed)
    rw [update_of_ne differs]
    exact placed
  · intro other value is
    rcases holds is with own | placed
    · obtain ⟨rfl, rfl⟩ := own
      exact .inr ⟨_, rfl, rfl⟩
    rcases wired.attached placed.2 with settled | joining
    · exact .inl settled
    obtain ⟨thread, is, joins⟩ := joining
    cases is
    cases joins
    exact absurd placed.2 (new other)
  · intro other value is
    rcases holds is with own | placed
    · rw [own.2]
      exact below
    · exact wired.known placed.2
  · intro addr value is
    obtain ⟨rfl, rfl⟩ := Rx.placed.inj (Option.some.inj is)
    exact ⟨slot, rfl, by rw [update_self], uncooked, unlisted⟩

theorem Wired.tag (wired : Wired dev (some (.placed addr chan)) opened) :
    Wired { dev with cookie := update dev.cookie chan (dev.lookupEpt addr) } (some (.tagged chan)) opened := by
  obtain ⟨slot, rfl, is, uncooked, unlisted⟩ := wired.placed rfl
  have used : dev.inuse slot = true := (wired.inuse slot).mpr (by rw [is]; exact nofun)
  rw [lookupEpt_slotToAddr used]
  refine ⟨wired.inuse, wired.own, ?_, ?_, wired.nodup, ?_, wired.known, nofun, nofun, ?_⟩ <;> dsimp only
  · intro value other holds
    by_cases same : value = chan
    · rw [same, update_self] at holds
      cases holds
      rw [same]
      exact is
    · rw [update_of_ne same] at holds
      exact wired.cookie holds
  · intro value mem
    by_cases same : value = chan
    · exact ⟨slot, by rw [same, update_self]⟩
    · rw [update_of_ne same]
      exact wired.listed mem
  · intro other value holds
    by_cases same : value = chan
    · exact .inr ⟨_, rfl, congrArg some same.symm⟩
    rcases wired.attached holds with settled | joining
    · left
      dsimp only
      rw [update_of_ne same]
      exact settled
    · obtain ⟨thread, is, joins⟩ := joining
      cases is
      exact absurd (Option.some.inj joins).symm same
  · intro value holds
    obtain rfl := Rx.tagged.inj (Option.some.inj holds)
    exact ⟨slot, by rw [update_self], unlisted⟩

theorem Wired.list (wired : Wired dev (some (.tagged chan)) opened) :
    Wired { dev with handleList := dev.handleList ++ [chan] } (some .idle) opened := by
  obtain ⟨slot, cookie, unlisted⟩ := wired.tagged rfl
  refine ⟨wired.inuse, wired.own, wired.cookie, ?_, ?_, ?_, wired.known, nofun, nofun, nofun⟩ <;> dsimp only
  · intro value mem
    rcases mem_append.mp mem with before | last
    · exact wired.listed before
    · exact ⟨slot, by rw [mem_singleton.mp last]; exact cookie⟩
  · refine nodup_append.mpr ⟨wired.nodup, nodup_singleton chan, ?_⟩
    rintro value mem other last rfl
    rw [mem_singleton.mp last] at mem
    exact unlisted mem
  intro other value holds
  left
  by_cases same : value = chan
  · subst same
    have is := wired.own holds (wired.cookie cookie)
    rw [is]
    exact ⟨cookie, mem_append_right _ mem_cons_self⟩
  rcases wired.attached holds with settled | joining
  · exact ⟨settled.1, mem_append_left _ settled.2⟩
  · obtain ⟨thread, is, joins⟩ := joining
    cases is
    exact absurd (Option.some.inj joins).symm same

end Wired

/-!
## Channels are closed once
-/

def Held (dev : Dev) (rx : Option Rx) (chan : Chan) : Prop :=
  (∃ slot, (dev.epts slot).chan = some chan) ∨ ∃ remote, rx = some (.opened remote chan)

structure Sound (core : Core) (rx : Option Rx) (tx : Option Tx) : Prop where
  wired : Wired core.dev rx core.opened
  closed : ∀ chan < core.opened,
    (Held core.dev rx chan ∧ core.closings.count chan = 0) ∨
      (¬Held core.dev rx chan ∧ core.closings.count chan = 1)
  fresh : ∀ chan, core.opened ≤ chan → core.closings.count chan = 0
  apart : ∀ chan event, tx = some (.woken chan event) → chan < core.opened ∧
    ∀ thread, rx = some thread → thread.joins ≠ some chan

variable {label : Label} {next : Core} {before after : Rx}

section Sound

variable {core : Core} {rx : Option Rx} {tx : Option Tx} {slot : Slot} {chan : Chan}

theorem Sound.close (sound : Sound core rx tx) (is : (core.dev.epts slot).chan = some chan)
    (apart : ∀ thread, rx = some thread → thread.joins ≠ some chan) : Sound (core.close slot chan) rx tx := by
  have known := sound.wired.known is
  have held : ∀ value, Held (core.close slot chan).dev rx value ↔ Held core.dev rx value ∧ value ≠ chan := by
    intro value
    simp only [Held, Core.close, freeLocalAddr_slotToAddr, Dev.detach]
    constructor
    · intro holds
      rcases holds with placed | opened
      · obtain ⟨other, placed⟩ := placed
        by_cases same : other = slot
        · rw [same, update_self] at placed
          contradiction
        rw [update_of_ne same] at placed
        refine ⟨.inl ⟨other, placed⟩, ?_⟩
        rintro rfl
        exact same (sound.wired.own placed is)
      · obtain ⟨remote, opened⟩ := opened
        refine ⟨.inr ⟨remote, opened⟩, ?_⟩
        rintro rfl
        exact apart _ opened rfl
    · rintro ⟨holds, differs⟩
      rcases holds with placed | opened
      · obtain ⟨other, placed⟩ := placed
        have apart : other ≠ slot := by
          rintro rfl
          rw [is] at placed
          exact differs (Option.some.inj placed).symm
        exact .inl ⟨other, by rw [update_of_ne apart]; exact placed⟩
      · exact .inr opened
  constructor
  case wired =>
    dsimp only [Core.close]
    exact sound.wired.close is apart
  case apart =>
    dsimp only [Core.close]
    exact sound.apart
  case closed =>
    intro value below
    rw [held value]
    dsimp only [Core.close] at below ⊢
    by_cases same : value = chan
    · subst same
      have before : Held core.dev rx value := .inl ⟨slot, is⟩
      rcases sound.closed value known with open' | gone
      · simp [open'.2]
      · exact absurd before gone.1
    · have differs : ¬ chan = value := fun equal => same equal.symm
      simpa [same, differs] using sound.closed value below
  case fresh =>
    intro value above
    dsimp only [Core.close] at above ⊢
    have differs : ¬chan = value := by
      rintro rfl
      exact absurd known (Nat.not_lt.mpr above)
    simpa [count_cons, differs] using sound.fresh value above

theorem Sound.rest {other : Option Rx} (sound : Sound core rx tx)
    (before : ∀ thread, rx = some thread → thread.joins = none)
    (after : ∀ thread, other = some thread → thread.joins = none) : Sound core other tx := by
  have held : ∀ value, Held core.dev other value ↔ Held core.dev rx value := by
    intro value
    refine or_congr_right ⟨?_, ?_⟩
    · rintro ⟨remote, is⟩
      nomatch after _ is
    · rintro ⟨remote, is⟩
      nomatch before _ is
  refine ⟨sound.wired.rest before after, fun value below => ?_, sound.fresh, fun value event is =>
    ⟨(sound.apart value event is).1, fun thread is joins => ?_⟩⟩
  · rw [held value]
    exact sound.closed value below
  · rw [after thread is] at joins
    contradiction

theorem Sound.connReq (sound : Sound core (some .idle) tx) (remote : UInt32) :
    Sound { core with opened := core.opened + 1 } (some (.opened remote core.opened)) tx := by
  have held : ∀ value, value ≠ core.opened → (Held core.dev (some (.opened remote core.opened)) value ↔
        Held core.dev (some .idle) value) := by
    intro value differs
    refine or_congr_right ⟨?_, ?_⟩
    · rintro ⟨other, is⟩
      exact absurd (Rx.opened.inj (Option.some.inj is)).2.symm differs
    · rintro ⟨other, is⟩
      nomatch Option.some.inj is
  refine ⟨sound.wired.connReq (by rintro _ ⟨⟩; rfl) remote, fun value below => ?_,
    fun value above => sound.fresh value (Nat.le_of_succ_le above), fun value event is => ?_⟩
  · by_cases new : value = core.opened
    · left
      rw [new]
      exact ⟨.inr ⟨remote, rfl⟩, sound.fresh _ le_rfl⟩
    · dsimp only at below
      rw [held value new]
      exact sound.closed value (by omega)
  · have below := (sound.apart value event is).1
    refine ⟨Nat.lt_succ_of_lt below, ?_⟩
    rintro _ ⟨⟩ joins
    cases joins
    exact lt_irrefl _ below

theorem Sound.place (sound : Sound core (some (.opened remote chan)) tx) :
    Sound (core.place remote chan).1 (some (core.place remote chan).2) tx := by
  obtain ⟨known, new⟩ := sound.wired.opened rfl
  unfold Core.place Dev.allocLocalAddr
  cases found : core.dev.bitmapFfz with
  | none =>
    -- the table is full, and the channel is closed
    have held : ∀ value, Held core.dev (some (.refusing 0 remote)) value ↔
        Held core.dev (some (.opened remote chan)) value ∧ value ≠ chan := by
      intro value
      constructor
      · intro holds
        rcases holds with placed | opened
        · refine ⟨.inl placed, ?_⟩
          rintro rfl
          obtain ⟨slot, placed⟩ := placed
          exact new slot placed
        · obtain ⟨other, is⟩ := opened
          nomatch Option.some.inj is
      · rintro ⟨holds, differs⟩
        rcases holds with placed | opened
        · exact .inl placed
        · obtain ⟨other, is⟩ := opened
          exact absurd (Rx.opened.inj (Option.some.inj is)).2.symm differs
    dsimp only
    rw [if_pos rfl]
    refine ⟨?_, fun value below => ?_, fun value above => ?_, fun value event is => ?_⟩
    · refine { sound.wired with attached := ?_, opened := nofun, placed := nofun, tagged := nofun }
      intro slot value is
      rcases sound.wired.attached is with settled | joining
      · exact .inl settled
      obtain ⟨thread, same, joins⟩ := joining
      cases same
      cases joins
      exact absurd is (new slot)
    · rw [held value, count_cons]
      by_cases same : value = chan
      · subst same
        have before : Held core.dev (some (.opened remote value)) value := .inr ⟨remote, rfl⟩
        rcases sound.closed value known with kept | gone
        · simp [kept.2]
        · exact absurd before gone.1
      · have differs : ¬ chan = value := fun equal => same equal.symm
        simpa [same, differs] using sound.closed value below
    · have differs : ¬chan = value := by
        rintro rfl
        exact absurd known (Nat.not_lt.mpr above)
      simpa [count_cons, differs] using sound.fresh value above
    · exact ⟨(sound.apart value event is).1, by rintro _ ⟨⟩; exact nofun⟩
  | some slot =>
  have free := bitmapFfz_eq_some found
  have empty : (core.dev.epts slot).chan = none := by
    cases is : (core.dev.epts slot).chan with
    | none => rfl
    | some value =>
    have used := (sound.wired.inuse slot).mpr (by rw [is]; exact nofun)
    rw [free] at used
    contradiction
  have held : ∀ value, Held { core.dev with
        inuse := update core.dev.inuse slot true
        epts := update core.dev.epts slot ⟨remote, some chan⟩ }
        (some (.placed (slotToAddr slot) chan)) value ↔
      Held core.dev (some (.opened remote chan)) value := by
    intro value
    constructor
    · intro holds
      rcases holds with placed | opened
      · obtain ⟨other, placed⟩ := placed
        dsimp only at placed
        by_cases same : other = slot
        · rw [same, update_self] at placed
          cases placed
          exact .inr ⟨remote, rfl⟩
        · rw [update_of_ne same] at placed
          exact .inl ⟨other, placed⟩
      · obtain ⟨other, is⟩ := opened
        nomatch Option.some.inj is
    · intro holds
      rcases holds with placed | opened
      · obtain ⟨other, placed⟩ := placed
        have differs : other ≠ slot := by
          rintro rfl
          rw [empty] at placed
          contradiction
        exact .inl ⟨other, by dsimp only; rw [update_of_ne differs]; exact placed⟩
      · obtain ⟨other, is⟩ := opened
        obtain ⟨rfl, rfl⟩ := Rx.opened.inj (Option.some.inj is)
        exact .inl ⟨slot, by dsimp only; rw [update_self]⟩
  dsimp only
  rw [if_neg (slotToAddr_ne_zero slot)]
  refine ⟨sound.wired.alloc free, fun value below => ?_, sound.fresh, fun value event is => ?_⟩
  · rw [held value]
    exact sound.closed value below
  · obtain ⟨below, apart⟩ := sound.apart value event is
    exact ⟨below, by rintro _ ⟨⟩; exact apart (.opened remote chan) rfl⟩

theorem Sound.joined {dev : Dev} (sound : Sound core (some before) tx) (wired : Wired dev (some after) core.opened)
    (same : dev.epts = core.dev.epts) (late : ∀ remote chan, before ≠ .opened remote chan ∧ after ≠ .opened remote chan)
    (joins : after.joins = before.joins ∨ after.joins = none) : Sound { core with dev := dev } (some after) tx := by
  have held : ∀ value, Held dev (some after) value ↔ Held core.dev (some before) value := by
    intro value
    unfold Held
    rw [same]
    refine or_congr_right ⟨?_, ?_⟩
    · rintro ⟨remote, is⟩
      exact absurd (Option.some.inj is) (late remote value).2
    · rintro ⟨remote, is⟩
      exact absurd (Option.some.inj is) (late remote value).1
  refine ⟨wired, fun value below => ?_, sound.fresh, fun value event is => ?_⟩
  · rw [held value]
    exact sound.closed value below
  obtain ⟨below, apart⟩ := sound.apart value event is
  refine ⟨below, ?_⟩
  rintro _ ⟨⟩
  rcases joins with kept | none
  · rw [kept]
    exact apart _ rfl
  · rw [none]
    exact nofun

theorem idle_joins : ∀ thread, some Rx.idle = some thread → thread.joins = none := by
  rintro _ ⟨⟩
  rfl

theorem refusing_joins (addr remote : UInt32) :
    ∀ thread, some (Rx.refusing addr remote) = some thread → thread.joins = none := by
  rintro _ ⟨⟩
  rfl

theorem Sound.discReq (sound : Sound core (some .idle) tx) (remote target : UInt32) :
    Sound (core.discReq remote target) (some .idle) tx := by
  unfold Core.discReq
  split
  · rename_i slot found
    obtain ⟨used, _⟩ := findEpt_eq_some found
    obtain ⟨chan, is⟩ := sound.wired.used used
    rw [is]
    refine sound.close is fun thread is joins => ?_
    rw [idle_joins thread is] at joins
    contradiction
  · exact sound

theorem Sound.chanMsg (sound : Sound core (some .idle) tx) (remote addr : UInt32) :
    Sound (core.chanMsg remote addr) (some .idle) tx := by
  unfold Core.chanMsg
  split
  · split
    · split
      · exact { sound with }
      · exact sound
    · exact sound
  · exact sound

theorem Sound.rxStep (sound : Sound core (some before) tx)
    (step : RxStep core before label next after) : Sound next (some after) tx := by
  cases step with
  | connReq => exact sound.connReq _
  | noPort => exact sound.rest idle_joins (refusing_joins _ _)
  | place => exact sound.place
  | tag => exact sound.joined sound.wired.tag rfl (fun _ _ => ⟨nofun, nofun⟩) (.inl rfl)
  | list => exact sound.joined sound.wired.list rfl (fun _ _ => ⟨nofun, nofun⟩) (.inr rfl)
  | refuse | lost => exact sound.rest (refusing_joins _ _) idle_joins
  | discReq => exact sound.discReq _ _
  | chanMsg => exact sound.chanMsg _ _

theorem Sound.released {other : Option Tx} (sound : Sound core rx tx)
    (after : ∀ chan event, other ≠ some (.woken chan event)) : Sound core rx other :=
  { sound with apart := fun chan event is => absurd is (after chan event) }

theorem Sound.hup (sound : Sound core rx (some (.woken chan .hup))) :
    Sound (core.hup chan).1 rx (some (core.hup chan).2) := by
  unfold Core.hup
  split
  · rename_i slot cookie
    have closed := sound.close (sound.wired.cookie cookie) (sound.apart chan .hup rfl).2
    exact closed.released fun _ _ => nofun
  · exact sound.released fun _ _ => nofun

theorem Sound.txStep {before after : Tx} (sound : Sound core rx (some before))
    (step : TxStep core before label next after) : Sound next rx (some after) := by
  cases step with
  | @wake chan event listed =>
    refine { sound with apart := fun value poll is => ?_ }
    obtain ⟨rfl, rfl⟩ := Tx.woken.inj (Option.some.inj is)
    obtain ⟨slot, cookie⟩ := sound.wired.listed listed
    have held := sound.wired.cookie cookie
    refine ⟨sound.wired.known held, fun thread running joins => ?_⟩
    -- a channel that is being connected is not in the list yet
    cases thread with
    | opened remote chan =>
      cases joins
      exact (sound.wired.opened running).2 slot held
    | placed addr chan =>
      cases joins
      obtain ⟨_, _, _, _, unlisted⟩ := sound.wired.placed running
      exact unlisted listed
    | tagged chan =>
      cases joins
      obtain ⟨_, _, unlisted⟩ := sound.wired.tagged running
      exact unlisted listed
    | idle | refusing => contradiction
  | ready =>
    unfold Core.ready
    split <;> exact sound.released fun _ _ => nofun
  | msg =>
    unfold Core.txMsg
    split <;> exact sound.released fun _ _ => nofun
  | hup => exact sound.hup
  | other | respond | unanswered | disconnect | unnoticed | forward | drained =>
  exact sound.released fun _ _ => nofun

theorem Sound.resetSlot (sound : Sound core none tx) (slot : Slot) : Sound (core.resetSlot slot) none tx := by
  unfold Core.resetSlot
  split
  · rename_i used
    obtain ⟨chan, is⟩ := sound.wired.used used
    rw [is]
    exact sound.close is nofun
  · exact sound

theorem resetSlot_inuse (sound : Sound core none tx) (slot other : Slot) :
    (core.resetSlot slot).dev.inuse other = (core.dev.inuse other && other != slot) := by
  unfold Core.resetSlot
  split
  · rename_i used
    obtain ⟨chan, is⟩ := sound.wired.used used
    rw [is]
    simp only [Core.close, freeLocalAddr_slotToAddr, Dev.detach]
    by_cases same : other = slot
    · simp [same]
    · simp [same]
  · rename_i unused
    by_cases same : other = slot
    · simpa [same] using unused
    · simp [same]

theorem Sound.resetSlots (sound : Sound core none tx) (slots : List Slot) :
    Sound (slots.foldl Core.resetSlot core) none tx ∧ ∀ slot, (slots.foldl Core.resetSlot core).dev.inuse slot = true →
        core.dev.inuse slot = true ∧ slot ∉ slots := by
  induction slots generalizing core with
  | nil => exact ⟨sound, fun slot used => ⟨used, nofun⟩⟩
  | cons first rest ih =>
  obtain ⟨kept, free⟩ := ih (sound.resetSlot first)
  refine ⟨kept, fun slot used => ?_⟩
  obtain ⟨before, apart⟩ := free slot used
  rw [resetSlot_inuse sound first slot] at before
  simp only [Bool.and_eq_true, bne_iff_ne, ne_eq] at before
  exact ⟨before.1, fun mem => (mem_cons.mp mem).elim before.2 apart⟩

end Sound

def Dev.Empty (dev : Dev) : Prop := ∀ slot, dev.inuse slot = false

theorem Sound.resetAll {core : Core} {tx : Option Tx} (sound : Sound core none tx) :
    Sound core.resetAll none tx ∧ core.resetAll.dev.Empty := by
  obtain ⟨kept, free⟩ := sound.resetSlots (List.finRange 256)
  unfold Core.resetAll
  refine ⟨kept, fun slot => ?_⟩
  apply Bool.eq_false_iff.mpr
  exact fun used => (free slot used).2 (mem_finRange slot)

theorem txStep_empty {core : Core} {before after : Tx}
    (empty : core.dev.Empty) (step : TxStep core before label next after) : next.dev.Empty := by
  cases step with
  | @hup chan =>
    unfold Core.hup
    split
    · rename_i slot _
      intro other
      simp only [Core.close, freeLocalAddr_slotToAddr, Dev.detach]
      by_cases same : other = slot
      · rw [same, update_self]
      · rw [update_of_ne same]
        exact empty other
    · exact empty
  | _ => exact empty

/-!
## Runs
-/

def System.Quiet (system : System) : Prop :=
  system.rx system.probes = none ∧ system.tx system.probes = none ∧ system.core.dev.Empty

def System.Progress (system : System) : Prop :=
  match system.caller with
  | .idle => system.active = false → system.Quiet
  | .probing | .joiningRx => True
  | .closing => system.rx system.probes = none
  | .joiningTx => system.rx system.probes = none ∧ system.core.dev.Empty
  | .returned => system.Quiet

structure Valid (system : System) : Prop where
  others : ∀ id, id ≠ system.probes → system.rx id = none ∧ system.tx id = none
  sound : Sound system.core (system.rx system.probes) (system.tx system.probes)
  progress : system.Progress

theorem Valid.start : Valid .start := by
  refine ⟨fun _ _ => ⟨rfl, rfl⟩, ⟨Wired.start, nofun, fun _ _ => rfl, nofun⟩, ?_⟩
  exact fun _ => ⟨rfl, rfl, fun _ => rfl⟩

section Valid

variable {system : System}

section

variable (valid : Valid system)
include valid

theorem Valid.current {id : Nat} : (∀ thread, system.rx id = some thread → id = system.probes) ∧
      ∀ thread, system.tx id = some thread → id = system.probes := by
  constructor <;>
  · intro thread is
    by_contra other
    simp [valid.others id other] at is

theorem Valid.rx {core : Core} {id : Nat} (is : system.rx id = some before) {after : Option Rx}
    (keeps : Sound system.core (some before) (system.tx system.probes) → Sound core after (system.tx system.probes)) :
    Valid { system with core := core, rx := update system.rx id after } := by
  obtain rfl := valid.current.1 before is
  have sound := valid.sound
  have progress := valid.progress
  rw [is] at sound
  unfold System.Progress System.Quiet at progress
  rw [is] at progress
  refine ⟨fun other differs => ?_, ?_, ?_⟩
  · dsimp only at differs ⊢
    rw [update_of_ne differs]
    exact valid.others other differs
  · dsimp only
    rw [update_self]
    exact keeps sound
  generalize system.caller = caller at progress ⊢
  cases caller with
  | idle => exact fun reset => absurd (progress reset).1 nofun
  | probing | joiningRx => exact trivial
  | closing => contradiction
  | joiningTx | returned => nomatch progress.1

theorem Valid.tx {before : Tx} {core : Core} {id : Nat} (is : system.tx id = some before) {after : Option Tx}
    (keeps : Sound system.core (system.rx system.probes) (some before) → Sound core (system.rx system.probes) after)
    (empty : system.core.dev.Empty → core.dev.Empty) :
    Valid { system with core := core, tx := update system.tx id after } := by
  obtain rfl := valid.current.2 before is
  have sound := valid.sound
  have progress := valid.progress
  rw [is] at sound
  unfold System.Progress System.Quiet at progress
  rw [is] at progress
  refine ⟨fun other differs => ?_, ?_, ?_⟩
  · dsimp only at differs ⊢
    rw [update_of_ne differs]
    exact valid.others other differs
  · dsimp only
    rw [update_self]
    exact keeps sound
  generalize system.caller = caller at progress ⊢
  cases caller with
  | idle => exact fun reset => absurd (progress reset).2.1 nofun
  | probing | joiningRx => exact trivial
  | closing => exact progress
  | joiningTx => exact ⟨progress.1, empty progress.2⟩
  | returned => nomatch progress.2.1

theorem Valid.quiet (is : system.caller = .idle) (reset : system.active = false) : system.Quiet := by
  have progress := valid.progress
  unfold System.Progress at progress
  rw [is] at progress
  exact progress reset

theorem Valid.probe (is : system.caller = .idle) (reset : system.active = false) : Valid { system with
      probes := system.probes + 1
      rx := update system.rx (system.probes + 1) (some .idle)
      tx := update system.tx (system.probes + 1) (some .waiting)
      caller := .probing } := by
  obtain ⟨noRx, noTx, _⟩ := valid.quiet is reset
  have sound := valid.sound
  rw [noRx, noTx] at sound
  refine ⟨fun id differs => ?_, ?_, trivial⟩
  · dsimp only at differs ⊢
    rw [update_of_ne differs, update_of_ne differs]
    by_cases last : id = system.probes
    · rw [last]
      exact ⟨noRx, noTx⟩
    · exact valid.others id last
  · dsimp only
    rw [update_self, update_self]
    exact (sound.rest nofun idle_joins).released nofun

end

theorem Valid.step {after : System} (valid : Valid system) (step : Step false system label after) : Valid after := by
  have progress := valid.progress
  unfold System.Progress at progress
  cases step with
  | rx id is step => exact valid.rx is fun sound => sound.rxStep step
  | rxExit id is => exact valid.rx is fun sound => sound.rest idle_joins nofun
  | tx id is step => exact valid.tx is (fun sound => sound.txStep step) (txStep_empty · step)
  | txExit id is => exact valid.tx is (fun sound => sound.released nofun) fun empty => empty
  | probe is reset => exact valid.probe is reset
  | online is => exact ⟨valid.others, valid.sound, nofun⟩
  | offline allowed => contradiction
  | resetIdle is reset => exact ⟨valid.others, valid.sound, valid.quiet is reset⟩
  | reset is active => exact ⟨valid.others, valid.sound, trivial⟩
  | joinedRx is gone => exact ⟨valid.others, valid.sound, gone⟩
  | close is =>
    rw [is] at progress
    have sound := valid.sound
    rw [progress] at sound
    obtain ⟨kept, empty⟩ := sound.resetAll
    exact ⟨valid.others, by dsimp only; rw [progress]; exact kept, progress, empty⟩
  | joinedTx is gone =>
    rw [is] at progress
    exact ⟨valid.others, valid.sound, progress.1, gone, progress.2⟩
  | «return» is =>
  rw [is] at progress
  exact ⟨valid.others, valid.sound, fun _ => progress⟩

end Valid

theorem Reached.valid {system : System} (reached : Reached false system) : Valid system := by
  induction reached with
  | start => exact Valid.start
  | step _ step valid => exact valid.step step

/-!
## Data goes to its endpoint
-/

def Sent.Addressed (sent : Sent) (dev : Dev) : Prop :=
  ∃ slot, slotToAddr slot = sent.dst ∧ dev.inuse slot = true ∧
    dev.epts slot = ⟨sent.src, some sent.chan⟩

theorem close_sends (core : Core) (slot : Slot) (chan : Chan) : (core.close slot chan).sends = core.sends := by
  simp only [Core.close]

theorem rxStep_sends {core : Core} (step : RxStep core before label next after) : next.sends = core.sends ∨
      ∃ sent : Sent, next.sends = sent :: core.sends ∧ sent.Addressed core.dev := by
  cases step with
  | place =>
    left
    unfold Core.place
    dsimp only
    split <;> rfl
  | discReq =>
    left
    unfold Core.discReq
    split
    · split
      · exact close_sends ..
      · simp only
    · rfl
  | @chanMsg remote addr payload =>
    unfold Core.chanMsg
    split
    · rename_i slot found
      split
      · rename_i same
        split
        · rename_i chan is
          obtain ⟨addr, used⟩ := lookupEpt_eq_some found
          refine .inr ⟨_, rfl, slot, addr.symm, used, ?_⟩
          rw [← same, ← is]
        · exact .inl rfl
      · exact .inl rfl
    · exact .inl rfl
  | _ => exact .inl rfl

theorem txStep_sends {core : Core} {before after : Tx}
    (step : TxStep core before label next after) : next.sends = core.sends := by
  cases step with
  | hup =>
    unfold Core.hup
    split
    · exact close_sends ..
    · rfl
  | _ => rfl

theorem resetSlots_sends (slots : List Slot) (core : Core) : (slots.foldl Core.resetSlot core).sends = core.sends := by
  induction slots generalizing core with
  | nil => rfl
  | cons slot rest ih =>
  rw [foldl_cons, ih]
  unfold Core.resetSlot
  split
  · split
    · exact close_sends ..
    · rfl
  · rfl

theorem step_sends {offline : Bool} {system after : System} {sent : Sent} (step : Step offline system label after)
    (sends : after.core.sends = sent :: system.core.sends) : sent.Addressed system.core.dev := by
  have same : after.core.sends ≠ system.core.sends := by
    rw [sends]
    exact cons_ne_self _ _
  cases step with
  | rx id is step =>
    rcases rxStep_sends step with kept | new
    · contradiction
    · obtain ⟨other, is, addressed⟩ := new
      obtain ⟨rfl, _⟩ := cons.inj (is.symm.trans sends)
      exact addressed
  | tx id is step => exact absurd (txStep_sends step) same
  | close => exact absurd (resetSlots_sends _ _) same
  | _ => exact absurd rfl same

/-!
## The device
-/

def System.Holds (system : System) (chan : Chan) : Prop :=
  (∃ slot, (system.core.dev.epts slot).chan = some chan) ∨
    ∃ id remote, system.rx id = some (.opened remote chan)

structure Consistent (offline : Bool) (system : System) : Prop where
  inuse : ∀ slot,
    system.core.dev.inuse slot = true ↔ (system.core.dev.epts slot).chan ≠ none
  own : ∀ slot other chan, (system.core.dev.epts slot).chan = some chan →
    (system.core.dev.epts other).chan = some chan → slot = other
  listed : ∀ chan ∈ system.core.dev.handleList, ∃ slot,
    system.core.dev.cookie chan = some slot ∧ (system.core.dev.epts slot).chan = some chan
  closed : ∀ chan < system.core.opened,
    (system.Holds chan ∧ system.core.closings.count chan = 0) ∨
      (¬system.Holds chan ∧ system.core.closings.count chan = 1)
  sends : ∀ label after sent, Step offline system label after →
    after.core.sends = sent :: system.core.sends → sent.Addressed system.core.dev
  reset : system.caller = .returned → ∀ slot, system.core.dev.inuse slot = false

/-- If every probe goes online, the table is consistent whatever the order of
requests, events, probes and resets. -/
theorem Reached.slots_consistent {system : System} (reached : Reached false system) : Consistent false system := by
  have valid := reached.valid
  have wired := valid.sound.wired
  refine ⟨wired.inuse, fun _ _ _ => wired.own, fun chan mem => ?_, fun chan below => ?_,
    fun _ _ _ step => step_sends step, fun is => ?_⟩
  · obtain ⟨slot, cookie⟩ := wired.listed mem
    exact ⟨slot, cookie, wired.cookie cookie⟩
  · have holds : system.Holds chan ↔ Held system.core.dev (system.rx system.probes) chan := by
      refine or_congr_right ⟨?_, ?_⟩
      · rintro ⟨id, remote, is⟩
        obtain rfl := valid.current.1 _ is
        exact ⟨remote, is⟩
      · rintro ⟨remote, is⟩
        exact ⟨_, remote, is⟩
    rw [holds]
    exact valid.sound.closed chan below
  · have progress := valid.progress
    unfold System.Progress at progress
    rw [is] at progress
    exact progress.2.2

/-!
### A device that did not go online
-/

def probed (active : Bool) : System :=
  { System.start with
    probes := 1
    rx := update (fun _ => none) 1 (some .idle)
    tx := update (fun _ => none) 1 (some .waiting)
    active := active }

theorem probed_online : Reached false (probed true) := .step (.step .start (.probe rfl rfl)) (.online rfl)

theorem probed_offline : Reached true (probed false) := .step (.step .start (.probe rfl rfl)) (.offline rfl rfl)

theorem ffz_start : Dev.start.bitmapFfz = some 0 := by
  rfl

theorem Reached.connects {offline active : Bool} (reached : Reached offline (probed active)) :
    ∃ system, Reached offline system ∧ system.caller = .idle ∧ system.active = active ∧
      system.core.dev.inuse 0 = true := by
  have request : RxStep (probed active).core .idle (.receive (.connReq 1024)) _ _ := .connReq
  have opened := reached.step (.rx 1 rfl request)
  have placed := opened.step (.rx 1 rfl .place)
  refine ⟨_, placed, rfl, rfl, ?_⟩
  simp only [Core.place, Dev.allocLocalAddr, probed, System.start, ffz_start, slotToAddr_ne_zero, if_false]
  rfl

theorem connected_consistent : ∃ system, Reached false system ∧
    system.core.dev.inuse 0 = true ∧ Consistent false system := by
  obtain ⟨system, reached, _, _, used⟩ := Reached.connects probed_online
  exact ⟨system, reached, used, reached.slots_consistent⟩

/-- A device that failed to go online still takes requests, and its reset leaves
the slots as they are. -/
theorem reset_leaves_slots : ∃ system, Reached true system ∧ system.caller = .returned ∧
    system.core.dev.inuse 0 = true := by
  obtain ⟨system, reached, idle, inactive, used⟩ := Reached.connects probed_offline
  exact ⟨_, reached.step (.resetIdle idle inactive), rfl, used⟩

end Trusty.Tipc
