import Trusty.Storage.SuperHistory

/-! Which super block a load selects, over whole histories. -/

namespace Trusty.Storage.SuperHistory

open Function (update update_of_ne)

def IsVersion (value : UInt32) : Prop :=
  value = 0 ∨ value = 1 ∨ value = 2 ∨ value = 3

theorem isVersion_mask (value : UInt32) : IsVersion (value &&& superBlockFlagsVersionMask) := by
  have bounded : (value &&& superBlockFlagsVersionMask).toNat ≤ 3 := by
    exact Nat.and_le_right
  simp only [IsVersion, ← UInt32.toNat_inj]
  change _ = 0 ∨ _ = 1 ∨ _ = 2 ∨ _ = 3
  omega

private theorem narrow_widen {size : UInt32} (bounded : size ≤ 16) : size.toUInt8.toUInt32 = size := by
  have small : size.toNat ≤ 16 := bounded
  rw [← UInt32.toNat_inj, UInt8.toNat_toUInt32, UInt32.toNat_toUInt8]
  omega

/-- What every slot of a history satisfies: it is rejected, or it was written
by a commit for the slot it is in. -/
structure SlotOk (dev : BlockDevice) (index : Fin 2) (super : SuperBlock) : Prop where
  version : superBlockValid dev super = true → IsVersion super.flags
  placed : superBlockValid dev super = true → slotOf super.flags = index
  current : superBlockValid dev super = true → super.fsVersion = superBlockFsVersion

variable {dev : BlockDevice}

theorem slotOk_of_invalid {index : Fin 2} {super : SuperBlock}
    (invalid : superBlockValid dev super = false) : SlotOk dev index super := by
  constructor <;> intro valid <;> simp [invalid] at valid

variable {slots : SuperSlots}

theorem selectSuper_eq (zeroOk : SlotOk dev 0 (slots 0)) (oneOk : SlotOk dev 1 (slots 1)) :
    selectSuper dev slots = if superBlockValid dev (slots 0) then
        if superBlockValid dev (slots 1) ∧ ((slots 1).flags - (slots 0).flags) &&& superBlockFlagsVersionMask = 1 then
          some (slots 1)
        else some (slots 0)
      else if superBlockValid dev (slots 1) then some (slots 1) else none := by
  have zeroIndex : superBlockValid dev (slots 0) = true →
      (slots 0).flags &&& superBlockFlagsBlockIndexMask = UInt32.ofNat (0 : Fin 2).val := by
    intro valid
    have placed := zeroOk.placed valid
    rcases zeroOk.version valid with same | same | same | same <;> rw [same] at placed ⊢ <;> revert placed <;> decide
  have oneIndex : superBlockValid dev (slots 1) = true →
      (slots 1).flags &&& superBlockFlagsBlockIndexMask = UInt32.ofNat (1 : Fin 2).val := by
    intro valid
    have placed := oneOk.placed valid
    rcases oneOk.version valid with same | same | same | same <;> rw [same] at placed ⊢ <;> revert placed <;> decide
  cases zeroValid : superBlockValid dev (slots 0) with
  | false =>
    cases oneValid : superBlockValid dev (slots 1) with
    | false => simp [selectSuper, considerSuper, useNewSuper, zeroValid, oneValid]
    | true =>
    simp [selectSuper, considerSuper, useNewSuper, zeroValid, oneValid, oneIndex oneValid]
  | true =>
  cases oneValid : superBlockValid dev (slots 1) with
  | false =>
    simp [selectSuper, considerSuper, useNewSuper, zeroValid, oneValid, zeroIndex zeroValid]
  | true =>
  simp [selectSuper, considerSuper, useNewSuper, zeroValid, oneValid, zeroIndex zeroValid, oneIndex oneValid]

theorem selectSuper_some {block : SuperBlock} (slotsOk : ∀ index, SlotOk dev index (slots index))
    (selected : selectSuper dev slots = some block) :
    superBlockValid dev block = true ∧ slots (slotOf block.flags) = block := by
  rw [selectSuper_eq (slotsOk 0) (slotsOk 1)] at selected
  have placed : ∀ index, superBlockValid dev (slots index) = true → slots index = block →
      superBlockValid dev block = true ∧ slots (slotOf block.flags) = block := by
    rintro index valid rfl
    exact ⟨valid, congrArg slots ((slotsOk index).placed valid)⟩
  split at selected
  · next zeroValid =>
      split at selected
      · next newer => exact placed 1 newer.1 (Option.some.inj selected)
      · exact placed 0 zeroValid (Option.some.inj selected)
  · split at selected
    · next oneValid => exact placed 1 oneValid (Option.some.inj selected)
    · cases selected

theorem selectSuper_none (slotsOk : ∀ index, SlotOk dev index (slots index)) (unselected : selectSuper dev slots = none)
    (index : Fin 2) : superBlockValid dev (slots index) = false := by
  rw [selectSuper_eq (slotsOk 0) (slotsOk 1)] at unselected
  split at unselected
  · split at unselected <;> cases unselected
  next zeroInvalid =>
  split at unselected
  · cases unselected
  next oneInvalid =>
  have which : index = 0 ∨ index = 1 := by omega
  rcases which with rfl | rfl
  · simpa using zeroInvalid
  · simpa using oneInvalid

/-- The closing assertions of `fs_init_from_super`. -/
structure SizesOk (dev : BlockDevice) (fs : Fs) : Prop where
  sameDev : fs.dev = dev
  blockNumLower : dev.blockNumSize ≤ fs.blockNumSize
  blockNumUpper : fs.blockNumSize ≤ 8
  macLower : dev.macSize ≤ fs.macSize
  macUpper : fs.macSize ≤ 16
  macFull : fs.macSize = 16 ∨ dev.tamperDetecting = true

/-- The version of a mounted file system. Without a super block to load the
field keeps the value it had. -/
def mountedVersion (initial : UInt32) (super : Option SuperBlock) (clear : Bool) : UInt32 :=
  if clear then initial
  else (super.map fun block => block.flags &&& superBlockFlagsVersionMask).getD initial

theorem fsInitFromSuper_mounted {fs mounted : Fs} {super : Option SuperBlock} {clear : Bool}
    (result : fsInitFromSuper fs super clear = .mounted mounted) :
    SizesOk fs.dev mounted ∧
      mounted.superBlockVersion = mountedVersion fs.superBlockVersion super clear := by
  unfold fsInitFromSuper at result
  split at result
  · cases result
  -- An empty file system, or the one of the super block.
  cases clear <;> cases super
  all_goals
    simp only [Bool.false_eq_true, ↓reduceIte, fsInitEmpty] at result ⊢
    split at result
    · next asserted =>
        cases result
        exact ⟨⟨rfl, asserted.1, asserted.2.1, asserted.2.2.1, asserted.2.2.2.1,
          asserted.2.2.2.2⟩, rfl⟩
    · cases result

variable {devices : Devices}

theorem fsInit_mounted {readable : Fin 2 → Bool} {clear : Bool} {mounted : Fs}
    (result : fsInit devices.dev devices.superDev devices.shared slots readable clear = .mounted mounted) :
    SizesOk devices.dev mounted ∧ mounted.superBlockVersion =
        mountedVersion 0 (selectSuper devices.dev slots) clear := by
  unfold fsInit at result
  split at result
  · cases result
  split at result
  · cases result
  unfold loadSuperBlock at result
  split at result
  · cases result
  · exact fsInitFromSuper_mounted result

/-- The super block that a commit of `fs` writes. -/
abbrev nextSuper (fs : Fs) (free files : BlockMac) : SuperBlock :=
  (updateSuperBlock fs free files).2.1

/-- The version that a commit of `fs` writes. -/
def nextVersion (fs : Fs) : UInt32 :=
  (fs.superBlockVersion + 1) &&& superBlockFlagsVersionMask

variable {fs : Fs}

theorem nextSuper_valid (sizes : SizesOk dev fs)
    (free files : BlockMac) : superBlockValid dev (nextSuper fs free files) = true := by
  have blockNum : fs.blockNumSize.toUInt8.toUInt32 = fs.blockNumSize :=
    narrow_widen (UInt32.le_trans sizes.blockNumUpper (show (8 : UInt32) ≤ 16 by decide))
  have mac := narrow_widen sizes.macUpper
  have version : nextVersion fs &&& ~~~superBlockFlagsVersionMask = 0 := by
    rcases isVersion_mask (fs.superBlockVersion + 1) with same | same | same | same <;>
      rw [nextVersion, same] <;> decide
  have blockNumUpper : ¬fs.blockNumSize.toUInt8 > 8 := by
    intro above
    have wide : (8 : UInt8).toUInt32 < fs.blockNumSize.toUInt8.toUInt32 := above
    rw [blockNum] at wide
    exact absurd sizes.blockNumUpper (UInt32.not_le.mpr wide)
  have macUpper : ¬fs.macSize.toUInt8 > 16 := by
    intro above
    have wide : (16 : UInt8).toUInt32 < fs.macSize.toUInt8.toUInt32 := above
    rw [mac] at wide
    exact absurd sizes.macUpper (UInt32.not_le.mpr wide)
  have macFull : ¬(dev.tamperDetecting = false ∧ fs.macSize.toUInt8 ≠ 16) := by
    rintro ⟨undetected, short⟩
    rcases sizes.macFull with full | detecting
    · rw [full] at short
      exact short rfl
    · rw [undetected] at detecting
      cases detecting
  unfold nextVersion at version
  simp only [superBlockValid, nextSuper, updateSuperBlock, superBlockFsVersion, sizes.sameDev,
    blockNum, mac, version, ne_eq, not_true_eq_false, ↓reduceIte, gt_iff_lt,
    Bool.not_eq_true', UInt32.lt_irrefl, UInt64.lt_irrefl]
  simp only [UInt32.not_lt.mpr sizes.blockNumLower, UInt32.not_lt.mpr sizes.macLower, false_or,
    if_neg blockNumUpper, if_neg macUpper, if_neg macFull]

theorem nextSuper_slotOk (dev : BlockDevice) (fs : Fs) (free files : BlockMac) :
    SlotOk dev (slotOf (updateSuperBlock fs free files).1) (nextSuper fs free files) where
  version _ := isVersion_mask (fs.superBlockVersion + 1)
  placed _ := by
    change slotOf (nextVersion fs) = slotOf (nextVersion fs &&& superBlockFlagsBlockIndexMask)
    rcases isVersion_mask (fs.superBlockVersion + 1) with same | same | same | same <;>
      rw [nextVersion, same] <;> decide
  current _ := rfl

/-- Holds in every state. A mounted file system remembers the version of the slot that
it will not overwrite, except for the stale pair that a clearing mount can leave. -/
structure Sound (devices : Devices) (state : State) : Prop where
  slots : ∀ index, SlotOk devices.dev index (state.slots index)
  sizes : ∀ fs, state.fs = some fs → SizesOk devices.dev fs
  version : ∀ fs, state.fs = some fs → IsVersion fs.superBlockVersion
  kept : ∀ fs, state.fs = some fs →
    superBlockValid devices.dev (state.slots (slotOf fs.superBlockVersion)) = true →
    (state.slots (slotOf fs.superBlockVersion)).flags = fs.superBlockVersion ∨
      (fs.superBlockVersion = 0 ∧ (state.slots 0).flags = 2)

/-- The latest commit is in its slot, the other slot is older, and a mounted
file system continues from the latest commit. -/
structure Fresh (devices : Devices) (state : State) (super : SuperBlock) : Prop where
  stored : state.slots (slotOf super.flags) = super
  valid : superBlockValid devices.dev super = true
  older : ∀ index, index ≠ slotOf super.flags →
    superBlockValid devices.dev (state.slots index) = true →
    super.flags = ((state.slots index).flags + 1) &&& superBlockFlagsVersionMask
  continued : ∀ fs, state.fs = some fs → fs.superBlockVersion = super.flags

def LatestFresh (devices : Devices) (state : State) : Prop :=
  ∀ super, state.latest = some super → Fresh devices state super

variable {state : State}

theorem selectsLatest_of_latestFresh (sound : Sound devices state) (fresh : LatestFresh devices state) :
    SelectsLatest devices state := by
  intro super latest
  have facts := fresh super latest
  have superVersion : IsVersion super.flags := by
    have version := (sound.slots (slotOf super.flags)).version
    rw [facts.stored] at version
    exact version facts.valid
  have selected := selectSuper_eq (sound.slots 0) (sound.slots 1)
  have placedZero : slotOf super.flags = 0 → selectSuper devices.dev state.slots = some super := by
    intro placed
    have stored := facts.stored
    rw [placed] at stored
    rw [selected, stored, if_pos facts.valid]
    split
    · next newer =>
        have older := facts.older 1 (by rw [placed]; decide) newer.1
        have delta := newer.2
        rw [older] at delta
        rcases (sound.slots 1).version newer.1 with same | same | same | same <;> rw [same] at delta <;> nomatch delta
    · rfl
  have placedOne : slotOf super.flags = 1 → selectSuper devices.dev state.slots = some super := by
    intro placed
    have stored := facts.stored
    rw [placed] at stored
    rw [selected, stored]
    split
    · next zeroValid =>
        have older := facts.older 0 (by rw [placed]; decide) zeroValid
        have delta : (super.flags - (state.slots 0).flags) &&& superBlockFlagsVersionMask = 1 := by
          rw [older]
          rcases (sound.slots 0).version zeroValid with same | same | same | same <;> rw [same] <;> decide
        rw [if_pos ⟨facts.valid, delta⟩]
    · rw [if_pos facts.valid]
  rcases superVersion with same | same | same | same
  · exact placedZero (by rw [same]; decide)
  · exact placedOne (by rw [same]; decide)
  · exact placedZero (by rw [same]; decide)
  · exact placedOne (by rw [same]; decide)

theorem blank_sound (devices : Devices) (blank : Blank) : Sound devices blank.state where
  slots index := slotOk_of_invalid (by
    simp [superBlockValid, Blank.state, blank.unmarked index])
  sizes fs mounted := by cases mounted
  version fs mounted := by cases mounted
  kept fs mounted := by cases mounted

private theorem sound_unmount (sound : Sound devices state) : Sound devices { state with fs := none } where
  slots := sound.slots
  sizes fs mounted := by cases mounted
  version fs mounted := by cases mounted
  kept fs mounted := by cases mounted

theorem IsVersion.mask_eq {value : UInt32} (version : IsVersion value) :
    value &&& superBlockFlagsVersionMask = value := by
  rcases version with same | same | same | same <;> rw [same] <;> decide

section

variable (sound : Sound devices state)
include sound

private theorem kept_of_mount {clear : Bool} {fs : Fs}
    (version : fs.superBlockVersion = mountedVersion 0 (selectSuper devices.dev state.slots) clear)
    (valid : superBlockValid devices.dev (state.slots (slotOf fs.superBlockVersion)) = true) :
    (state.slots (slotOf fs.superBlockVersion)).flags = fs.superBlockVersion ∨
      (fs.superBlockVersion = 0 ∧ (state.slots 0).flags = 2) := by
  cases clear with
  | true =>
    rw [version] at valid ⊢
    have placed := (sound.slots 0).placed valid
    rcases (sound.slots 0).version valid with same | same | same | same
    · exact .inl same
    · rw [same] at placed
      cases placed
    · exact .inr ⟨rfl, same⟩
    · rw [same] at placed
      cases placed
  | false =>
    cases selected : selectSuper devices.dev state.slots with
    | none =>
      rw [selectSuper_none sound.slots selected] at valid
      cases valid
    | some block =>
    obtain ⟨blockValid, stored⟩ := selectSuper_some sound.slots selected
    have blockVersion : IsVersion block.flags := by
      rw [← stored] at blockValid ⊢
      exact (sound.slots _).version blockValid
    have same : fs.superBlockVersion = block.flags := by
      rw [version, selected]
      exact blockVersion.mask_eq
    rw [same, stored]
    exact .inl rfl

theorem mountStep_sound (clear : Bool) (readable : Fin 2 → Bool) :
    Sound devices (mountStep devices state clear readable) := by
  unfold mountStep
  cases result : fsInit devices.dev devices.superDev devices.shared state.slots readable clear with
  | failed | assertFailed => exact sound_unmount sound
  | mounted fs =>
  obtain ⟨sizes, version⟩ := fsInit_mounted result
  refine ⟨sound.slots, ?_, ?_, ?_⟩
  · rintro _ ⟨⟩
    exact sizes
  · rintro _ ⟨⟩
    rw [version]
    cases clear with
    | true => exact .inl rfl
    | false =>
    cases selectSuper devices.dev state.slots with
    | none => exact .inl rfl
    | some block => exact isVersion_mask block.flags
  · rintro _ ⟨⟩ valid
    exact kept_of_mount sound version valid

private theorem sound_write (fs : Fs) (free files : BlockMac) (index : Fin 2) : SlotOk devices.dev index
      ((writeSlot state (updateSuperBlock fs free files).1 (nextSuper fs free files)).slots index) := by
  by_cases same : index = slotOf (updateSuperBlock fs free files).1
  · subst same
    simpa [writeSlot] using nextSuper_slotOk devices.dev fs free files
  · simpa [writeSlot, update_of_ne same] using sound.slots index

theorem commitStep_sound (mounted : state.fs = some fs) (free files : BlockMac) :
    Sound devices (commitStep state fs free files) where
  slots := sound_write sound fs free files
  sizes := by
    rintro _ ⟨⟩
    have sizes := sound.sizes fs mounted
    exact { sizes with }
  version := by
    rintro _ ⟨⟩
    exact isVersion_mask (fs.superBlockVersion + 1)
  kept := by
    rintro _ ⟨⟩ valid
    left
    have placed := (nextSuper_slotOk devices.dev fs free files).placed
      (nextSuper_valid (sound.sizes fs mounted) free files)
    change (update state.slots _ (nextSuper fs free files)
      (slotOf (nextSuper fs free files).flags)).flags = (nextSuper fs free files).flags
    rw [placed]
    exact congrArg SuperBlock.flags (Function.update_self ..)

theorem crashCommitStep_sound (fs : Fs) (free files : BlockMac) (outcome : CrashWrite) :
    Sound devices (crashCommitStep state fs free files outcome) := by
  cases outcome with
  | unwritten => exact sound_unmount sound
  | written =>
    exact ⟨sound_write sound fs free files, by rintro _ ⟨⟩, by rintro _ ⟨⟩, by rintro _ ⟨⟩⟩
  | torn content differ =>
  refine ⟨?_, by rintro _ ⟨⟩, by rintro _ ⟨⟩, by rintro _ ⟨⟩⟩
  intro index
  by_cases same : index = slotOf (updateSuperBlock fs free files).1
  · subst same
    have invalid : superBlockValid devices.dev content = false := by
      simp [superBlockValid, differ]
    simpa [crashCommitStep] using slotOk_of_invalid invalid
  · simpa [crashCommitStep, update_of_ne same] using sound.slots index

theorem step_sound (event : Event) : Sound devices (step devices state event) := by
  cases event with
  | mount clear readable => exact mountStep_sound sound clear readable
  | crash => exact sound_unmount sound
  | commit free files =>
    cases mounted : state.fs with
    | none => simpa [step, mounted] using sound
    | some fs => simpa [step, mounted] using commitStep_sound sound mounted free files
  | crashCommit free files outcome =>
  cases mounted : state.fs with
  | none => simpa [step, mounted] using sound
  | some fs =>
  simpa [step, mounted] using crashCommitStep_sound sound fs free files outcome

end

theorem run_sound (devices : Devices) (blank : Blank) (history : List Event) :
    Sound devices (run devices blank history) := by
  induction history using List.reverseRecOn with
  | nil => exact blank_sound devices blank
  | append_singleton history event ih =>
  rw [run, List.foldl_append]
  exact step_sound ih event

private theorem other_slot {version : UInt32} (isVersion : IsVersion version) {index : Fin 2}
    (other : index ≠ slotOf ((version + 1) &&& superBlockFlagsVersionMask)) : index = slotOf version := by
  have which : index = 0 ∨ index = 1 := by omega
  rcases isVersion with rfl | rfl | rfl | rfl <;> rcases which with rfl | rfl <;> revert other <;> decide

private theorem next_slot_ne {version : UInt32} (isVersion : IsVersion version) :
    slotOf version ≠ slotOf ((version + 1) &&& superBlockFlagsVersionMask) := by
  rcases isVersion with rfl | rfl | rfl | rfl <;> decide

private theorem written_slot (sound : Sound devices state) (mounted : state.fs = some fs) (free files : BlockMac) :
    slotOf (updateSuperBlock fs free files).1 = slotOf (nextVersion fs) :=
  ((nextSuper_slotOk devices.dev fs free files).placed (nextSuper_valid (sound.sizes fs mounted) free files)).symm

section

variable {state written : State} (sound : Sound devices state) (mounted : state.fs = some fs)
  (free files : BlockMac)
include sound mounted free files

theorem fresh_write (usable : ¬StaleSlotZero devices state)
    (slots : written.slots = (writeSlot state (updateSuperBlock fs free files).1 (nextSuper fs free files)).slots)
    (continued : ∀ next, written.fs = some next → next.superBlockVersion = nextVersion fs) :
    Fresh devices written (nextSuper fs free files) := by
  have placed := written_slot sound mounted free files
  refine ⟨?_, nextSuper_valid (sound.sizes fs mounted) free files, ?_, continued⟩
  · change written.slots (slotOf (nextVersion fs)) = _
    rw [slots, ← placed]
    simp [writeSlot]
  intro index other valid
  have ne : index ≠ slotOf (updateSuperBlock fs free files).1 := placed ▸ other
  have untouched : written.slots index = state.slots index := by
    rw [slots]
    exact update_of_ne ne _ _
  have kept : index = slotOf fs.superBlockVersion := other_slot (sound.version fs mounted) other
  subst kept
  rw [untouched] at valid ⊢
  rcases sound.kept fs mounted valid with same | ⟨zero, two⟩
  · rw [same]
    rfl
  · rw [zero] at valid
    exact absurd ⟨fs, mounted, zero, valid, two⟩ usable

theorem stale_write_selects (stale : StaleSlotZero devices state)
    (slots : written.slots = (writeSlot state (updateSuperBlock fs free files).1 (nextSuper fs free files)).slots) :
    selectSuper devices.dev written.slots = some (state.slots 0) := by
  obtain ⟨current, same, zero, valid, two⟩ := stale
  obtain rfl : current = fs := Option.some.inj (same.symm.trans mounted)
  have next : nextVersion current = 1 := by
    rw [nextVersion, zero]
    decide
  have placed : slotOf (updateSuperBlock current free files).1 = 1 := by
    rw [written_slot sound mounted free files, next]
    decide
  have writtenOk : ∀ index, SlotOk devices.dev index (written.slots index) := by
    rw [slots]
    exact sound_write sound current free files
  have zeroSlot : written.slots 0 = state.slots 0 := by
    rw [slots]
    exact update_of_ne (by rw [placed]; decide) _ _
  have oneSlot : written.slots 1 = nextSuper current free files := by
    rw [slots, ← placed]
    simp [writeSlot]
  have delta : ¬((nextSuper current free files).flags - (state.slots 0).flags) &&& superBlockFlagsVersionMask = 1 := by
    change ¬(nextVersion current - _) &&& _ = 1
    rw [next, two]
    decide
  rw [selectSuper_eq (writtenOk 0) (writtenOk 1), zeroSlot, oneSlot, if_pos valid, if_neg (fun newer => delta newer.2)]

end

theorem step_latestFresh (sound : Sound devices state) (fresh : LatestFresh devices state) (event : Event)
    (usable : event.WritesSlot → ¬StaleSlotZero devices state) : LatestFresh devices (step devices state event) := by
  have unmounted : LatestFresh devices { state with fs := none } := by
    intro super latest
    have facts := fresh super latest
    exact { facts with continued := by rintro _ ⟨⟩ }
  cases event with
  | crash => exact unmounted
  | mount clear readable =>
    simp only [step, mountStep]
    cases result : fsInit devices.dev devices.superDev devices.shared state.slots readable clear with
    | failed | assertFailed => exact unmounted
    | mounted fs =>
    intro super latest
    cases clear with
    | true => cases latest
    | false =>
    have facts := fresh super latest
    refine { facts with continued := ?_ }
    rintro _ ⟨⟩
    rw [(fsInit_mounted result).2, selectsLatest_of_latestFresh sound fresh super latest]
    have version : IsVersion super.flags := by
      have slotVersion := (sound.slots (slotOf super.flags)).version
      rw [facts.stored] at slotVersion
      exact slotVersion facts.valid
    exact version.mask_eq
  | commit free files =>
    cases mounted : state.fs with
    | none => simpa [step, mounted] using fresh
    | some fs =>
    simp only [step, mounted]
    rintro _ ⟨⟩
    exact fresh_write sound mounted free files (usable trivial) rfl (by rintro _ ⟨⟩; rfl)
  | crashCommit free files outcome =>
  cases mounted : state.fs with
  | none => simpa [step, mounted] using fresh
  | some fs =>
  simp only [step, mounted]
  cases outcome with
  | unwritten => exact unmounted
  | written =>
    rintro _ ⟨⟩
    exact fresh_write sound mounted free files (usable trivial) rfl (by rintro _ ⟨⟩)
  | torn content differ =>
  intro super latest
  have facts := fresh super latest
  have version := facts.continued fs mounted
  have invalid : superBlockValid devices.dev content = false := by
    simp [superBlockValid, differ]
  have target : slotOf (updateSuperBlock fs free files).1 ≠ slotOf super.flags := by
    rw [written_slot sound mounted free files, ← version]
    exact (next_slot_ne (sound.version fs mounted)).symm
  refine ⟨?_, facts.valid, ?_, by rintro _ ⟨⟩⟩
  · exact (update_of_ne target.symm _ _).trans facts.stored
  intro index other valid
  by_cases overwritten : index = slotOf (updateSuperBlock fs free files).1
  · subst overwritten
    simp [crashCommitStep, invalid] at valid
  · simp only [crashCommitStep, update_of_ne overwritten] at valid ⊢
    exact facts.older index other valid

private theorem run_append_singleton (devices : Devices) (blank : Blank) (history : List Event) (event : Event) :
    run devices blank (history ++ [event]) = step devices (run devices blank history) event := by
  simp [run]

theorem run_latestFresh (devices : Devices) (blank : Blank) (history : List Event)
    (usable : ∀ before event after, history = before ++ event :: after → event.WritesSlot →
      ¬StaleSlotZero devices (run devices blank before)) : LatestFresh devices (run devices blank history) := by
  induction history using List.reverseRecOn with
  | nil => rintro _ ⟨⟩
  | append_singleton history event ih =>
  rw [run_append_singleton]
  refine step_latestFresh (run_sound devices blank history) (ih ?_) event ?_
  · intro before earlier after split writes
    exact usable before earlier (after ++ [event]) (by simp [split]) writes
  · exact usable history event [] rfl

theorem stale_write_not_selected (devices : Devices) (blank : Blank) (history : List Event) (event : Event)
    (writes : event.WritesSlot) (stale : StaleSlotZero devices (run devices blank history)) :
    ¬SelectsLatest devices (run devices blank (history ++ [event])) := by
  have sound := run_sound devices blank history
  rw [run_append_singleton]
  generalize run devices blank history = state at stale sound
  obtain ⟨fs, mounted, zero, valid, two⟩ := stale
  have conflict : ∀ (free files : BlockMac) (written : State), written.slots =
        (writeSlot state (updateSuperBlock fs free files).1 (nextSuper fs free files)).slots →
      selectSuper devices.dev written.slots ≠ some (nextSuper fs free files) := by
    intro free files written slots selected
    rw [stale_write_selects sound mounted free files ⟨fs, mounted, zero, valid, two⟩ slots]
      at selected
    have flags : (state.slots 0).flags = nextVersion fs := by
      rw [Option.some.inj selected]
      rfl
    rw [two, nextVersion, zero] at flags
    nomatch flags
  intro selects
  cases event with
  | mount clear readable | crash => cases writes
  | commit free files =>
    simp only [step, mounted] at selects
    exact conflict free files _ rfl (selects _ rfl)
  | crashCommit free files outcome =>
  cases outcome with
  | unwritten | torn content differ => cases writes
  | written =>
  simp only [step, mounted] at selects
  exact conflict free files _ rfl (selects _ rfl)

/-- A history selects the latest completely written commit at every point
exactly when no slot is written over a stale slot zero. -/
theorem selectsLatest_throughout_iff (devices : Devices) (blank : Blank) (history : List Event) :
    (∀ before after, history = before ++ after → SelectsLatest devices (run devices blank before)) ↔
      ∀ before event after, history = before ++ event :: after → event.WritesSlot →
        ¬StaleSlotZero devices (run devices blank before) := by
  constructor
  · intro selects before event after split writes stale
    exact stale_write_not_selected devices blank before event writes stale
      (selects (before ++ [event]) after (by simp [split]))
  intro usable before after split
  refine selectsLatest_of_latestFresh (run_sound devices blank before) (run_latestFresh devices blank before ?_)
  intro earlier event later splitBefore
  exact usable earlier event (later ++ after) (by simp [split, splitBefore])

/-- Two commits put version two in slot zero. The first commit after a clearing
mount then writes version one in slot one, and slot zero is selected. -/
theorem cleared_mount_selects_stale : ¬∀ (devices : Devices) (blank : Blank) (history : List Event),
      SelectsLatest devices (run devices blank history) := by
  intro selects
  let dev : BlockDevice := ⟨64, 2048, 8, 16, false⟩
  let superDev : BlockDevice := ⟨2, 512, 2, 2, true⟩
  let blank : Blank := ⟨fun _ => ⟨0, 0, 0, 0, 0, 0, 0, .clear, 0, .clear, 0⟩, fun _ => by decide⟩
  have selected := selects ⟨dev, superDev, false⟩ blank
    [.mount false fun _ => true, .commit ⟨5, 0⟩ ⟨6, 0⟩, .commit ⟨7, 0⟩ ⟨8, 0⟩, .crash,
      .mount true fun _ => true, .commit ⟨9, 0⟩ ⟨10, 0⟩]
    ⟨superBlockMagic, 1, 0, 2048, 8, 16, 64, ⟨9, 0⟩, 0, ⟨10, 0⟩, 1⟩ (by decide)
  exact absurd selected (by decide)

end Trusty.Storage.SuperHistory
