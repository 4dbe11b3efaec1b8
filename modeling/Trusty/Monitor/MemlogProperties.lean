import Trusty.Monitor.Memlog

/-!
# Shared logs stay in their buffers

The arguments for which writes through a log land in its buffer, and no two logs
share memory.
-/

namespace Trusty.Monitor

open BitVec (le_def toNat_add toNat_and toNat_ofNat toNat_setWidth)

open Interaction Align List

variable {width : Nat}

/-- Room for more than the header, and sums that stay below the end of the
address space. -/
@[mk_iff] structure Sane (width : Nat) (args : UInt64 × UInt32) : Prop where
  header : 12 < args.2.toNat
  range : args.1.toNat + args.2.toNat < 2 ^ width
  megabytes : args.1.toNat % 2 ^ 20 + args.2.toNat + 2 ^ 20 ≤ 2 ^ width

instance (args : UInt64 × UInt32) : Decidable (Sane width args) := decidable_of_iff' _ (sane_iff ..)

def Lands (log : Memlog width) (regions : List (Region width)) (address : BitVec width) : Prop :=
  ∃ pa, translate regions address = some pa ∧ log.args.1.toNat ≤ pa.toNat ∧
    pa.toNat < log.args.1.toNat + log.args.2.toNat

def Inside : LogOp width → List (Region width) → Prop
  | .store log address _, regions => ∀ i < 4, Lands log regions (address + BitVec.ofNat width i)
  | .storeChar log address _, regions => Lands log regions address
  | _, _ => True

def Memlog.Disjoint (log other : Memlog width) : Prop :=
  log.args.1.toNat + log.args.2.toNat ≤ other.args.1.toNat ∨
    other.args.1.toNat + other.args.2.toNat ≤ log.args.1.toNat

def Region.Disjoint (region other : Region width) : Prop :=
  ∀ address, ¬(region.Contains address ∧ other.Contains address)

structure Mapped (log : Memlog width) (region : Region width) : Prop where
  sane : Sane width log.args
  pa : log.bufPa.toNat = log.args.1.toNat
  sz : log.bufSz.toNat = log.args.2.toNat
  ring : ∃ bits, log.rbSz.toNat = 2 ^ bits ∧ 2 ^ bits + 12 ≤ log.args.2.toNat
  ends : region.base.toNat + region.size.toNat ≤ 2 ^ width
  place : ∃ offset, log.rb.toNat = region.base.toNat + offset ∧
    log.args.1.toNat = region.pa.toNat + offset ∧
    offset + log.args.2.toNat ≤ region.size.toNat

structure Sound (logs : List (Memlog width)) (regions : List (Region width)) : Prop where
  mapped : Forall₂ Mapped logs regions
  apart : regions.Pairwise Region.Disjoint
  disjoint : logs.Pairwise Memlog.Disjoint

theorem translate_of_mem {regions : List (Region width)} (apart : regions.Pairwise Region.Disjoint)
    {region : Region width} (mem : region ∈ regions) {address : BitVec width} (contains : region.Contains address) :
    translate regions address = some (region.pa + (address - region.base)) := by
  induction apart with
  | nil => contradiction
  | @cons first rest others _ ih =>
  cases mem with
  | head => simp [translate, contains]
  | tail _ mem =>
  have missed : ¬first.Contains address := fun too => others region mem address ⟨too, contains⟩
  have found := ih mem
  unfold translate at found ⊢
  rw [find?_cons_of_neg (by simpa using missed), found]

variable {offset : Nat}

theorem Mapped.lands {log : Memlog width} {region : Region width} (mapped : Mapped log region)
    {regions : List (Region width)} (apart : regions.Pairwise Region.Disjoint) (mem : region ∈ regions)
    (below : offset < log.args.2.toNat) : Lands log regions (log.rb + BitVec.ofNat width offset) := by
  obtain ⟨shift, rb, start, fits⟩ := mapped.place
  have ends := mapped.ends
  have range := mapped.sane.range
  have address : (log.rb + BitVec.ofNat width offset).toNat = region.base.toNat + shift + offset := by
    rw [toNat_add, toNat_ofNat, Nat.add_mod_mod, rb]
    exact Nat.mod_eq_of_lt (by omega)
  have contains : region.Contains (log.rb + BitVec.ofNat width offset) := by
    unfold Region.Contains
    omega
  have distance : (log.rb + BitVec.ofNat width offset - region.base).toNat = shift + offset := by
    rw [BitVec.toNat_sub_of_le (by rw [le_def, address]; omega), address]
    omega
  refine ⟨_, translate_of_mem apart mem contains, ?_⟩
  rw [toNat_add, distance, Nat.mod_eq_of_lt (by omega)]
  omega

section

variable {logs : List (Memlog width)} {regions : List (Region width)}

theorem forall_region (mapped : Forall₂ Mapped logs regions) {log : Memlog width}
    (mem : log ∈ logs) : ∃ region ∈ regions, Mapped log region := by
  induction mapped with
  | nil => contradiction
  | cons first _ ih =>
  cases mem with
  | head => exact ⟨_, mem_cons_self, first⟩
  | tail _ mem =>
  obtain ⟨region, among, is⟩ := ih mem
  exact ⟨region, mem_cons_of_mem _ among, is⟩

theorem Sound.region (sound : Sound logs regions) {log : Memlog width} (mem : log ∈ logs) :
    ∃ region ∈ regions, Mapped log region :=
  forall_region sound.mapped mem

end

section Writing

variable {log : Memlog width} {region : Region width} {regions : List (Region width)}

abbrev Stores {α : Type} (regions : List (Region width)) (program : LogM width α) : Prop :=
  Upholds (kernel width) Inside (fun _ after => after = regions) program regions

theorem kernel_still (before after : List (Region width)) : ¬(kernel width).move before after := fun moved => moved

theorem stores_done {α : Type} (value : α) : Stores regions (.done value) := (upholds_done_iff kernel_still).mpr rfl

theorem stores_bind {α β : Type} {program : LogM width α} {rest : α → LogM width β} (first : Stores regions program)
    (continues : ∀ value, Stores regions (rest value)) : Stores regions (program >>= rest) := by
  apply upholds_bind
  apply first.mono
  intro value later same
  rw [same]
  exact continues value

theorem stores_load (address : BitVec width) : Stores regions (load log address) := by
  unfold load
  rw [Stores, upholds_ask_iff kernel_still]
  refine ⟨trivial, fun reply after answered => ?_⟩
  rw [upholds_done_iff kernel_still]
  exact answered

section

variable (mapped : Mapped log region)
include mapped

theorem Mapped.data_eq (wide : 0 < width) (value : BitVec width) : ∃ offset, offset < log.args.2.toNat ∧
      log.data (.ofBitVec ((value &&& (log.rbSz - 1)).setWidth 32)) = log.rb + BitVec.ofNat width offset := by
  obtain ⟨bits, size, fits⟩ := mapped.ring
  have small := log.args.2.toNat_lt
  have masked : (value &&& (log.rbSz - 1)).toNat = value.toNat % 2 ^ bits := by
    rw [toNat_and, mask_toNat wide size, Nat.and_two_pow_sub_one_eq_mod]
  refine ⟨12 + value.toNat % 2 ^ bits, by omega, ?_⟩
  generalize value &&& (log.rbSz - 1) = offset at masked
  unfold Memlog.data
  congr 1
  apply BitVec.eq_of_toNat_eq
  simp [masked, Nat.mod_eq_of_lt (show value.toNat % 2 ^ bits < 4294967296 by omega)]

variable (apart : regions.Pairwise Region.Disjoint) (mem : region ∈ regions)
include apart mem

theorem Mapped.stores (below : offset + 4 ≤ log.args.2.toNat)
    (value : UInt32) : Stores regions (store log (log.rb + BitVec.ofNat width offset) value) := by
  unfold store
  rw [Stores, upholds_ask_iff kernel_still]
  refine ⟨fun i small => ?_, fun _ after answered => ?_⟩
  · rw [BitVec.add_assoc, ← BitVec.ofNat_add]
    exact mapped.lands apart mem (by omega)
  · rw [upholds_done_iff kernel_still]
    exact answered

theorem Mapped.storesChar (below : offset < log.args.2.toNat) (char : UInt8) :
    Stores regions (storeChar log (log.rb + BitVec.ofNat width offset) char) := by
  unfold storeChar
  rw [Stores, upholds_ask_iff kernel_still]
  refine ⟨mapped.lands apart mem below, fun _ after answered => ?_⟩
  rw [upholds_done_iff kernel_still]
  exact answered

theorem Mapped.writeChars_stores (wide : 0 < width) (logOffset : UInt32)
    (i : BitVec width) (str : List UInt8) : Stores regions (writeChars log logOffset i str) := by
  induction str generalizing i with
  | nil => exact stores_done ()
  | cons char rest ih =>
  obtain ⟨offset, below, is⟩ := mapped.data_eq wide (logOffset.toBitVec.setWidth width + i)
  apply stores_bind
  · rw [is]
    exact mapped.storesChar apart mem below char
  · exact fun _ => ih (i + 1)

theorem Mapped.stores_alloc (value : UInt32) : Stores regions (store log log.alloc value) := by
  have header := mapped.sane.header
  have stores := mapped.stores apart mem (show 0 + 4 ≤ _ by omega) value
  rwa [BitVec.add_zero] at stores

theorem Mapped.stores_put (value : UInt32) : Stores regions (store log log.put value) := by
  have header := mapped.sane.header
  exact mapped.stores apart mem (show 4 + 4 ≤ _ by omega) value

theorem Mapped.initRb_stores (rbSz : UInt32) : Stores regions (initRb log rbSz) := by
  have header := mapped.sane.header
  have sz : Stores regions (store log log.sz rbSz) := mapped.stores apart mem (show 8 + 4 ≤ _ by omega) rbSz
  exact stores_bind sz fun _ => stores_bind (mapped.stores_alloc apart mem 0) fun _ =>
    mapped.stores_put apart mem 0

theorem Mapped.memlogWriteChunk_stores (wide : 0 < width) (str : List UInt8) :
    Stores regions (memlogWriteChunk log str) :=
  stores_bind (stores_load _) fun _ => stores_bind (stores_load _) fun _ =>
    stores_bind (mapped.stores_alloc apart mem _) fun _ =>
      stores_bind (mapped.writeChars_stores apart mem wide ..) fun _ =>
        stores_bind (stores_load _) fun _ => mapped.stores_put apart mem _

theorem Mapped.writeChunks_stores (wide : 0 < width) (chunks : Nat)
    (str : List UInt8) : Stores regions (writeChunks log chunks str) := by
  induction chunks generalizing str with
  | zero =>
    unfold writeChunks
    split
    · exact mapped.memlogWriteChunk_stores apart mem wide str
    · exact stores_done ()
  | succ chunks ih =>
  exact stores_bind (mapped.memlogWriteChunk_stores apart mem wide _) fun _ =>
    ih _

end

end Writing

section Adding

variable {logs : List (Memlog width)} {regions : List (Region width)} {args : UInt64 × UInt32}

theorem Sane.pa_toNat (sane : Sane width args) : (args.1.toBitVec.setWidth width).toNat = args.1.toNat := by
  have range := sane.range
  rw [toNat_setWidth, UInt64.toNat_toBitVec, Nat.mod_eq_of_lt (by omega)]

theorem Sane.sz_toNat (sane : Sane width args) : (args.2.toBitVec.setWidth width).toNat = args.2.toNat := by
  have range := sane.range
  rw [toNat_setWidth, UInt32.toNat_toBitVec, Nat.mod_eq_of_lt (by omega)]

theorem Sane.disjoint_of_not_registered (sane : Sane width args) (sound : Sound logs regions) {log : Memlog width}
    (mem : log ∈ logs) (unregistered : memlogIsMemRegistered logs (args.1.toBitVec.setWidth width)
      (args.2.toBitVec.setWidth width) = false) :
    args.1.toNat + args.2.toNat ≤ log.args.1.toNat ∨ log.args.1.toNat + log.args.2.toNat ≤ args.1.toNat := by
  obtain ⟨region, _, mapped⟩ := sound.region mem
  have range := sane.range
  have otherRange := mapped.sane.range
  have passed := any_eq_false.mp unregistered log mem
  have sum : (args.1.toBitVec.setWidth width + args.2.toBitVec.setWidth width).toNat = args.1.toNat + args.2.toNat := by
    rw [toNat_add, sane.pa_toNat, sane.sz_toNat, Nat.mod_eq_of_lt range]
  have otherSum : (log.bufPa + log.bufSz).toNat = log.args.1.toNat + log.args.2.toNat := by
    rw [toNat_add, mapped.pa, mapped.sz, Nat.mod_eq_of_lt otherRange]
  simp only [le_def, sum, otherSum, sane.pa_toNat, mapped.pa] at passed
  by_contra overlap
  rw [not_or] at overlap
  simp [overlap] at passed

theorem lowerPow2_bounds {value : UInt32} (positive : value ≠ 0) :
    ∃ bits, (lowerPow2 value).toNat = 2 ^ bits ∧ 2 ^ bits ≤ value.toNat := by
  have nonzero : value.toNat ≠ 0 := fun zero => positive (UInt32.toNat.inj (by simpa))
  have least := Nat.log2_self_le nonzero
  have small := value.toNat_lt
  refine ⟨value.toNat.log2, ?_, least⟩
  rw [lowerPow2, if_neg positive, UInt32.toNat_ofNat_of_lt' (show _ < 4294967296 by omega)]

theorem mb_toNat (wide : 32 ≤ width) : (mb width).toNat = 2 ^ 20 := by
  have range : 2 ^ 32 ≤ 2 ^ width := Nat.pow_le_pow_right (by decide) wide
  unfold mb
  rw [toNat_ofNat, Nat.mod_eq_of_lt (by omega)]

/-- The log that `memlog_add` makes of a buffer mapped at `va`. -/
def newLog (args : UInt64 × UInt32) (va : BitVec width) : Memlog width :=
  { rb := va + (args.1.toBitVec.setWidth width &&& (mb width - 1))
    rbSz := (lowerPow2 (.ofBitVec ((args.2.toBitVec.setWidth width).setWidth 32) -
      headerSize)).toBitVec.setWidth width
    bufPa := args.1.toBitVec.setWidth width
    bufSz := args.2.toBitVec.setWidth width
    args := args }

/-- The region that `map_rb` asks for. -/
def newRegion (args : UInt64 × UInt32) (va : BitVec width) : Region width :=
  { base := va
    pa := Align.down (args.1.toBitVec.setWidth width) (mb width)
    size := Align.up (args.2.toBitVec.setWidth width +
      (args.1.toBitVec.setWidth width &&& (mb width - 1))) (mb width) }

section

variable (sane : Sane width args)

include sane

section

variable (wide : 32 ≤ width)
include wide

theorem Sane.offset_toNat : (args.1.toBitVec.setWidth width &&& (mb width - 1)).toNat = args.1.toNat % 2 ^ 20 := by
  rw [toNat_and, mask_toNat (by omega) (mb_toNat wide), Nat.and_two_pow_sub_one_eq_mod, sane.pa_toNat]

theorem Sane.size_toNat (va : BitVec width) :
    (newRegion args va).size.toNat = nextMultiple 20 (args.2.toNat + args.1.toNat % 2 ^ 20) := by
  have megabytes := sane.megabytes
  have sum : (args.2.toBitVec.setWidth width + (args.1.toBitVec.setWidth width &&& (mb width - 1))).toNat =
      args.2.toNat + args.1.toNat % 2 ^ 20 := by
    rw [toNat_add, sane.sz_toNat, sane.offset_toNat wide, Nat.mod_eq_of_lt (by omega)]
  unfold newRegion
  rw [up_toNat (by omega) (mb_toNat wide) (by omega), sum]

theorem Sane.ring (va : BitVec width) :
    ∃ bits, (newLog args va).rbSz.toNat = 2 ^ bits ∧ 2 ^ bits + 12 ≤ args.2.toNat := by
  have header := sane.header
  have small := args.2.toNat_lt
  have range : 2 ^ 32 ≤ 2 ^ width := Nat.pow_le_pow_right (by decide) wide
  have same : UInt32.ofBitVec ((args.2.toBitVec.setWidth width).setWidth 32) = args.2 := by
    apply UInt32.toNat.inj
    rw [UInt32.toNat_ofBitVec, toNat_setWidth, sane.sz_toNat, Nat.mod_eq_of_lt small]
  have difference : (args.2 - headerSize).toNat = args.2.toNat - 12 := by
    rw [UInt32.toNat_sub_of_le _ _ (by rw [UInt32.le_iff_toNat_le]; exact header.le)]
    rfl
  have positive : args.2 - headerSize ≠ 0 := by
    intro zero
    rw [zero] at difference
    simp at difference
    omega
  obtain ⟨bits, is, least⟩ := lowerPow2_bounds positive
  refine ⟨bits, ?_, by omega⟩
  unfold newLog
  rw [same, toNat_setWidth, UInt32.toNat_toBitVec, is, Nat.mod_eq_of_lt (by omega)]

theorem Sane.mapped {va : BitVec width} (ends : va.toNat + (newRegion args va).size.toNat ≤ 2 ^ width) :
    Mapped (newLog args va) (newRegion args va) := by
  have header := sane.header
  have size := sane.size_toNat wide va
  have bounds := nextMultiple_bounds 20 (args.2.toNat + args.1.toNat % 2 ^ 20)
  refine ⟨sane, sane.pa_toNat, sane.sz_toNat, sane.ring wide va, ends, args.1.toNat % 2 ^ 20, ?_, ?_, ?_⟩
  · unfold newLog newRegion
    rw [toNat_add, sane.offset_toNat wide, Nat.mod_eq_of_lt (by omega)]
  · unfold newLog newRegion
    dsimp only
    rw [down_toNat (by omega) _ (mb_toNat wide), sane.pa_toNat]
    omega
  · show args.1.toNat % 2 ^ 20 + args.2.toNat ≤ _
    omega

theorem Sane.size_ne_zero (va : BitVec width) : (newRegion args va).size ≠ 0 := by
  have header := sane.header
  have size := sane.size_toNat wide va
  have bounds := nextMultiple_bounds 20 (args.2.toNat + args.1.toNat % 2 ^ 20)
  intro zero
  have none : (0 : BitVec width).toNat = 0 := by simp
  rw [zero, none] at size
  omega

end

end

section

variable (sound : Sound logs regions) (sane : Sane width args) (wide : 32 ≤ width)
include sound sane wide

theorem Sound.added (unregistered : memlogIsMemRegistered logs (args.1.toBitVec.setWidth width)
      (args.2.toBitVec.setWidth width) = false) {va : BitVec width} (free : Free regions (newRegion args va)) :
    Sound (newLog args va :: logs) (newRegion args va :: regions) where
  mapped := .cons (sane.mapped wide free.1) sound.mapped
  apart := .cons free.2 sound.apart
  disjoint := .cons (fun _ mem => sane.disjoint_of_not_registered sound mem unregistered) sound.disjoint

/-- `memlog_add` with sane arguments stores into the new buffer only, and keeps
the invariant. -/
theorem Sound.memlogAdd_upholds : Upholds (kernel width) Inside (fun result after => Sound result.2 after)
      (memlogAdd logs args) regions := by
  unfold memlogAdd
  dsimp only
  split
  · exact (upholds_done_iff kernel_still).mpr sound
  rename_i unregistered
  rw [Bool.not_eq_true] at unregistered
  simp only [mapRb, ask_bind, done_bind]
  rw [upholds_ask_iff kernel_still]
  refine ⟨trivial, fun allocated after same => ?_⟩
  obtain rfl : after = regions := same
  split
  · rw [upholds_ask_iff kernel_still]
    refine ⟨trivial, fun found world answered => ?_⟩
    cases found with
    | none =>
      obtain rfl : world = after := answered
      exact (upholds_done_iff kernel_still).mpr sound
    | some va =>
    rcases answered with empty | placed
    · exact absurd empty.1 (sane.size_ne_zero wide va)
    obtain ⟨_, free, rfl⟩ := placed
    have added := sound.added sane wide unregistered free
    show Upholds _ _ _ (initRb (newLog args va) _ >>= fun _ =>
      .done (LogStatus.success, newLog args va :: logs)) (newRegion args va :: after)
    apply upholds_bind
    apply ((sane.mapped wide free.1).initRb_stores added.apart mem_cons_self _).mono
    intro _ later same
    rw [same]
    exact (upholds_done_iff kernel_still).mpr added
  · exact (upholds_done_iff kernel_still).mpr sound

end

end Adding

section Removing

variable {logs : List (Memlog width)} {regions : List (Region width)}

theorem Mapped.contains {log : Memlog width} {region : Region width} (mapped : Mapped log region) :
    region.Contains log.rb := by
  obtain ⟨offset, rb, _, fits⟩ := mapped.place
  have header := mapped.sane.header
  unfold Region.Contains
  omega

theorem forall_eraseP {gone : Memlog width → Bool} {log : Memlog width} (mapped : Forall₂ Mapped logs regions)
    (apart : regions.Pairwise Region.Disjoint) (found : logs.find? gone = some log) :
    Forall₂ Mapped (logs.eraseP gone) (regions.eraseP fun region => region.Contains log.rb) := by
  induction mapped with
  | nil => contradiction
  | @cons first region rest others is follow ih =>
  by_cases hit : gone first = true
  · rw [find?_cons_of_pos hit] at found
    cases found
    rw [eraseP_cons_of_pos hit, eraseP_cons_of_pos (by simpa using is.contains)]
    exact follow
  rw [find?_cons_of_neg hit] at found
  obtain ⟨apartFirst, apartRest⟩ := pairwise_cons.mp apart
  have sound : Forall₂ Mapped rest others := follow
  obtain ⟨own, among, mapped⟩ : ∃ own ∈ others, Mapped log own := by
    have mem := mem_of_find?_eq_some found
    exact forall_region sound mem
  have missed : ¬region.Contains log.rb := fun too => apartFirst own among log.rb ⟨too, mapped.contains⟩
  rw [eraseP_cons_of_neg hit, eraseP_cons_of_neg (by simpa using missed)]
  exact .cons is (ih apartRest found)

theorem Sound.memlogRm_upholds (sound : Sound logs regions) (arg : UInt64) :
    Upholds (kernel width) Inside (fun result after => Sound result.2 after) (memlogRm logs arg) regions := by
  unfold memlogRm
  dsimp only
  split
  · exact (upholds_done_iff kernel_still).mpr sound
  rename_i log found
  simp only [ask_bind, done_bind]
  rw [upholds_ask_iff kernel_still]
  refine ⟨trivial, fun freed after answered => ?_⟩
  obtain ⟨_, rfl⟩ := answered
  rw [pure_eq, upholds_done_iff kernel_still]
  exact ⟨forall_eraseP sound.mapped sound.apart found, sound.apart.sublist (eraseP_sublist ..),
    sound.disjoint.sublist (eraseP_sublist ..)⟩

end Removing

theorem Reached.sound {logs : List (Memlog width)} {regions : List (Region width)}
    (reached : Reached (Sane width) logs regions) (wide : 32 ≤ width) : Sound logs regions := by
  induction reached with
  | start => exact ⟨.nil, .nil, .nil⟩
  | add _ sane ran sound => exact (sound.memlogAdd_upholds sane wide).runs ran
  | rm _ ran sound => exact (sound.memlogRm_upholds _).runs ran

/-- As long as the arguments are sane, what is stored lands in the buffer it is
meant for, and the buffers do not overlap. -/
theorem Reached.logs_confined {logs : List (Memlog width)} {regions : List (Region width)} (wide : 32 ≤ width)
    (reached : Reached (Sane width) logs regions) :
    (∀ args, Sane width args → Upholds (kernel width) Inside (fun _ _ => True) (memlogAdd logs args) regions) ∧
      (∀ log ∈ logs, ∀ str, Upholds (kernel width) Inside (fun _ _ => True) (memlogWrite log str) regions) ∧
      logs.Pairwise Memlog.Disjoint := by
  have sound := reached.sound wide
  refine ⟨fun args sane => ?_, fun log mem str => ?_, sound.disjoint⟩
  · exact (sound.memlogAdd_upholds sane wide).mono fun _ _ _ => trivial
  · obtain ⟨region, among, mapped⟩ := sound.region mem
    exact (mapped.writeChunks_stores sound.apart among (by omega) _ str).mono fun _ _ _ => trivial

section Insane

variable {logs : List (Memlog width)} {regions : List (Region width)} {args : UInt64 × UInt32}
  {va : BitVec width}

section

variable (unregistered : memlogIsMemRegistered logs (args.1.toBitVec.setWidth width) (args.2.toBitVec.setWidth width) = false)
  (some : (newRegion args va).size ≠ 0) (free : Free regions (newRegion args va))
include unregistered some free

theorem memlogAdd_runs : (memlogAdd logs args).Runs (kernel width) regions (.success, newLog args va :: logs)
      (newRegion args va :: regions) := by
  unfold memlogAdd
  simp only [unregistered, mapRb, ask_bind, done_bind]
  have allocates : (kernel width).answer regions .malloc true regions := rfl
  have maps : (kernel width).answer regions
      (.vmmAllocPhysical (newRegion args va).size (newRegion args va).pa) (.some va)
      (newRegion args va :: regions) := .inr ⟨some, free, rfl⟩
  have writes : ∀ address value, (kernel width).answer (newRegion args va :: regions)
      (.store (newLog args va) address value) () (newRegion args va :: regions) :=
    fun _ _ => rfl
  exact .ask .refl allocates (.ask .refl maps
    (.ask .refl (writes _ _) (.ask .refl (writes _ _) (.ask .refl (writes _ _) (.done .refl)))))

theorem memlogAdd_stores (upheld : Upholds (kernel width) Inside (fun _ _ => True) (memlogAdd logs args) regions) :
    ∀ i < 4, Lands (newLog args va) (newRegion args va :: regions) ((newLog args va).sz + BitVec.ofNat width i) := by
  unfold memlogAdd at upheld
  simp only [unregistered, mapRb, ask_bind, done_bind] at upheld
  have allocates : (kernel width).answer regions .malloc true regions := rfl
  have maps : (kernel width).answer regions
      (.vmmAllocPhysical (newRegion args va).size (newRegion args va).pa) (.some va)
      (newRegion args va :: regions) := .inr ⟨some, free, rfl⟩
  exact ((upheld.answer allocates).answer maps).guarded

end

end Insane

def tiny : UInt64 × UInt32 := (0x80000000, 4)

def lastPage : UInt64 × UInt32 := (0xFFFFF000, 0x1000)

/-- The header of a tiny log is stored behind its buffer, and the last page can
be added twice. -/
theorem logs_not_confined : ¬Upholds (kernel 32) Inside (fun _ _ => True) (memlogAdd [] tiny) [] ∧
      ∃ (logs : List (Memlog 32)) (regions : List (Region 32)),
        Reached (fun _ => True) logs regions ∧ ¬logs.Pairwise Memlog.Disjoint := by
  constructor
  · intro upheld
    have free : Free [] (newRegion tiny 0x90000000#32) := ⟨by decide, by simp⟩
    have lands := memlogAdd_stores rfl (by decide) free upheld 0 (by decide)
    obtain ⟨pa, found, _, below⟩ := lands
    have is : pa = 0x80000008 := by
      apply Option.some.inj
      rw [← found]
      decide
    rw [is] at below
    nomatch below
  have free : Free [] (newRegion lastPage 0x90000000#32) := ⟨by decide, by simp⟩
  have freeToo : Free [newRegion lastPage 0x90000000#32] (newRegion lastPage 0x90100000#32) := by
    refine ⟨by decide, fun other mem address both => ?_⟩
    obtain rfl := mem_singleton.mp mem
    obtain ⟨⟨starts, _⟩, _, stops⟩ := both
    have adjacent : (newRegion lastPage 0x90000000#32).base.toNat + (newRegion lastPage 0x90000000#32).size.toNat =
          (newRegion lastPage 0x90100000#32).base.toNat := by
      decide
    omega
  have accepted : memlogIsMemRegistered [newLog lastPage 0x90000000#32]
      (lastPage.1.toBitVec.setWidth 32) (lastPage.2.toBitVec.setWidth 32) = false := by
    decide
  have first : memlogIsMemRegistered [] (lastPage.1.toBitVec.setWidth 32)
      (lastPage.2.toBitVec.setWidth 32) = false := rfl
  have once := memlogAdd_runs first (by decide) free
  have twice := memlogAdd_runs accepted (by decide) freeToo
  refine ⟨_, _, .add (.add .start trivial once) trivial twice, fun disjoint => ?_⟩
  have apart := pairwise_pair.mp disjoint
  unfold Memlog.Disjoint at apart
  nomatch apart

def ownPage : UInt64 × UInt32 := (0x80000000, 0x1000)

theorem own_page_confined : Reached (Sane 32) [newLog ownPage 0x90000000#32] [newRegion ownPage 0x90000000#32] ∧
      ∀ str, Upholds (kernel 32) Inside (fun _ _ => True)
        (memlogWrite (newLog ownPage 0x90000000#32) str) [newRegion ownPage 0x90000000#32] := by
  have free : Free [] (newRegion ownPage 0x90000000#32) := ⟨by decide, by simp⟩
  have reached : Reached (Sane 32) [newLog ownPage 0x90000000#32] [newRegion ownPage 0x90000000#32] :=
    .add .start (by decide) (memlogAdd_runs rfl (by decide) free)
  exact ⟨reached, (Reached.logs_confined (by decide) reached).2.1 _ mem_cons_self⟩

end Trusty.Monitor
