import Trusty.UserSpace.Uthread

/-!
# Page table facts

What one page more or less does to a page table, and what the loops over pages do.
-/

namespace Trusty.UserSpace

open BitVec Option Function

variable {ut : Uthread} {vaddr other value l1Flags : Word}

def slot (vaddr : Word) : Nat := vaddr.toNat / 4096 % 8192

theorem level1Index_eq (vaddr : Word) : level1Index vaddr = slot vaddr / 256 := by
  unfold level1Index slot
  rw [toNat_and, toNat_ushiftRight, Nat.shiftRight_eq_div_pow,
    show (0x1f : Word).toNat = 2 ^ 5 - 1 from rfl, Nat.and_two_pow_sub_one_eq_mod]
  omega

theorem level2Index_eq (vaddr : Word) : level2Index vaddr = slot vaddr % 256 := by
  unfold level2Index slot
  rw [toNat_and, toNat_ushiftRight, Nat.shiftRight_eq_div_pow,
    show (0xff : Word).toNat = 2 ^ 8 - 1 from rfl, Nat.and_two_pow_sub_one_eq_mod]
  omega

theorem slot_eq_iff : slot vaddr = slot other ↔
    level1Index vaddr = level1Index other ∧ level2Index vaddr = level2Index other := by
  simp only [level1Index_eq, level2Index_eq]
  constructor
  · intro same
    rw [same]
    exact ⟨rfl, rfl⟩
  · intro same
    omega

theorem pageAddress_toNat (vaddr : Word) (page : Nat) :
    (pageAddress vaddr page).toNat = (vaddr.toNat + 4096 * page) % 4294967296 := by
  have size : pageSize.toNat = 4096 := rfl
  unfold pageAddress
  rw [toNat_add, toNat_mul, toNat_ofNat, size]
  omega

theorem slot_pageAddress (vaddr : Word) (page : Nat) :
    slot (pageAddress vaddr page) = (vaddr.toNat / 4096 + page) % 8192 := by
  unfold slot
  rw [pageAddress_toNat]
  omega

theorem slot_pageAddress_ne {first second : Nat} (below : first < second) (near : second < first + 8192) :
    slot (pageAddress vaddr first) ≠ slot (pageAddress vaddr second) := by
  rw [slot_pageAddress, slot_pageAddress]
  omega

def Uthread.entry (ut : Uthread) (vaddr : Word) : Option Level1Entry :=
  ut.pageTable.bind (· (level1Index vaddr))

def Uthread.descriptor (ut : Uthread) (vaddr : Word) : Word :=
  ((ut.entry vaddr).map fun entry => entry.level2 (level2Index vaddr)).getD 0

def Uthread.Backed (ut : Uthread) (vaddr : Word) : Prop := (ut.entry vaddr).isSome

theorem Uthread.pageTable_eta (ut : Uthread) {pageTable : Option PageTable}
    (same : ut.pageTable = pageTable) : { ut with pageTable } = ut := by
  rw [← same]

def mapPage (ut : Uthread) (vaddr l1Flags descriptor : Word) : Uthread :=
  let entry := (ut.entry vaddr).getD ⟨l1Flags ||| 1, fun _ => 0⟩
  { ut with
    pageTable := some (installPage (ut.pageTable.getD fun _ => none) entry vaddr descriptor) }

theorem entry_mapPage_same : (mapPage ut vaddr l1Flags value).entry vaddr =
      some { (ut.entry vaddr).getD ⟨l1Flags ||| 1, fun _ => 0⟩ with
        level2 := update ((ut.entry vaddr).getD ⟨l1Flags ||| 1, fun _ => 0⟩).level2 (level2Index vaddr) value } := by
  simp only [mapPage, Uthread.entry, installPage, bind_some, update_self]

theorem entry_mapPage_section (same : level1Index other = level1Index vaddr) :
    (mapPage ut vaddr l1Flags value).entry other = (mapPage ut vaddr l1Flags value).entry vaddr := by
  unfold Uthread.entry
  rw [same]

theorem entry_mapPage_ne (differs : level1Index other ≠ level1Index vaddr) :
    (mapPage ut vaddr l1Flags value).entry other = ut.entry other := by
  simp only [mapPage, Uthread.entry, installPage, bind_some, update_of_ne differs]
  cases ut.pageTable <;> rfl

theorem Uthread.entry_section (same : level1Index other = level1Index vaddr) : ut.entry other = ut.entry vaddr := by
  unfold Uthread.entry
  rw [same]

theorem descriptor_mapPage : (mapPage ut vaddr l1Flags value).descriptor other =
      if slot other = slot vaddr then value else ut.descriptor other := by
  by_cases sameSection : level1Index other = level1Index vaddr
  · unfold Uthread.descriptor
    rw [entry_mapPage_section sameSection, entry_mapPage_same, ut.entry_section sameSection]
    by_cases page : level2Index other = level2Index vaddr
    · simp [slot_eq_iff.mpr ⟨sameSection, page⟩, page]
    · have apart : slot other ≠ slot vaddr := fun same => page (slot_eq_iff.mp same).2
      simp only [map_some, getD_some, update_of_ne page, if_neg apart]
      cases ut.entry vaddr <;> rfl
  · have apart : slot other ≠ slot vaddr := fun same => sameSection (slot_eq_iff.mp same).1
    unfold Uthread.descriptor
    rw [entry_mapPage_ne sameSection, if_neg apart]

theorem Uthread.Backed.mapPage (backed : ut.Backed other) : (mapPage ut vaddr l1Flags value).Backed other := by
  unfold Uthread.Backed at *
  by_cases sameSection : level1Index other = level1Index vaddr
  · rw [entry_mapPage_section sameSection, entry_mapPage_same]
    rfl
  · rw [entry_mapPage_ne sameSection]
    exact backed

theorem mapPage_backed : (mapPage ut vaddr l1Flags value).Backed vaddr := by
  unfold Uthread.Backed
  rw [entry_mapPage_same]
  rfl

theorem armUthreadMmuUnmap_eq (backed : ut.Backed vaddr) :
    armUthreadMmuUnmap ut vaddr = (.noError, mapPage ut vaddr 0 0) := by
  unfold Uthread.Backed Uthread.entry at backed
  unfold armUthreadMmuUnmap mapPage Uthread.entry
  cases table : ut.pageTable with
  | none => simp [table] at backed
  | some pageTable =>
  rw [table, bind_some] at backed
  obtain ⟨entry, is⟩ := isSome_iff_exists.mp backed
  simp [is]

theorem armUthreadMmuUnmap_missing (missing : ¬ut.Backed vaddr) :
    armUthreadMmuUnmap ut vaddr = (.errInvalidArgs, ut) := by
  unfold Uthread.Backed Uthread.entry at missing
  unfold armUthreadMmuUnmap
  cases table : ut.pageTable with
  | none => rfl
  | some pageTable =>
  rw [table, bind_some, not_isSome_iff_eq_none] at missing
  simp [missing]

theorem Uthread.Backed.unmap (backed : ut.Backed other) : (armUthreadMmuUnmap ut vaddr).2.Backed other := by
  by_cases here : ut.Backed vaddr
  · rw [armUthreadMmuUnmap_eq here]
    exact backed.mapPage
  · rw [armUthreadMmuUnmap_missing here]
    exact backed

theorem mapPage_of_entry {pageTable : PageTable} {entry : Level1Entry} (table : ut.pageTable = some pageTable)
    (is : pageTable (level1Index vaddr) = some entry) :
    mapPage ut vaddr l1Flags value = { ut with pageTable := some (installPage pageTable entry vaddr value) } := by
  simp only [mapPage, Uthread.entry, table, bind_some, is, getD_some]

theorem unmap_mapPage (backed : ut.Backed vaddr) (clear : ut.descriptor vaddr = 0) :
    (armUthreadMmuUnmap (mapPage ut vaddr l1Flags value) vaddr).2 = ut := by
  rw [armUthreadMmuUnmap_eq mapPage_backed]
  obtain ⟨entry, is⟩ := isSome_iff_exists.mp backed
  unfold Uthread.descriptor at clear
  rw [is, map_some, getD_some] at clear
  obtain ⟨pageTable, table, is⟩ := bind_eq_some_iff.mp is
  have after : installPage pageTable entry vaddr value (level1Index vaddr) = some { entry with
        level2 := update entry.level2 (level2Index vaddr) value } :=
    update_self ..
  rw [mapPage_of_entry table is, mapPage_of_entry rfl after]
  apply ut.pageTable_eta
  simp only [installPage, update_idem]
  rw [← clear, update_eq_self, table, ← is, update_eq_self]

/-- The descriptor that `arm_uthread_mmu_map` writes. -/
def pageDescriptor (paddr l2Flags : Word) : Word :=
  paddr ||| (mmuMemoryL2NonGlobal ||| l2Flags ||| 2)

theorem pageDescriptor_ne_zero (paddr l2Flags : Word) : pageDescriptor paddr l2Flags ≠ 0 := by
  intro zero
  have bit := congrArg (BitVec.getLsbD · 1) zero
  simp [pageDescriptor] at bit

def plenty : Memory := fun _ => true

/-- The level 2 table of an address is there or can be allocated. -/
def Uthread.Supplied (memory : Memory) (ut : Uthread) (vaddr : Word) : Prop :=
  ut.Backed vaddr ∨ (ut.pageTable.isSome ∨ memory .level1) ∧ memory (.level2 vaddr)

section Allocations

variable {memory : Memory} {paddr l2Flags : Word}

theorem armUthreadMmuMap_supplied (supplied : ut.Supplied memory vaddr) :
    armUthreadMmuMap memory ut paddr vaddr l1Flags l2Flags = if ut.descriptor vaddr ≠ 0 then none
      else some (.noError, mapPage ut vaddr l1Flags (pageDescriptor paddr l2Flags)) := by
  unfold Uthread.Supplied Uthread.Backed at supplied
  unfold armUthreadMmuMap level1Table level2Table mapPage Uthread.descriptor pageDescriptor
  unfold Uthread.entry at *
  cases table : ut.pageTable with
  | none =>
    simp only [table, bind_none, isSome_none, Bool.false_eq_true, false_or] at supplied
    simp [supplied]
  | some pageTable =>
  cases is : pageTable (level1Index vaddr) with
  | none =>
    simp only [table, bind_some, is, isSome_none, isSome_some, Bool.false_eq_true, false_or, true_or, true_and]
      at supplied
    simp [is, supplied]
  | some entry => simp [is]

/-- The thread with a level 1 table, if there is one or it can be allocated. -/
def Uthread.tabled (memory : Memory) (ut : Uthread) : Uthread :=
  { ut with pageTable := level1Table memory ut }

theorem armUthreadMmuMap_short (short : ¬ut.Supplied memory vaddr) :
    armUthreadMmuMap memory ut paddr vaddr l1Flags l2Flags = some (.errNoMemory, ut.tabled memory) := by
  unfold Uthread.tabled
  unfold Uthread.Supplied Uthread.Backed Uthread.entry at short
  unfold armUthreadMmuMap level2Table
  cases first : level1Table memory ut with
  | none =>
    have missing : ut.pageTable = none := by
      unfold level1Table at first
      split at first
      · nomatch first
      · assumption
    dsimp only
    rw [ut.pageTable_eta missing]
  | some pageTable =>
  have known : ut.pageTable.isSome ∨ memory .level1 = true := by
    unfold level1Table at first
    split at first
    · simp [*]
    · exact .inr (by_contra fun no => by simp [no] at first)
  have missing : pageTable (level1Index vaddr) = none := by
    unfold level1Table at first
    split at first
    · rename_i table
      cases first
      rw [table, bind_some] at short
      simpa using (not_or.mp short).1
    · split at first
      · cases first
        rfl
      · nomatch first
  have refused : memory (.level2 vaddr) = false :=
    Bool.not_eq_true _ |>.mp fun enough => short (.inr ⟨known, enough⟩)
  simp [missing, refused]

theorem tabled_eq (kept : ut.pageTable.isSome ∨ memory .level1 = false) : ut.tabled memory = ut := by
  apply ut.pageTable_eta
  unfold level1Table
  cases table : ut.pageTable with
  | some pageTable => rfl
  | none =>
  rw [table] at kept
  rw [kept.resolve_left nofun]
  rfl

theorem Uthread.Backed.table (backed : ut.Backed vaddr) : ut.pageTable.isSome := by
  obtain ⟨_, is⟩ := isSome_iff_exists.mp backed
  obtain ⟨_, table, _⟩ := bind_eq_some_iff.mp is
  rw [table]
  rfl

theorem supplied_mapPage (backed : ut.Backed vaddr) :
    (mapPage ut vaddr l1Flags value).Supplied memory other ↔ ut.Supplied memory other := by
  have entries : (mapPage ut vaddr l1Flags value).Backed other ↔ ut.Backed other := by
    refine ⟨fun after => ?_, fun before => before.mapPage⟩
    by_cases same : level1Index other = level1Index vaddr
    · unfold Uthread.Backed
      rw [ut.entry_section same]
      exact backed
    · unfold Uthread.Backed at *
      rwa [entry_mapPage_ne same] at after
  unfold Uthread.Supplied
  rw [entries, backed.table]
  rfl

end Allocations

def mapPages (ut : Uthread) (vaddr l1Flags : Word) (values : Nat → Word) : Nat → Uthread
  | 0 => ut
  | page + 1 =>
    mapPage (mapPages ut vaddr l1Flags values page) (pageAddress vaddr page) l1Flags (values page)

structure Clear (ut : Uthread) (vaddr : Word) (pages : Nat) : Prop where
  distinct : pages ≤ 8192
  unmapped : ∀ page, page < pages → ut.descriptor (pageAddress vaddr page) = 0

theorem Clear.le {pages fewer : Nat} (clear : Clear ut vaddr pages) (le : fewer ≤ pages) : Clear ut vaddr fewer :=
  ⟨le_trans le clear.distinct, fun page below => clear.unmapped page (by omega)⟩

section Range

variable {values : Nat → Word} {pages : Nat}

theorem mapPages_fields : (mapPages ut vaddr l1Flags values pages).mapList = ut.mapList ∧
    (mapPages ut vaddr l1Flags values pages).nsVaBottom = ut.nsVaBottom ∧
    (mapPages ut vaddr l1Flags values pages).startStack = ut.startStack := by
  induction pages with
  | zero => exact ⟨rfl, rfl, rfl⟩
  | succ page ih => exact ih

theorem mapPages_backed {page : Nat} (below : page < pages) :
    (mapPages ut vaddr l1Flags values pages).Backed (pageAddress vaddr page) := by
  induction pages with
  | zero => omega
  | succ last ih =>
  rcases lt_or_eq_of_le (Nat.le_of_lt_succ below) with earlier | same
  · exact (ih earlier).mapPage
  · rw [same]
    exact mapPage_backed

theorem Uthread.Backed.mapPages (backed : ut.Backed other) : (mapPages ut vaddr l1Flags values pages).Backed other := by
  induction pages with
  | zero => exact backed
  | succ last ih => exact ih.mapPage

theorem supplied_mapPages {memory : Memory} (backed : ∀ page, page < pages → ut.Backed (pageAddress vaddr page)) :
    (mapPages ut vaddr l1Flags values pages).Supplied memory other ↔ ut.Supplied memory other := by
  induction pages with
  | zero => exact Iff.rfl
  | succ last ih =>
  have before := ih fun page below => backed page (Nat.lt_succ_of_lt below)
  exact (supplied_mapPage (backed last (Nat.lt_succ_self last)).mapPages).trans before

theorem mapPages_outside (outside : ∀ page, page < pages → slot other ≠ slot (pageAddress vaddr page)) :
    (mapPages ut vaddr l1Flags values pages).descriptor other = ut.descriptor other := by
  induction pages with
  | zero => rfl
  | succ last ih =>
  unfold mapPages
  rw [descriptor_mapPage, if_neg (outside last (Nat.lt_succ_self last))]
  exact ih fun page below => outside page (Nat.lt_succ_of_lt below)

theorem mapPages_inside (few : pages ≤ 8192) {page : Nat} (below : page < pages) :
    (mapPages ut vaddr l1Flags values pages).descriptor (pageAddress vaddr page) = values page := by
  induction pages with
  | zero => omega
  | succ last ih =>
  unfold mapPages
  rw [descriptor_mapPage]
  rcases lt_or_eq_of_le (Nat.le_of_lt_succ below) with earlier | same
  · rw [if_neg (slot_pageAddress_ne earlier (by omega))]
    exact ih (by omega) earlier
  · rw [same, if_pos rfl]

theorem mapPages_next (clear : Clear ut vaddr (pages + 1)) :
    (mapPages ut vaddr l1Flags values pages).descriptor (pageAddress vaddr pages) = 0 := by
  rw [mapPages_outside]
  · exact clear.unmapped pages (Nat.lt_succ_self pages)
  · intro page below same
    have distinct := clear.distinct
    exact slot_pageAddress_ne below (by omega) same.symm

theorem Clear.next (clear : Clear ut vaddr pages) (set : ∀ page, values page ≠ 0)
    (free : (mapPages ut vaddr l1Flags values pages).descriptor (pageAddress vaddr pages) = 0) :
    Clear ut vaddr (pages + 1) := by
  have distinct := clear.distinct
  have few : pages + 1 ≤ 8192 := by
    by_contra many
    have full : pages = 8192 := by omega
    have same : slot (pageAddress vaddr pages) = slot (pageAddress vaddr 0) := by
      rw [slot_pageAddress, slot_pageAddress, full]
      omega
    have first := @mapPages_inside ut vaddr l1Flags values pages distinct 0 (by omega)
    obtain ⟨sections, places⟩ := slot_eq_iff.mp same
    unfold Uthread.descriptor at free first
    rw [Uthread.entry_section sections, places] at free
    exact set 0 (first.symm.trans free)
  refine ⟨few, fun page below => ?_⟩
  rcases lt_or_eq_of_le (Nat.le_of_lt_succ below) with earlier | same
  · exact clear.unmapped page earlier
  · rw [same, ← free, mapPages_outside]
    intro page below
    exact (slot_pageAddress_ne below (by omega)).symm

theorem undoPages_mapPages (clear : Clear ut vaddr pages)
    (backed : ∀ page, page < pages → ut.Backed (pageAddress vaddr page)) :
    undoPages (mapPages ut vaddr l1Flags values pages) vaddr pages = ut := by
  induction pages with
  | zero => rfl
  | succ last ih =>
  unfold undoPages mapPages
  rw [unmap_mapPage (backed last (Nat.lt_succ_self last)).mapPages (mapPages_next clear)]
  exact ih (clear.le (Nat.le_succ last)) fun page below =>
    backed page (Nat.lt_succ_of_lt below)

end Range

theorem archUthreadUnmapLoop_backed {pg left : Nat}
    (backed : ∀ page, pg ≤ page → page < pg + left → ut.Backed (pageAddress vaddr page)) :
    (archUthreadUnmapLoop vaddr ut pg left).1 = .noError := by
  induction left generalizing ut pg with
  | zero => rfl
  | succ left ih =>
  have here := backed pg (le_refl pg) (by omega)
  unfold archUthreadUnmapLoop
  rw [armUthreadMmuUnmap_eq here]
  exact ih fun page above below => (backed page (by omega) (by omega)).mapPage

theorem archUthreadUnmapLoop_fields {pg left : Nat} : (archUthreadUnmapLoop vaddr ut pg left).2.mapList = ut.mapList ∧
      (archUthreadUnmapLoop vaddr ut pg left).2.nsVaBottom = ut.nsVaBottom := by
  induction left generalizing ut pg with
  | zero => exact ⟨rfl, rfl⟩
  | succ left ih =>
  unfold archUthreadUnmapLoop
  by_cases here : ut.Backed (pageAddress vaddr pg)
  · rw [armUthreadMmuUnmap_eq here]
    exact ih
  · rw [armUthreadMmuUnmap_missing here]
    exact ⟨rfl, rfl⟩

end Trusty.UserSpace
