import Trusty.UserSpace.World

/-!
# Level 1 entries

Mapping and unmapping pages adds level 1 entries, but never changes the
attribute of one that is there.
-/

namespace Trusty.UserSpace

open Option

variable {memory : Memory} {ut next last : Uthread} {vaddr other value paddr l1Flags l2Flags : Word}

/-- The entries of `ut` are kept, and those added have the bits of `l1Flags`. -/
structure Extends (l1Flags : Word) (ut next : Uthread) : Prop where
  keeps : ∀ vaddr entry, ut.entry vaddr = some entry →
    ∃ kept, next.entry vaddr = some kept ∧ kept.bits = entry.bits
  origin : ∀ vaddr entry, next.entry vaddr = some entry →
    (∃ earlier, ut.entry vaddr = some earlier ∧ earlier.bits = entry.bits) ∨
      entry.bits = l1Flags ||| 1
  mapList : next.mapList = ut.mapList
  nsVaBottom : next.nsVaBottom = ut.nsVaBottom

theorem Extends.refl (l1Flags : Word) (ut : Uthread) : Extends l1Flags ut ut where
  keeps _ entry is := ⟨entry, is, rfl⟩
  origin _ entry is := .inl ⟨entry, is, rfl⟩
  mapList := rfl
  nsVaBottom := rfl

theorem Extends.trans (first : Extends l1Flags ut next) (second : Extends l1Flags next last) :
    Extends l1Flags ut last where
  keeps vaddr entry is := by
    obtain ⟨kept, keptIs, bits⟩ := first.keeps vaddr entry is
    obtain ⟨final, finalIs, finalBits⟩ := second.keeps vaddr kept keptIs
    exact ⟨final, finalIs, finalBits.trans bits⟩
  origin vaddr entry is := by
    cases second.origin vaddr entry is with
    | inr added => exact .inr added
    | inl middle =>
    obtain ⟨kept, keptIs, bits⟩ := middle
    rcases first.origin vaddr kept keptIs with start | added
    · obtain ⟨earlier, earlierIs, earlierBits⟩ := start
      exact .inl ⟨earlier, earlierIs, earlierBits.trans bits⟩
    · exact .inr (bits.symm.trans added)
  mapList := second.mapList.trans first.mapList
  nsVaBottom := second.nsVaBottom.trans first.nsVaBottom

theorem Extends.backed (more : Extends l1Flags ut next) (backed : ut.Backed vaddr) : next.Backed vaddr := by
  obtain ⟨entry, is⟩ := isSome_iff_exists.mp backed
  obtain ⟨kept, keptIs, _⟩ := more.keeps vaddr entry is
  exact isSome_iff_exists.mpr ⟨kept, keptIs⟩

theorem mapPage_extends : Extends l1Flags ut (mapPage ut vaddr l1Flags value) where
  keeps other entry is := by
    by_cases same : level1Index other = level1Index vaddr
    · rw [ut.entry_section same] at is
      rw [entry_mapPage_section same, entry_mapPage_same, is]
      exact ⟨_, rfl, rfl⟩
    · rw [entry_mapPage_ne same]
      exact ⟨entry, is, rfl⟩
  origin other entry is := by
    by_cases same : level1Index other = level1Index vaddr
    · rw [entry_mapPage_section same, entry_mapPage_same] at is
      rw [ut.entry_section same]
      cases before : ut.entry vaddr with
      | none =>
        rw [before] at is
        cases is
        exact .inr rfl
      | some earlier =>
      rw [before] at is
      cases is
      exact .inl ⟨earlier, rfl, rfl⟩
    · rw [entry_mapPage_ne same] at is
      exact .inl ⟨entry, is, rfl⟩
  mapList := rfl
  nsVaBottom := rfl

theorem mapPage_grownbacked (backed : ut.Backed vaddr) (flags : Word) :
    Extends l1Flags ut (mapPage ut vaddr flags value) := by
  have plain := @mapPage_extends ut vaddr value flags
  refine ⟨plain.keeps, ?_, rfl, rfl⟩
  intro other entry is
  obtain ⟨earlier, earlierIs⟩ := isSome_iff_exists.mp backed
  by_cases same : level1Index other = level1Index vaddr
  · rw [entry_mapPage_section same, entry_mapPage_same, earlierIs] at is
    rw [ut.entry_section same]
    cases is
    exact .inl ⟨earlier, earlierIs, rfl⟩
  · rw [entry_mapPage_ne same] at is
    exact .inl ⟨entry, is, rfl⟩

theorem armUthreadMmuUnmap_extends : Extends l1Flags ut (armUthreadMmuUnmap ut vaddr).2 := by
  by_cases backed : ut.Backed vaddr
  · rw [armUthreadMmuUnmap_eq backed]
    exact mapPage_grownbacked backed 0
  · rw [armUthreadMmuUnmap_missing backed]
    exact .refl l1Flags ut

variable {status : Status}

section

variable (is : armUthreadMmuMap memory ut paddr vaddr l1Flags l2Flags = some (status, next))
include is

theorem armUthreadMmuMap_ends : (status = .noError ∧ ut.descriptor vaddr = 0 ∧
      next = mapPage ut vaddr l1Flags (pageDescriptor paddr l2Flags)) ∨
    (status ≠ .noError ∧ (memory .level1 = false ∨ memory (.level2 vaddr) = false) ∧
      (∀ other, next.entry other = ut.entry other) ∧ next.mapList = ut.mapList ∧
      next.nsVaBottom = ut.nsVaBottom) := by
  by_cases supplied : ut.Supplied memory vaddr
  · rw [armUthreadMmuMap_supplied supplied] at is
    split at is
    · nomatch is
    · rename_i free
      cases is
      exact .inl ⟨rfl, not_not.mp free, rfl⟩
  · rw [armUthreadMmuMap_short supplied] at is
    cases is
    refine .inr ⟨nofun, ?_, fun other => ?_, rfl, rfl⟩
    · by_contra enough
      simp only [not_or, Bool.not_eq_false] at enough
      exact supplied (.inr ⟨.inr enough.1, enough.2⟩)
    unfold Uthread.entry Uthread.tabled level1Table
    dsimp only
    split
    · rename_i table
      rw [table]
    · rename_i table
      rw [table]
      split <;> rfl

theorem armUthreadMmuMap_cases : Extends l1Flags ut next ∧ (status = .noError → next.Backed vaddr) ∧
      (status ≠ .noError → memory .level1 = false ∨ memory (.level2 vaddr) = false) := by
  rcases armUthreadMmuMap_ends is with ⟨rfl, _, rfl⟩ | ⟨error, short, entries, list, bottom⟩
  · exact ⟨mapPage_extends, fun _ => mapPage_backed, fun error => absurd rfl error⟩
  refine ⟨⟨fun other entry known => ?_, fun other entry known => .inl ?_, list, bottom⟩,
    fun fine => absurd fine error, fun _ => short⟩
  · exact ⟨entry, (entries other).trans known, rfl⟩
  · exact ⟨entry, (entries other).symm.trans known, rfl⟩

end

theorem undoPages_extends {pages : Nat} : Extends l1Flags ut (undoPages ut vaddr pages) := by
  induction pages generalizing ut with
  | zero => exact .refl l1Flags ut
  | succ page ih => exact armUthreadMmuUnmap_extends.trans ih

variable {pg left : Nat}

theorem archUthreadUnmapLoop_extends : Extends l1Flags ut (archUthreadUnmapLoop vaddr ut pg left).2 := by
  induction left generalizing ut pg with
  | zero => exact .refl l1Flags ut
  | succ left ih =>
  unfold archUthreadUnmapLoop
  have one := @armUthreadMmuUnmap_extends ut (pageAddress vaddr pg) l1Flags
  by_cases here : ut.Backed (pageAddress vaddr pg)
  · rw [armUthreadMmuUnmap_eq here] at one ⊢
    exact one.trans ih
  · rw [armUthreadMmuUnmap_missing here]
    exact .refl l1Flags ut

/-- How both mapping loops go on from page `pg` with `left` pages to go. -/
inductive PageRun (memory : Memory) (vaddr l1Flags : Word) :
    Uthread → (pg left : Nat) → Status → Uthread → Prop where
  | done {ut : Uthread} {pg : Nat} : PageRun memory vaddr l1Flags ut pg 0 .noError ut
  | refused {ut : Uthread} {pg left : Nat} {status : Status} (error : status ≠ .noError) :
      PageRun memory vaddr l1Flags ut pg (left + 1) status (undoPages ut vaddr pg)
  | failed {ut next : Uthread} {pg left : Nat} {status : Status} {paddr l2Flags : Word}
      (error : status ≠ .noError)
      (is : armUthreadMmuMap memory ut paddr (pageAddress vaddr pg) l1Flags l2Flags =
        some (status, next)) :
      PageRun memory vaddr l1Flags ut pg (left + 1) status (undoPages next vaddr pg)
  | page {ut next last : Uthread} {pg left : Nat} {status : Status} {paddr l2Flags : Word}
      (is : armUthreadMmuMap memory ut paddr (pageAddress vaddr pg) l1Flags l2Flags =
        some (.noError, next)) :
      PageRun memory vaddr l1Flags next (pg + 1) left status last →
      PageRun memory vaddr l1Flags ut pg (left + 1) status last

/-- What both mapping loops give: from page `pg` on, `left` pages with entries. -/
structure Mapped (l1Flags : Word) (ut next : Uthread) (vaddr : Word) (pg left : Nat)
    (status : Status) : Prop where
  grown : Extends l1Flags ut next
  backed : status = .noError →
    ∀ page, pg ≤ page → page < pg + left → next.Backed (pageAddress vaddr page)

theorem PageRun.mapped (run : PageRun memory vaddr l1Flags ut pg left status next) :
    Mapped l1Flags ut next vaddr pg left status := by
  induction run with
  | done => exact ⟨.refl l1Flags _, fun _ page above below => by omega⟩
  | refused error => exact ⟨undoPages_extends, fun fine => absurd fine error⟩
  | failed error is =>
    exact ⟨(armUthreadMmuMap_cases is).1.trans undoPages_extends, fun fine => absurd fine error⟩
  | page is _ rest =>
  obtain ⟨more, here, _⟩ := armUthreadMmuMap_cases is
  refine ⟨more.trans rest.grown, fun fine page above below => ?_⟩
  rcases lt_or_eq_of_le above with later | same
  · exact rest.backed fine page later (by omega)
  · rw [← same]
    exact rest.grown.backed (here rfl)

theorem translateMapLoop_runs {source : PageSource} {vaddrSrc flags : Word} {first : Option PageAttributes}
    {pfnList : List Word} {result : TranslateResult}
    (is : translateMapLoop memory source vaddrSrc vaddr flags first pfnList ut pg left = some result) :
    PageRun memory vaddr (l1FlagsOf flags) ut pg left result.status result.ut := by
  induction left generalizing ut pg first pfnList with
  | zero =>
    cases is
    exact .done
  | succ left ih =>
  unfold translateMapLoop at is
  cases translated : source.translate flags vaddrSrc first pg with
  | error status =>
    rw [translated] at is
    cases is
    exact .refused (PageSource.translate_error translated)
  | ok found =>
  rw [translated] at is
  dsimp only at is
  cases mapped : armUthreadMmuMap memory ut found.1 (pageAddress vaddr pg)
      (l1FlagsOf flags) (l2FlagsOf flags found.2) with
  | none =>
    rw [mapped] at is
    cases is
  | some outcome =>
  obtain ⟨status, next⟩ := outcome
  rw [mapped] at is
  cases status with
  | noError => exact .page mapped (ih is)
  | errInvalidArgs | errNoMemory | errNotValid | errNotFound | errNotSupported =>
  cases is
  exact .failed (by simp) mapped

theorem archUthreadMapLoop_runs {mp : UthreadMap}
    (is : archUthreadMapLoop memory mp l1Flags l2Flags ut pg left = some (status, next)) :
    PageRun memory mp.vaddr l1Flags ut pg left status next := by
  induction left generalizing ut pg with
  | zero =>
    cases is
    exact .done
  | succ left ih =>
  unfold archUthreadMapLoop at is
  dsimp only at is
  generalize (if hasFlag mp.flags utmPhysContig = true then
    pageAddress (mp.pfnList.getD 0 0) pg else mp.pfnList.getD pg 0) = frame at is
  split at is
  · cases is
    exact .refused nofun
  cases mapped : armUthreadMmuMap memory ut frame (pageAddress mp.vaddr pg) l1Flags l2Flags with
  | none =>
    rw [mapped] at is
    cases is
  | some outcome =>
  obtain ⟨reached, middle⟩ := outcome
  rw [mapped] at is
  cases reached with
  | noError => exact .page mapped (ih is)
  | errInvalidArgs | errNoMemory | errNotValid | errNotFound | errNotSupported =>
  cases is
  exact .failed (by simp) mapped

theorem archUthreadMapLoop_noError {mp : UthreadMap} (tables : memory .level1 = true)
    (pages : ∀ vaddr, memory (.level2 vaddr) = true) (frames : ∀ paddr ∈ mp.pfnList, paddr.toNat % 4096 = 0)
    (is : archUthreadMapLoop memory mp l1Flags l2Flags ut pg left = some (status, next)) : status = .noError := by
  have listed : ∀ page, (mp.pfnList.getD page 0).toNat % 4096 = 0 := by
    intro page
    rw [List.getD_eq_getElem?_getD]
    cases found : mp.pfnList[page]? with
    | none => rfl
    | some paddr => exact frames paddr (List.mem_of_getElem? found)
  induction left generalizing ut pg with
  | zero =>
    cases is
    rfl
  | succ left ih =>
  unfold archUthreadMapLoop at is
  have aligned : (if hasFlag mp.flags utmPhysContig = true then
      pageAddress (mp.pfnList.getD 0 0) pg else mp.pfnList.getD pg 0) &&& pageMask = 0 := by
    apply BitVec.eq_of_toNat_eq
    rw [offset_toNat]
    split
    · have first := listed 0
      rw [pageAddress_toNat]
      change _ % 4096 = 0
      omega
    · exact listed pg
  rw [if_neg (not_not.mpr aligned)] at is
  generalize (if hasFlag mp.flags utmPhysContig = true then
    pageAddress (mp.pfnList.getD 0 0) pg else mp.pfnList.getD pg 0) = frame at is
  cases mapped : armUthreadMmuMap memory ut frame (pageAddress mp.vaddr pg) l1Flags l2Flags with
  | none =>
    rw [mapped] at is
    cases is
  | some outcome =>
  obtain ⟨reached, middle⟩ := outcome
  obtain ⟨_, _, short⟩ := armUthreadMmuMap_cases mapped
  have fine : reached = .noError := by
    by_contra error
    rcases short error with none' | none'
    · nomatch none'.symm.trans tables
    · nomatch none'.symm.trans (pages _)
  rw [mapped, fine] at is
  exact ih is

end Trusty.UserSpace
