import Trusty.UserSpace.WorldSafety

/-!
# Ranges for user copies

`uthread_is_valid_range` answers from the list of mappings, a copy goes through the
page table. They agree in every run that leaves no record without its pages.
-/

namespace Trusty.UserSpace

open List Option

variable {memory : Memory} {base ut next : Uthread} {mp item : UthreadMap}
  {vaddr other l1Flags : Word} {pg left : Nat} {status : Status}

def uthreadIsValidRange (ut : Uthread) (vaddr size : Word) : Bool :=
  (uthreadMapFind ut vaddr size).isSome

def Uthread.Present (ut : Uthread) (vaddr : Word) : Prop :=
  vaddr.toNat < maxUsrVa.toNat ∧ ut.descriptor vaddr ≠ 0

/-- A record is made at a page of the user range, and its pages can be mapped. -/
def Call.Whole (ut : Uthread) (call : Call) : Prop :=
  ∀ mp, call.record ut = some mp → call.Mappable mp ∧ mp.vaddr.toNat % 4096 = 0 ∧
    mp.vaddr.toNat + mp.size.toNat ≤ maxUsrVa.toNat

/-- The threads of all runs. If `whole` holds, every call is whole. -/
inductive Served (whole : Prop) : Uthread → Prop where
  | created (startStack : Word) : Served whole ⟨startStack, maxUsrVa, [], none⟩
  | called {ut next : Uthread} (call : Call) : Served whole ut → (whole → call.Whole ut) →
      call.run ut = some next → Served whole next

theorem descriptor_slot (same : slot vaddr = slot other) : ut.descriptor vaddr = ut.descriptor other := by
  obtain ⟨first, second⟩ := slot_eq_iff.mp same
  unfold Uthread.descriptor
  rw [ut.entry_section first, second]

theorem backed_of_descriptor (present : ut.descriptor vaddr ≠ 0) : ut.Backed vaddr := by
  unfold Uthread.descriptor at present
  unfold Uthread.Backed
  cases entry : ut.entry vaddr with
  | none => simp [entry] at present
  | some known => rfl

theorem armUthreadMmuUnmap_apart (apart : slot other ≠ slot vaddr) :
    (armUthreadMmuUnmap ut vaddr).2.descriptor other = ut.descriptor other := by
  by_cases backed : ut.Backed vaddr
  · rw [armUthreadMmuUnmap_eq backed, descriptor_mapPage, if_neg apart]
  · rw [armUthreadMmuUnmap_missing backed]

theorem undoPages_apart (apart : ∀ page, page < pg → slot other ≠ slot (pageAddress vaddr page)) :
    (undoPages ut vaddr pg).descriptor other = ut.descriptor other := by
  induction pg generalizing ut with
  | zero => rfl
  | succ pg ih =>
  unfold undoPages
  rw [ih fun page below => apart page (by omega)]
  exact armUthreadMmuUnmap_apart (apart pg (by omega))

theorem archUthreadUnmapLoop_apart (apart : ∀ page, pg ≤ page → page < pg + left →
      slot other ≠ slot (pageAddress vaddr page)) :
    (archUthreadUnmapLoop vaddr ut pg left).2.descriptor other = ut.descriptor other := by
  induction left generalizing ut pg with
  | zero => rfl
  | succ left ih =>
  have one := @armUthreadMmuUnmap_apart ut _ other (apart pg (le_refl pg) (by omega))
  unfold archUthreadUnmapLoop
  generalize armUthreadMmuUnmap ut (pageAddress vaddr pg) = outcome at one
  obtain ⟨status, rest⟩ := outcome
  cases status with
  | noError => exact (ih fun page above below => apart page (by omega) (by omega)).trans one
  | errInvalidArgs | errNoMemory | errNotValid | errNotFound | errNotSupported => exact one

/-- The pages before `pg` were free in `base` and are mapped in `ut`, where the pages of `base`
are still mapped. -/
structure Filled (base ut : Uthread) (vaddr : Word) (pg : Nat) : Prop where
  free : ∀ page, page < pg → base.descriptor (pageAddress vaddr page) = 0
  kept : ∀ other, base.descriptor other ≠ 0 → ut.descriptor other ≠ 0
  set : ∀ page, page < pg → ut.descriptor (pageAddress vaddr page) ≠ 0

theorem Filled.page {paddr l2Flags : Word} (filled : Filled base ut vaddr pg)
    (is : armUthreadMmuMap memory ut paddr (pageAddress vaddr pg) l1Flags l2Flags = some (.noError, next)) :
    Filled base next vaddr (pg + 1) := by
  rcases armUthreadMmuMap_ends is with ⟨_, free, rfl⟩ | ⟨error, _⟩
  · have more : ∀ other, ut.descriptor other ≠ 0 → (mapPage ut (pageAddress vaddr pg) l1Flags
        (pageDescriptor paddr l2Flags)).descriptor other ≠ 0 := by
      intro other present
      rw [descriptor_mapPage]
      split
      · exact pageDescriptor_ne_zero _ _
      · exact present
    refine ⟨fun page below => ?_, fun other present => more other (filled.kept other present), fun page below => ?_⟩
    · rcases lt_or_eq_of_le (Nat.le_of_lt_succ below) with earlier | rfl
      · exact filled.free page earlier
      · by_contra present
        exact filled.kept _ present free
    · rcases lt_or_eq_of_le (Nat.le_of_lt_succ below) with earlier | rfl
      · exact more _ (filled.set page earlier)
      · rw [descriptor_mapPage, if_pos rfl]
        exact pageDescriptor_ne_zero _ _
  · exact absurd rfl error

theorem Filled.undone (filled : Filled base ut vaddr pg) (present : base.descriptor other ≠ 0) :
    (undoPages ut vaddr pg).descriptor other ≠ 0 := by
  rw [undoPages_apart]
  · exact filled.kept other present
  · intro page below same
    exact present ((descriptor_slot same).trans (filled.free page below))

theorem PageRun.filled (run : PageRun memory vaddr l1Flags ut pg left status next) (filled : Filled base ut vaddr pg) :
    (∀ other, base.descriptor other ≠ 0 → next.descriptor other ≠ 0) ∧
      (status = .noError → Filled base next vaddr (pg + left)) := by
  induction run with
  | done => exact ⟨filled.kept, fun _ => filled⟩
  | refused error => exact ⟨fun _ => filled.undone, fun fine => absurd fine error⟩
  | failed error is =>
    rcases armUthreadMmuMap_ends is with ⟨fine, _⟩ | ⟨_, _, entries, _⟩
    · contradiction
    · refine ⟨fun _ => Filled.undone ⟨filled.free, ?_, ?_⟩, fun fine => absurd fine error⟩
      · simpa only [Uthread.descriptor, entries] using filled.kept
      · simpa only [Uthread.descriptor, entries] using filled.set
  | page is _ rest =>
  obtain ⟨kept, all⟩ := rest (filled.page is)
  refine ⟨kept, fun fine => ?_⟩
  rw [← add_assoc, add_right_comm]
  exact all fine

structure UthreadMap.Paged (mp : UthreadMap) : Prop where
  start : mp.vaddr.toNat % 4096 = 0
  whole : mp.size.toNat % 4096 = 0
  fits : mp.top ≤ 33554432
  nonempty : mp.vaddr.toNat < mp.top

theorem UthreadMap.Paged.apart (paged : mp.Paged) (itemPaged : item.Paged)
    (order : mp.top ≤ item.vaddr.toNat ∨ item.top ≤ mp.vaddr.toNat) {page itemPage : Nat}
    (below : page < mp.pages) (itemBelow : itemPage < item.pages) :
    slot (pageAddress mp.vaddr page) ≠ slot (pageAddress item.vaddr itemPage) := by
  have fits := paged.fits
  have itemFits := itemPaged.fits
  rw [pages_eq] at below itemBelow
  unfold UthreadMap.top at *
  rw [slot_pageAddress, slot_pageAddress]
  omega

structure Tabled (ut : Uthread) : Prop where
  paged : ∀ mp ∈ ut.mapList, mp.Paged
  sorted : ut.mapList.Pairwise fun first second => first.top ≤ second.vaddr.toNat
  present : ∀ mp ∈ ut.mapList, ∀ page, page < mp.pages →
    ut.descriptor (pageAddress mp.vaddr page) ≠ 0

theorem Tabled.added (tabled : Tabled ut) (paged : mp.Paged)
    (inserted : insertMap mp ut.mapList = some next.mapList)
    (filled : Filled ut next mp.vaddr mp.pages) : Tabled next where
  paged item among := by
    rcases (insertMap_mem inserted item).mp among with rfl | old
    · exact paged
    · exact tabled.paged item old
  sorted := insertMap_sorted (fun item among => (tabled.paged item among).fits)
    (fun item among => (tabled.paged item among).nonempty) tabled.sorted paged.fits inserted
  present item among page below := by
    rcases (insertMap_mem inserted item).mp among with rfl | old
    · exact filled.set page below
    · exact filled.kept _ (tabled.present item old page below)

theorem Call.Whole.paged {call : Call} (whole : call.Whole ut) (record : call.record ut = some mp)
    (positive : mp.vaddr < mp.limit) : mp.Paged := by
  obtain ⟨_, start, fits⟩ := whole mp record
  refine ⟨start, ?_, fits, top_of_positive positive fits⟩
  cases call with
  | map memory vaddrp pfnList size flags align =>
    simp only [Call.record] at record
    split at record
    · nomatch record
    rename_i whole
    split at record
    · nomatch record
    split at record
    · nomatch record
    rename_i alloc
    obtain ⟨kept, rfl, _⟩ := uthreadMapAlloc_ok alloc
    cases record
    rw [← offset_toNat, not_not.mp whole]
    rfl
  | grant memory source vaddrSrc size flags =>
    simp only [Call.record] at record
    split at record
    · nomatch record
    split at record
    · nomatch record
    cases record
    unfold Align.up
    rw [@Align.down_toNat 32 (by decide) _ pageSize 12 rfl]
    exact Nat.mul_mod_left _ _
  | unmap | revoke => nomatch record

variable {size : Word}

theorem Tabled.mapped (tabled : Tabled ut) {vaddrp flags align : Word} {pfnList : List Word} {result : MapResult}
    (whole : (Call.map memory vaddrp pfnList size flags align).Whole ut)
    (is : uthreadMap memory ut vaddrp pfnList size flags align = some result) : Tabled result.ut := by
  rcases uthreadMap_cases is with same | ⟨mp, inserted, record, allocated, mapped, -⟩
  · rw [same]
    exact tabled
  have paged := whole.paged record allocated.positive
  obtain ⟨tables, pages, frames⟩ := (whole mp record).1
  have same : ∀ other, inserted.descriptor other = ut.descriptor other := by
    intro other
    unfold Uthread.descriptor Uthread.entry
    rw [allocated.tables]
  unfold archUthreadMap at mapped
  rw [if_neg (range_fits paged.fits)] at mapped
  have run := archUthreadMapLoop_runs mapped
  have fine : result.status = .noError := archUthreadMapLoop_noError tables pages frames mapped
  have filled := (run.filled ⟨nofun, fun other present => (same other).symm ▸ present, nofun⟩).2 fine
  refine tabled.added paged ?_ (zero_add mp.pages ▸ filled)
  rw [run.mapped.grown.mapList]
  exact allocated.inserted

theorem Tabled.granted (tabled : Tabled ut) {source : PageSource} {vaddrSrc flags vaddrTarget : Word}
    {result : MapResult} (whole : (Call.grant memory source vaddrSrc size flags).Whole ut)
    (is : uthreadGrantPages memory source ut vaddrSrc size flags vaddrTarget = some result) : Tabled result.ut := by
  rcases uthreadGrantPages_cases is with
    same | ⟨mp, status, grown, frames, record, _, _, translated, rest⟩
  · rw [same]
    exact tabled
  have run := translateMapLoop_runs translated
  have list : grown.mapList = ut.mapList := run.mapped.grown.mapList
  have start : Filled ut ut mp.vaddr 0 := ⟨nofun, fun _ present => present, nofun⟩
  obtain ⟨kept, filled⟩ := run.filled start
  rcases rest with same | ⟨rfl, pfnList, allocated⟩
  · rw [same]
    refine ⟨list ▸ tabled.paged, list ▸ tabled.sorted, fun mp among page below => ?_⟩
    exact kept _ (tabled.present mp (list ▸ among) page below)
  have same : ∀ other, result.ut.descriptor other = grown.descriptor other := by
    intro other
    unfold Uthread.descriptor Uthread.entry
    rw [allocated.tables]
  have paged := whole.paged record allocated.positive
  obtain ⟨free, kept, set⟩ := filled rfl
  rw [zero_add] at free set
  exact @Tabled.added ut result.ut { mp with pfnList } tabled { paged with } (list ▸ allocated.inserted)
    ⟨free, fun other present => (same other) ▸ kept other present, fun page below => (same _) ▸ set page below⟩

theorem Tabled.unmapped (tabled : Tabled ut) : Tabled (uthreadUnmap ut vaddr size).2 := by
  unfold uthreadUnmap
  split
  · exact tabled
  cases found : uthreadMapFind ut vaddr size with
  | none => exact tabled
  | some node =>
  unfold uthreadMapFind at found
  split at found
  · nomatch found
  have shape := (findNode_covers found).2
  have members : ∀ mp, mp ∈ ut.mapList ↔ mp = node.mp ∨ mp ∈ node.before ++ node.after := by
    intro mp
    simp only [shape, mem_append, mem_cons]
    tauto
  have own : node.mp ∈ ut.mapList := (members _).mpr (.inl rfl)
  have fine := @archUthreadUnmapLoop_backed ut node.mp.vaddr 0 node.mp.pages
    fun page _ below => backed_of_descriptor (tabled.present _ own page (by omega))
  have apart := fun other => @archUthreadUnmapLoop_apart ut node.mp.vaddr other 0 node.mp.pages
  unfold archUthreadUnmap
  dsimp only
  generalize archUthreadUnmapLoop node.mp.vaddr ut 0 node.mp.pages = outcome at fine apart
  obtain ⟨status, rest⟩ := outcome
  dsimp only at fine apart
  subst fine
  have sorted := tabled.sorted
  rw [shape, pairwise_append, pairwise_cons] at sorted
  obtain ⟨before, ⟨afterOwn, after⟩, across⟩ := sorted
  refine ⟨fun mp among => tabled.paged mp ((members mp).mpr (.inr among)), ?_, ?_⟩
  · exact pairwise_append.mpr ⟨before, after, fun first among second later =>
      across first among second (mem_cons_of_mem _ later)⟩
  intro mp among page below
  have listed := (members mp).mpr (.inr among)
  have order : mp.top ≤ node.mp.vaddr.toNat ∨ node.mp.top ≤ mp.vaddr.toNat := by
    rcases mem_append.mp among with early | late
    · exact .inl (across mp early node.mp mem_cons_self)
    · exact .inr (afterOwn mp late)
  exact (apart _ fun other _ inside => (tabled.paged mp listed).apart
    (tabled.paged _ own) order below (by omega)).symm ▸ tabled.present mp listed page below

theorem Served.tabled (served : Served True ut) : Tabled ut := by
  induction served with
  | created startStack => exact ⟨nofun, .nil, nofun⟩
  | called call _ whole is tabled =>
  cases call with
  | map memory vaddrp pfnList size flags align =>
    obtain ⟨result, mapped, rfl⟩ := map_eq_some_iff.mp is
    exact tabled.mapped (whole trivial) mapped
  | unmap vaddr size =>
    cases is
    exact tabled.unmapped
  | grant memory source vaddrSrc size flags =>
    obtain ⟨result, granted, rfl⟩ := map_eq_some_iff.mp is
    exact tabled.granted (whole trivial) granted
  | revoke vaddr size =>
  cases is
  unfold uthreadRevokePages
  split
  · exact tabled
  · exact tabled.unmapped

/-- In every run of whole calls a valid range has all its pages in the page table. -/
theorem valid_range_present {ut : Uthread} (served : Served True ut) {vaddr size : Word}
    (valid : uthreadIsValidRange ut vaddr size = true) (address : Word) (above : vaddr.toNat ≤ address.toNat)
    (below : address.toNat < vaddr.toNat + size.toNat) : ut.Present address := by
  obtain ⟨node, found⟩ := isSome_iff_exists.mp valid
  have range := uthreadMapFind_toNat found
  have listed : node.mp ∈ ut.mapList := by
    unfold uthreadMapFind at found
    split at found
    · nomatch found
    · rw [(findNode_covers found).2]
      exact mem_append_right _ mem_cons_self
  obtain ⟨start, whole, fits, nonempty⟩ := served.tabled.paged _ listed
  unfold UthreadMap.top at *
  have page : (address.toNat - node.mp.vaddr.toNat) / 4096 < node.mp.pages := by
    rw [pages_eq]
    omega
  have same : slot address = slot (pageAddress node.mp.vaddr ((address.toNat - node.mp.vaddr.toNat) / 4096)) := by
    rw [slot_pageAddress]
    unfold slot
    omega
  refine ⟨by rw [maxUsrVa_toNat]; omega, ?_⟩
  rw [descriptor_slot same]
  exact served.tabled.present _ listed _ page

theorem mapped_page_present : ∃ ut, Served True ut ∧
    uthreadIsValidRange ut 0x10000 0x1000 = true ∧ ut.Present 0x10fff := by
  let call : Call := .map plenty 0 [0x40000000] 0x1000 utmW utMapAlign4KB
  obtain ⟨ut, is⟩ : ∃ ut, call.run ⟨0x10000, maxUsrVa, [], none⟩ = some ut := ⟨_, rfl⟩
  have served : Served True ut := by
    refine .called call (.created 0x10000) (fun _ mp record => ?_) is
    have known : call.record ⟨0x10000, maxUsrVa, [], none⟩ =
        some ⟨0x10000, 0x1000, utmW, utMapAlign4KB, [0x40000000]⟩ := by decide
    cases known.symm.trans record
    refine ⟨⟨rfl, fun _ => rfl, fun paddr among => ?_⟩, by decide, by decide⟩
    rw [mem_singleton.mp among]
    rfl
  have valid : uthreadIsValidRange ut 0x10000 0x1000 = true := by
    cases is
    decide
  exact ⟨ut, served, valid, valid_range_present served valid 0x10fff (by decide) (by decide)⟩

/-- The page number is misaligned, so the call fails, and its record stays. -/
theorem failed_map_leaves_range : ∃ result,
    uthreadMap plenty ⟨0x10000, maxUsrVa, [], none⟩ 0 [0x40000001] 0x1000 utmW utMapAlign4KB =
      some result ∧ result.status = .errInvalidArgs ∧ Served False result.ut ∧
    uthreadIsValidRange result.ut 0x10000 1 = true ∧ ¬result.ut.Present 0x10000 := by
  refine ⟨_, rfl, rfl, .called (.map plenty 0 [0x40000001] 0x1000 utmW utMapAlign4KB)
    (.created 0x10000) nofun rfl, by decide, fun present => present.2 rfl⟩

end Trusty.UserSpace
