import Trusty.UserSpace.GrantSafety
import Trusty.UserSpace.WorldProperties

/-!
# Runs that keep the worlds apart

Every run of clean calls keeps the layout of the address space; and a run in which a
section changes its world.
-/

namespace Trusty.UserSpace

open List BitVec Option

variable {memory : Memory} {ut next : Uthread} {mp : UthreadMap}
  {vaddr size flags align : Word} {pfnList : List Word}

/-- What is known when `uthread_map_alloc` has made a record. -/
structure Allocated (ut next : Uthread) (mp : UthreadMap) : Prop where
  inserted : insertMap mp ut.mapList = some next.mapList
  positive : mp.vaddr < mp.limit
  bottom : next.nsVaBottom = movedBottom ut mp
  tables : next.pageTable = ut.pageTable

theorem uthreadMapAlloc_ok (is : uthreadMapAlloc memory ut vaddr pfnList size flags align = .ok (mp, next)) :
    ∃ kept, mp = ⟨vaddr, size, flags, align, kept⟩ ∧ Allocated ut next mp := by
  unfold uthreadMapAlloc at is
  split at is
  · nomatch is
  rename_i positive
  split at is
  · nomatch is
  dsimp only at is
  split at is
  · nomatch is
  · rename_i inserted insertedIs
    cases is
    exact ⟨_, rfl, insertedIs, BitVec.not_le.mp positive, rfl, rfl⟩

theorem top_of_positive (positive : mp.vaddr < mp.limit) (fits : mp.top ≤ 33554432) : mp.vaddr.toNat < mp.top := by
  rw [lt_def, UthreadMap.limit_toNat fits] at positive
  exact positive

theorem range_fits (fits : mp.top ≤ 33554432) : ¬(mp.size > maxUsrVa ∨ mp.vaddr > maxUsrVa - mp.size) := by
  unfold UthreadMap.top at fits
  have small : mp.size ≤ maxUsrVa := by
    rw [le_def, maxUsrVa_toNat]
    omega
  rw [gt_iff_lt, gt_iff_lt, lt_def, lt_def, toNat_sub_of_le small, maxUsrVa_toNat]
  omega

theorem placeable_found (layout : Layout ut) (found : mp.vaddr ≠ 0)
    (place : mp.vaddr = uthreadFindVaSpace ut mp.size mp.flags align) (positive : mp.vaddr < mp.limit)
    (fits : mp.top ≤ 33554432) (unused : Unused ut mp) : Placeable ut mp := by
  rw [place] at found
  obtain ⟨secure, nonSecure⟩ := uthreadFindVaSpace_sides layout.sides found
  rw [← place] at secure nonSecure
  exact ⟨fits, top_of_positive positive fits, secure, nonSecure, unused⟩

variable {result : MapResult}

theorem uthreadMap_cases {vaddrp : Word} (is : uthreadMap memory ut vaddrp pfnList size flags align = some result) :
    result.ut = ut ∨ ∃ mp inserted, (Call.map memory vaddrp pfnList size flags align).record ut = some mp ∧
      Allocated ut inserted mp ∧
      archUthreadMap memory inserted mp = some (result.status, result.ut) ∧ mp.flags = flags ∧
      (hasFlag flags utmFixed = false → mp.vaddr ≠ 0 ∧ mp.vaddr = uthreadFindVaSpace ut mp.size mp.flags align) := by
  unfold uthreadMap at is
  unfold Call.record mapAddress
  dsimp only at is ⊢
  split at is
  · cases is
    exact .inl rfl
  rename_i whole
  rw [if_neg whole]
  generalize addressIs : (if hasFlag flags utmFixed = true then vaddrp
    else uthreadFindVaSpace ut size flags align) = vaddr at is ⊢
  split at is
  · cases is
    exact .inl rfl
  rename_i space
  rw [if_neg space]
  cases alloc : uthreadMapAlloc memory ut vaddr pfnList size flags align with
  | error status =>
    rw [alloc] at is
    cases is
    exact .inl rfl
  | ok made =>
  obtain ⟨mp, inserted⟩ := made
  rw [alloc] at is
  obtain ⟨kept, rfl, allocated⟩ := uthreadMapAlloc_ok alloc
  obtain ⟨⟨status, final⟩, mapped, rfl⟩ := map_eq_some_iff.mp is
  refine .inr ⟨_, inserted, rfl, allocated, mapped, rfl, fun free => ⟨fun zero => ?_, ?_⟩⟩
  · exact space ⟨by rw [free]; rfl, zero⟩
  · rw [if_neg (by rw [free]; nofun)] at addressIs
    exact addressIs.symm

theorem Layout.mapped (layout : Layout ut) {vaddrp : Word}
    (permitted : (Call.map memory vaddrp pfnList size flags align).Permitted ut)
    (clean : (Call.map memory vaddrp pfnList size flags align).Clean ut)
    (is : uthreadMap memory ut vaddrp pfnList size flags align = some result) : Layout result.ut := by
  rcases uthreadMap_cases is with same | ⟨mp, inserted, record, allocated, mapped, flagsIs, search⟩
  · rw [same]
    exact layout
  obtain ⟨⟨tables, pages, frames⟩, fits, unused⟩ := clean mp record
  have placeable : Placeable ut mp := by
    by_cases fixed : hasFlag flags utmFixed = true
    · obtain ⟨secure, none'⟩ := permitted fixed
      have world : mp.isNs = false := by
        unfold UthreadMap.isNs
        rw [flagsIs, secure]
      refine ⟨fits, top_of_positive allocated.positive fits, fun _ => ?_, ?_, unused⟩
      · rw [layout.sides.bottomFree none', maxUsrVa_toNat]
        exact fits
      · intro ns
        nomatch world.symm.trans ns
    · obtain ⟨nonzero, place⟩ := search (Bool.not_eq_true _ |>.mp fixed)
      exact placeable_found layout nonzero place allocated.positive fits unused
  unfold archUthreadMap at mapped
  split at mapped
  · rename_i outside
    exact absurd outside (range_fits fits)
  have grown := (archUthreadMapLoop_runs mapped).mapped
  have fine := archUthreadMapLoop_noError tables pages frames mapped
  have entries : ∀ vaddr, inserted.entry vaddr = ut.entry vaddr := by
    intro vaddr
    unfold Uthread.entry
    rw [allocated.tables]
  refine layout.added placeable allocated.inserted grown.grown.mapList
    (grown.grown.nsVaBottom.trans allocated.bottom) ?_ ?_ ?_
  · intro vaddr entry known
    exact grown.grown.keeps vaddr entry ((entries vaddr).trans known)
  · intro vaddr entry known
    rw [← entries]
    exact grown.grown.origin vaddr entry known
  · intro page below
    exact grown.backed fine page (Nat.zero_le page) (by omega)

/-- A grant changes nothing, or maps the pages of its record and then, if it maps all of them,
may allocate it. -/
theorem uthreadGrantPages_cases {source : PageSource} {vaddrSrc vaddrTarget : Word}
    (is : uthreadGrantPages memory source ut vaddrSrc size flags vaddrTarget = some result) :
    result.ut = ut ∨ ∃ mp status grown frames, (Call.grant memory source vaddrSrc size flags).record ut = some mp ∧
      mp.vaddr ≠ 0 ∧ mp.vaddr = uthreadFindVaSpace ut mp.size mp.flags mp.align ∧
      archUthreadTranslateMap memory source ut (Align.down vaddrSrc pageSize) mp.vaddr mp.pages
        mp.flags = some ⟨status, grown, frames⟩ ∧
      (result.ut = grown ∨ status = .noError ∧ ∃ pfnList, Allocated grown result.ut { mp with pfnList }) := by
  unfold uthreadGrantPages at is
  unfold Call.record
  dsimp only at is ⊢
  split at is
  · cases is
    exact .inl rfl
  cases admitted : source.admit (Align.down vaddrSrc pageSize) size flags with
  | error status =>
    rw [admitted] at is
    cases is
    exact .inl rfl
  | ok asked =>
  rw [admitted] at is
  dsimp only at is ⊢
  generalize Align.up (size + (vaddrSrc &&& pageMask)) pageSize = length at is ⊢
  generalize contigFlags asked.1 (length / pageSize).toNat = finalFlags at is ⊢
  split at is
  · cases is
    exact .inl rfl
  rename_i space
  rw [if_neg space]
  split at is
  · cases is
    exact .inl rfl
  cases translated : archUthreadTranslateMap memory source ut
      (Align.down vaddrSrc pageSize) (uthreadFindVaSpace ut length finalFlags asked.2)
      (length / pageSize).toNat finalFlags with
  | none =>
    rw [translated] at is
    nomatch is
  | some outcome =>
  obtain ⟨status, grown, frames⟩ := outcome
  rw [translated] at is
  refine .inr ⟨_, status, grown, frames, rfl, space, rfl, translated, ?_⟩
  cases status with
  | errInvalidArgs | errNoMemory | errNotValid | errNotFound | errNotSupported =>
    cases is
    exact .inl rfl
  | noError =>
  dsimp only at is
  cases alloc : uthreadMapAlloc memory grown (uthreadFindVaSpace ut length finalFlags asked.2) frames length finalFlags
      asked.2 with
  | error status =>
    rw [alloc] at is
    cases is
    exact .inl rfl
  | ok made =>
  obtain ⟨mp, final⟩ := made
  rw [alloc] at is
  cases is
  obtain ⟨kept, rfl, allocated⟩ := uthreadMapAlloc_ok alloc
  exact .inr ⟨rfl, kept, allocated⟩

theorem Layout.granted (layout : Layout ut) {source : PageSource} {vaddrSrc vaddrTarget : Word}
    (clean : (Call.grant memory source vaddrSrc size flags).Clean ut)
    (is : uthreadGrantPages memory source ut vaddrSrc size flags vaddrTarget = some result) : Layout result.ut := by
  rcases uthreadGrantPages_cases is with
    same | ⟨mp, status, grown, frames, record, space, place, translated, rest⟩
  · rw [same]
    exact layout
  obtain ⟨_, fits, unused⟩ := clean mp record
  have mapped := (translateMapLoop_runs translated).mapped
  have list : grown.mapList = ut.mapList := mapped.grown.mapList
  have bottom : grown.nsVaBottom = ut.nsVaBottom := mapped.grown.nsVaBottom
  rcases rest with same | ⟨rfl, pfnList, allocated⟩
  · rw [same]
    exact layout.extended mapped.grown
  have placeable : Placeable ut { mp with pfnList } := placeable_found layout space place allocated.positive fits unused
  have entries : ∀ vaddr, result.ut.entry vaddr = grown.entry vaddr := by
    intro vaddr
    unfold Uthread.entry
    rw [allocated.tables]
  refine layout.added placeable (list ▸ allocated.inserted) rfl ?_ ?_ ?_ ?_
  · rw [allocated.bottom]
    unfold movedBottom
    rw [bottom]
  · intro vaddr entry known
    rw [entries]
    exact mapped.grown.keeps vaddr entry known
  · intro vaddr entry known
    exact mapped.grown.origin vaddr entry ((entries vaddr).symm.trans known)
  · intro page below
    unfold Uthread.Backed
    rw [entries]
    exact mapped.backed rfl page (Nat.zero_le page) (by rw [Nat.zero_add]; exact below)

theorem Layout.called (layout : Layout ut) {call : Call} (permitted : call.Permitted ut)
    (clean : call.Clean ut) (is : call.run ut = some next) : Layout next := by
  cases call with
  | map memory vaddrp pfnList size flags align =>
    obtain ⟨result, mapped, rfl⟩ := map_eq_some_iff.mp is
    exact layout.mapped permitted clean mapped
  | unmap vaddr size =>
    cases is
    exact layout.unmapped
  | grant memory source vaddrSrc size flags =>
    obtain ⟨result, granted, rfl⟩ := map_eq_some_iff.mp is
    exact layout.granted clean granted
  | revoke vaddr size =>
  cases is
  unfold uthreadRevokePages
  split
  · exact layout
  · exact layout.unmapped

theorem Reached.layout (reached : Reached True ut) : Layout ut := by
  induction reached with
  | created startStack => exact .created startStack
  | called call _ permitted clean is ih => exact ih.called permitted (clean trivial) is

/-- One page of secure and one of normal memory, mapped in this order. -/
theorem both_worlds_reached : ∃ ut, Reached True ut ∧
    (ut.mapList.map fun mp => (mp.vaddr, mp.isNs)) = [(0x10000, false), (0x1fff000, true)] := by
  let secure : Call := .map plenty 0 [0x40000000] 0x1000 utmW utMapAlign4KB
  let normal : Call := .map plenty 0 [0x80000000] 0x1000 (utmW ||| utmNsMem) utMapAlign4KB
  obtain ⟨first, firstIs⟩ : ∃ first, secure.run ⟨0x10000, maxUsrVa, [], none⟩ = some first := ⟨_, rfl⟩
  obtain ⟨second, secondIs⟩ : ∃ second, normal.run first = some second := by
    cases firstIs
    exact ⟨_, rfl⟩
  have reached : Reached True second := by
    refine .called normal (.called secure (.created 0x10000) (fun fixed => ?_) (fun _ => ?_) firstIs)
      (fun fixed => ?_) (fun _ => ?_) secondIs
    · nomatch fixed
    · intro mp record
      have known : secure.record ⟨0x10000, maxUsrVa, [], none⟩ =
          some ⟨0x10000, 0x1000, utmW, utMapAlign4KB, [0x40000000]⟩ := by decide
      cases known.symm.trans record
      refine ⟨⟨rfl, fun _ => rfl, fun paddr among => ?_⟩, by decide, ?_⟩
      · rw [mem_singleton.mp among]
        rfl
      intro page _ _ entry is
      nomatch is
    · nomatch fixed
    · intro mp record
      have known : normal.record first = some ⟨0x1fff000, 0x1000, utmW ||| utmNsMem, utMapAlign4KB, [0x80000000]⟩ := by
        cases firstIs
        decide
      cases known.symm.trans record
      refine ⟨⟨rfl, fun _ => rfl, fun paddr among => ?_⟩, by decide, ?_⟩
      · rw [mem_singleton.mp among]
        rfl
      intro page below _ entry is
      obtain rfl : page = 0 := by
        exact Nat.lt_one_iff.mp below
      cases firstIs
      nomatch is
  refine ⟨second, reached, ?_⟩
  cases firstIs
  cases secondIs
  decide

/-- In every run of clean calls the mappings are in order and apart, the secure ones
below `ns_va_bottom`. -/
theorem clean_runs_keep_order {ut : Uthread} (reached : Reached True ut) : Sides ut.mapList ut.nsVaBottom :=
  reached.layout.sides

theorem both_worlds_in_order : ∃ ut, Reached True ut ∧
    (ut.mapList.map fun mp => (mp.vaddr, mp.isNs)) = [(0x10000, false), (0x1fff000, true)] ∧
    Sides ut.mapList ut.nsVaBottom := by
  obtain ⟨ut, reached, pages⟩ := both_worlds_reached
  exact ⟨ut, reached, pages, clean_runs_keep_order reached⟩

/-- In every run of clean calls every page is reached with the attribute of its mapping, and
no section holds pages of both worlds. -/
theorem clean_runs_keep_worlds {ut : Uthread} (reached : Reached True ut) : WorldsApart ut := reached.layout.worldsApart

theorem both_worlds_apart : ∃ ut, Reached True ut ∧
    (ut.mapList.map fun mp => (mp.vaddr, mp.isNs)) = [(0x10000, false), (0x1fff000, true)] ∧
    WorldsApart ut := by
  obtain ⟨ut, reached, pages⟩ := both_worlds_reached
  exact ⟨ut, reached, pages, clean_runs_keep_worlds reached⟩

/-- A page of normal memory is mapped and unmapped, and a secure page then goes into the same
section: its level 1 entry is still the non-secure one. -/
theorem section_changes_world : ∃ ut mp entry, Reached False ut ∧ mp ∈ ut.mapList ∧
    0 < mp.pages ∧ ut.entry (pageAddress mp.vaddr 0) = some entry ∧
    mp.isNs = false ∧ entry.isNs = true ∧ ¬ WorldsApart ut := by
  let normal : Call := .map plenty 0 [0x80000000] 0x1000 (utmW ||| utmNsMem) utMapAlign4KB
  let secure : Call := .map plenty 0 [0x40000000] 0x1000 utmW utMapAlign4KB
  obtain ⟨first, firstIs⟩ : ∃ first, normal.run ⟨0x1f00000, maxUsrVa, [], none⟩ = some first := ⟨_, rfl⟩
  obtain ⟨second, secondIs⟩ : ∃ second, (Call.unmap 0x1fff000 0x1000).run first = some second := ⟨_, rfl⟩
  obtain ⟨third, thirdIs⟩ : ∃ third, secure.run second = some third := by
    cases firstIs
    cases secondIs
    exact ⟨_, rfl⟩
  have reached : Reached False third :=
    .called secure (.called (.unmap 0x1fff000 0x1000) (.called normal (.created 0x1f00000)
      (fun fixed => absurd fixed (by decide)) nofun firstIs) trivial nofun secondIs)
      (fun fixed => absurd fixed (by decide)) nofun thirdIs
  cases firstIs
  cases secondIs
  cases thirdIs
  refine ⟨_, _, _, reached, mem_cons_self, by decide, rfl, by decide, by decide, ?_⟩
  intro apart
  obtain ⟨entry, is, world⟩ := apart.world _ mem_cons_self 0 (by decide)
  cases is
  exact absurd world (by decide)

end Trusty.UserSpace
