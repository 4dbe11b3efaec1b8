import Trusty.UserSpace.TranslateProperties

/-!
# Granting pages

What `uthread_grant_pages` has to keep for a source in the secure world, and
the states in which it keeps it.
-/

namespace Trusty.UserSpace

open List

variable {source target ut : Uthread} {mp : UthreadMap} {node : MapNode}
  {vaddrSrc vaddrTarget vaddr size flags : Word}

def UthreadMap.follows (mp item : UthreadMap) : Bool := item.vaddr ≤ mp.vaddr

def UthreadMap.placed (mp : UthreadMap) (list : List UthreadMap) : MapNode :=
  ⟨list.takeWhile mp.follows, mp, list.dropWhile mp.follows⟩

variable {list : List UthreadMap}

theorem insertMap_placed {inserted : List UthreadMap} (is : insertMap mp list = some inserted) :
    inserted = (mp.placed list).before ++ mp :: (mp.placed list).after ∧
      ∀ item ∈ (mp.placed list).before, item.limit ≤ mp.vaddr := by
  induction list generalizing inserted with
  | nil =>
    cases is
    exact ⟨rfl, nofun⟩
  | cons item rest ih =>
  unfold insertMap at is
  by_cases later : item.vaddr > mp.vaddr
  · have stops : mp.follows item = false := by
      simp only [UthreadMap.follows, decide_eq_false_iff_not, BitVec.not_le]
      exact later
    rw [if_pos later] at is
    split at is
    · nomatch is
    · cases is
      simp [UthreadMap.placed, stops]
  have goes : mp.follows item = true := by
    simp only [UthreadMap.follows, decide_eq_true_eq]
    exact BitVec.not_lt.mp later
  rw [if_neg later] at is
  split at is
  · nomatch is
  rename_i apart
  obtain ⟨inner, innerIs, rfl⟩ := Option.map_eq_some_iff.mp is
  obtain ⟨shape, ends⟩ := ih innerIs
  unfold UthreadMap.placed at *
  simp only [takeWhile_cons, dropWhile_cons, goes, if_true, cons_append]
  refine ⟨congrArg _ shape, ?_⟩
  intro other among
  cases among with
  | head => exact BitVec.not_lt.mp apart
  | tail _ among => exact ends other among

theorem placed_split (mp : UthreadMap) (list : List UthreadMap) :
    (mp.placed list).before ++ (mp.placed list).after = list :=
  takeWhile_append_dropWhile ..

theorem findNode_after {before after : List UthreadMap} (earlier : ∀ item ∈ before, item.covers vaddr size = false)
    (covers : mp.covers vaddr size = true) :
    findNode vaddr size (before ++ mp :: after) = some ⟨before, mp, after⟩ := by
  induction before with
  | nil => simp [findNode, covers]
  | cons item rest ih =>
  have skip := earlier item mem_cons_self
  have others := ih fun other among => earlier other (mem_cons_of_mem _ among)
  simp [findNode, skip, others]

theorem findNode_covers (is : findNode vaddr size list = some node) :
    node.mp.covers vaddr size = true ∧ list = node.before ++ node.mp :: node.after := by
  induction list generalizing node with
  | nil => nomatch is
  | cons item rest ih =>
  unfold findNode at is
  split at is
  · rename_i covers
    cases is
    exact ⟨covers, rfl⟩
  · obtain ⟨inner, innerIs, rfl⟩ := Option.map_eq_some_iff.mp is
    obtain ⟨covers, shape⟩ := ih innerIs
    exact ⟨covers, by rw [shape]; rfl⟩

/-- Page number `page` of memory lies in the mapping. -/
def UthreadMap.Holds (mp : UthreadMap) (page : Nat) : Prop :=
  mp.vaddr.toNat ≤ 4096 * page ∧ 4096 * (page + 1) ≤ mp.vaddr.toNat + mp.size.toNat

def physicalPage (par : Bool → Word → BitVec 64) (flags vaddrSrc : Word) (page : Nat) : Word :=
  (decodePar (par (hasFlag flags utmW)
    (pageAddress (Align.down vaddrSrc pageSize) page))).1.setWidth 32

/-- The target has got the mapping `mp`, for pages of the source mapping of `node`. -/
structure Shares (par : Bool → Word → BitVec 64) (target : Uthread) (vaddrSrc size flags : Word)
    (result : MapResult) (node : MapNode) (mp : UthreadMap) : Prop where
  sameWorld : mp.isNs = node.mp.isNs
  address : result.vaddr = mp.vaddr + (vaddrSrc &&& pageMask)
  /-- As many pages as those from the page of the first byte to that of the last one. -/
  exact : mp.size.toNat =
    4096 * ((vaddrSrc.toNat + size.toNat - 1) / 4096 + 1 - vaddrSrc.toNat / 4096)
  inside : ∀ page, page < mp.pages → node.mp.Holds (vaddrSrc.toNat / 4096 + page)
  mapped : ∀ page, page < mp.pages →
    result.ut.descriptor (pageAddress mp.vaddr page) ≠ 0 ∧
    result.ut.descriptor (pageAddress mp.vaddr page) &&& ~~~pageMask =
      physicalPage par flags vaddrSrc page
  others : ∀ vaddr, result.ut.descriptor vaddr ≠ target.descriptor vaddr →
    ∃ page, page < mp.pages ∧ slot vaddr = slot (pageAddress mp.vaddr page)

structure GrantSafe (source : Uthread) (par : Bool → Word → BitVec 64) (target : Uthread)
    (vaddrSrc size flags : Word) (result : MapResult) : Prop where
  shared : result.status = .noError → ∃ node mp before after,
    uthreadMapFind source (Align.down vaddrSrc pageSize) size = some node ∧
    target.mapList = before ++ after ∧ result.ut.mapList = before ++ mp :: after ∧
    Shares par target vaddrSrc size flags result node mp
  unchanged : result.status ≠ .noError → result.ut = target
  revoked : result.status = .noError →
    ∃ ut, uthreadRevokePages result.ut result.vaddr size = (.noError, ut) ∧
      ut.mapList = target.mapList ∧ ut.nsVaBottom = target.nsVaBottom

/-- The mapping of the source that is found and the record made for the target,
without its page numbers; `none` if it is refused before a page is mapped. -/
def grantOf (source target : Uthread) (vaddrSrc size flags : Word) :
    Option (MapNode × UthreadMap) :=
  match uthreadMapFind source (Align.down vaddrSrc pageSize) size with
  | none => none
  | some node =>
    let length := Align.up (size + (vaddrSrc &&& pageMask)) pageSize
    let flags := contigFlags (if node.mp.isNs then flags ||| utmNsMem else flags)
      (length / pageSize).toNat
    let vaddr := uthreadFindVaSpace target length flags node.mp.align
    if vaddr = 0 then none else some (node, ⟨vaddr, length, flags, node.mp.align, []⟩)

structure Grantable (target : Uthread) (vaddrSrc size flags : Word) (node : MapNode)
    (mp : UthreadMap) : Prop where
  inside : 4096 * ((vaddrSrc.toNat + size.toNat + 4095) / 4096) ≤
    node.mp.vaddr.toNat + node.mp.size.toNat
  /-- The caller does not ask for a non-secure mapping of secure pages. -/
  sameWorld : hasFlag flags utmNsMem → node.mp.isNs
  room : (insertMap mp target.mapList).isSome
  revocable : mp.covers (Align.down (mp.vaddr + (vaddrSrc &&& pageMask)) pageSize)
      (Align.up (size + (mp.vaddr + (vaddrSrc &&& pageMask) &&& pageMask)) pageSize) ∧
    ¬Align.down (mp.vaddr + (vaddrSrc &&& pageMask)) pageSize +
      Align.up (size + (mp.vaddr + (vaddrSrc &&& pageMask) &&& pageMask)) pageSize <
      Align.down (mp.vaddr + (vaddrSrc &&& pageMask)) pageSize
  /-- Removing the new mapping moves the bottom of the non-secure range back. -/
  bottomKept : (mp.placed target.mapList).bottom (movedBottom target mp) = target.nsVaBottom

/-- What has to hold before the call. If `pfn_list` cannot be allocated, nothing is changed;
an allocation of a page table that fails is harmless as long as no other was made. -/
structure GrantReady (memory : Memory) (target : Uthread) (vaddrSrc size flags : Word) (node : MapNode)
    (mp : UthreadMap) : Prop where
  firstTable : 0 < mp.pages → target.pageTable = none → memory .level1 →
    memory (.level2 (pageAddress mp.vaddr 0))
  backed : ∀ page, page + 1 < mp.pages → Clear target mp.vaddr (page + 1) →
    (∀ earlier, earlier < page → target.Backed (pageAddress mp.vaddr earlier)) →
    target.Supplied memory (pageAddress mp.vaddr page) → target.Backed (pageAddress mp.vaddr page)
  complete : 0 < mp.pages → Clear target mp.vaddr mp.pages →
    (∀ page, page + 1 < mp.pages → target.Backed (pageAddress mp.vaddr page)) →
    target.Supplied memory (pageAddress mp.vaddr (mp.pages - 1)) →
    memory .map ∧ Grantable target vaddrSrc size flags node mp

def GrantCondition (memory : Memory) (source target : Uthread) (vaddrSrc size flags : Word) : Prop :=
  ∀ node mp, grantOf source target vaddrSrc size flags = some (node, mp) → memory .pfnList →
    GrantReady memory target vaddrSrc size flags node mp

section Call

variable {memory : Memory} {par : Bool → Word → BitVec 64}

def finishGrant (memory : Memory) (target : Option TranslateResult) (offset : Word) (mp : UthreadMap) :
    Option MapResult :=
  match target with
  | none => none
  | some ⟨.noError, target, pfnList⟩ =>
    match uthreadMapAlloc memory target mp.vaddr pfnList mp.size mp.flags mp.align with
    | .ok (_, target) => some ⟨.noError, target, mp.vaddr + offset⟩
    | .error err => some ⟨err, target, mp.vaddr + offset⟩
  | some ⟨err, target, _⟩ => some ⟨err, target, mp.vaddr⟩

theorem uthreadGrantPages_refused (some' : size ≠ 0)
    (none' : grantOf source target vaddrSrc size flags = none ∨ memory .pfnList = false) :
    ∃ status vaddr, status ≠ .noError ∧
      uthreadGrantPages memory (.secure source par) target vaddrSrc size flags vaddrTarget =
        some ⟨status, target, vaddr⟩ := by
  unfold grantOf at none'
  unfold uthreadGrantPages PageSource.admit
  rw [if_neg some']
  dsimp only
  cases found : uthreadMapFind source (Align.down vaddrSrc pageSize) size with
  | none => exact ⟨.errInvalidArgs, vaddrTarget, nofun, rfl⟩
  | some node =>
  rw [found] at none'
  dsimp only at none' ⊢
  generalize (if node.mp.isNs = true then flags ||| utmNsMem else flags) = asked at none' ⊢
  split
  · exact ⟨.errNoMemory, _, nofun, rfl⟩
  rename_i space
  rw [if_neg space] at none'
  rw [none'.resolve_left nofun]
  exact ⟨.errNoMemory, _, nofun, rfl⟩

theorem uthreadGrantPages_placed (some' : size ≠ 0)
    (placed : grantOf source target vaddrSrc size flags = some (node, mp)) (listed : memory .pfnList) :
    uthreadGrantPages memory (.secure source par) target vaddrSrc size flags vaddrTarget =
      finishGrant memory (archUthreadTranslateMap memory (.secure source par) target
        (Align.down vaddrSrc pageSize) mp.vaddr mp.pages mp.flags) (vaddrSrc &&& pageMask) mp := by
  unfold grantOf at placed
  unfold uthreadGrantPages PageSource.admit
  rw [if_neg some']
  dsimp only
  cases found : uthreadMapFind source (Align.down vaddrSrc pageSize) size with
  | none =>
    rw [found] at placed
    nomatch placed
  | some inner =>
  rw [found] at placed
  dsimp only at placed ⊢
  generalize (if inner.mp.isNs = true then flags ||| utmNsMem else flags) = asked at placed ⊢
  split at placed
  · nomatch placed
  rename_i space
  rw [if_neg space, listed]
  cases placed
  rfl

end Call

theorem uthreadFindVaSpaceNs_found {align : Word} (found : uthreadFindVaSpaceNs ut size align ≠ 0) :
    findVaSpaceNsLoop ut.nsVaBottom size align (Align.down (maxUsrVa - size) align)
        ut.mapList.reverse = some (uthreadFindVaSpaceNs ut size align) ∧
      ut.startStack ≤ uthreadFindVaSpaceNs ut size align ∧
      uthreadFindVaSpaceNs ut size align ≤ uthreadFindVaSpaceNs ut size align + size := by
  unfold uthreadFindVaSpaceNs at *
  split at found
  · exact absurd rfl found
  rename_i start loop
  dsimp only at found
  split at found
  · exact absurd rfl found
  rename_i fits
  simp only [loop, if_neg fits, true_and]
  rw [not_or, gt_iff_lt, BitVec.not_lt, BitVec.not_lt] at fits
  exact fits

theorem uthreadFindVaSpaceSec_found {align : Word} (found : uthreadFindVaSpaceSec ut size align ≠ 0) :
    findVaSpaceSecLoop size align (Align.up ut.startStack align) ut.mapList = uthreadFindVaSpaceSec ut size align ∧
      uthreadFindVaSpaceSec ut size align + size ≤ ut.nsVaBottom ∧
      uthreadFindVaSpaceSec ut size align ≤ uthreadFindVaSpaceSec ut size align + size := by
  unfold uthreadFindVaSpaceSec at *
  dsimp only at *
  split at found
  · exact absurd rfl found
  rename_i fits
  rw [if_neg fits]
  rw [not_or, gt_iff_lt, gt_iff_lt, BitVec.not_lt, BitVec.not_lt] at fits
  exact ⟨rfl, fits⟩

theorem uthreadFindVaSpace_le {align : Word} (found : uthreadFindVaSpace ut size flags align ≠ 0) :
    uthreadFindVaSpace ut size flags align ≤ uthreadFindVaSpace ut size flags align + size := by
  unfold uthreadFindVaSpace at *
  by_cases ns : hasFlag flags utmNsMem = true
  · rw [if_pos ns] at found ⊢
    exact (uthreadFindVaSpaceNs_found found).2.2
  · rw [if_neg ns] at found ⊢
    exact (uthreadFindVaSpaceSec_found found).2.2

structure GrantPlace (source target : Uthread) (vaddrSrc size flags : Word) (node : MapNode)
    (mp : UthreadMap) : Prop where
  found : uthreadMapFind source (Align.down vaddrSrc pageSize) size = some node
  vaddr : mp.vaddr ≠ 0
  room : mp.vaddr ≤ mp.limit
  size : mp.size = Align.up (size + (vaddrSrc &&& pageMask)) pageSize
  isNs : mp.isNs = (hasFlag flags utmNsMem || node.mp.isNs)
  write : hasFlag mp.flags utmW = hasFlag flags utmW

theorem hasFlag_contigFlags {flag : Word} (other : hasFlag utmPhysContig flag = false)
    (npages : Nat) : hasFlag (contigFlags flags npages) flag = hasFlag flags flag := by
  unfold contigFlags
  split
  · rw [hasFlag_or, other, Bool.or_false]
  · rfl

theorem grantOf_place (placed : grantOf source target vaddrSrc size flags = some (node, mp)) :
    GrantPlace source target vaddrSrc size flags node mp := by
  unfold grantOf at placed
  cases found : uthreadMapFind source (Align.down vaddrSrc pageSize) size with
  | none =>
    rw [found] at placed
    nomatch placed
  | some inner =>
  rw [found] at placed
  dsimp only at placed
  generalize askedIs : (if inner.mp.isNs = true then flags ||| utmNsMem else flags) = asked
    at placed
  split at placed
  · nomatch placed
  rename_i space
  cases placed
  refine ⟨found, space, uthreadFindVaSpace_le space, rfl, ?_, ?_⟩
  · unfold UthreadMap.isNs
    rw [hasFlag_contigFlags (by decide), ← askedIs]
    by_cases ns : node.mp.isNs = true
    · rw [if_pos ns, hasFlag_or]
      unfold UthreadMap.isNs at ns
      rw [ns]
      rfl
    · rw [if_neg ns]
      unfold UthreadMap.isNs at ns
      rw [Bool.not_eq_true _ |>.mp ns, Bool.or_false]
  · rw [hasFlag_contigFlags (by decide), ← askedIs]
    split
    · rw [hasFlag_or, show hasFlag utmNsMem utmW = false by decide, Bool.or_false]
    · rfl

theorem and_not_pageMask (value : Word) : (value &&& ~~~pageMask).toNat = value.toNat / 4096 * 4096 :=
  @Align.toNat_and_not_mask 32 value pageMask 12 rfl

theorem l2FlagsOf_lt (flags : Word) (attributes : PageAttributes) :
    (mmuMemoryL2NonGlobal ||| l2FlagsOf flags attributes ||| 2).toNat < 2 ^ 12 := by
  have small : ∀ (value : Word) (shift : Nat), shift ≤ 6 → ((value &&& 3) <<< shift).toNat < 2 ^ 12 := by
    intro value shift bound
    have three : (value &&& 3).toNat ≤ 3 := by
      exact Nat.and_le_right
    rw [BitVec.toNat_shiftLeft, Nat.shiftLeft_eq]
    have power : 2 ^ shift ≤ 2 ^ 6 := Nat.pow_le_pow_right (by decide) bound
    calc (value &&& 3).toNat * 2 ^ shift % 2 ^ 32 ≤ (value &&& 3).toNat * 2 ^ shift := Nat.mod_le _ _
      _ ≤ 3 * 2 ^ 6 := Nat.mul_le_mul three power
      _ < 2 ^ 12 := by decide
  have access : (l2AccessOf flags).toNat < 2 ^ 12 := by
    unfold l2AccessOf
    split <;> decide
  have shareable : (if attributes.shareable ≠ 0 then mmuMemoryL2Shareable else 0).toNat < 2 ^ 12 := by
    split <;> decide
  repeat' apply Nat.or_lt_two_pow
  all_goals first
    | exact access
    | exact shareable
    | exact small _ _ (by decide)
    | decide

theorem decodePar_aligned (par : BitVec 64) : (decodePar par).1.toNat % 4096 = 0 := by
  have masked : ∀ (value mask : BitVec 64), mask.toNat % 2 ^ 12 = 0 → (value &&& mask).toNat % 2 ^ 12 = 0 := by
    intro value mask zero
    rw [BitVec.toNat_and, Nat.and_mod_two_pow, zero, Nat.and_zero]
  unfold decodePar
  split
  · exact masked _ _ (by decide)
  split
  · rw [BitVec.toNat_or, show 4096 = 2 ^ 12 from rfl, Nat.or_mod_two_pow,
      masked _ _ (by decide), Nat.zero_or, BitVec.toNat_shiftLeft, Nat.shiftLeft_eq]
    omega
  · exact masked _ _ (by decide)

theorem pageDescriptor_page {paddr l2Flags : Word} (aligned : paddr.toNat % 4096 = 0)
    (flagBits : (mmuMemoryL2NonGlobal ||| l2Flags ||| 2).toNat < 2 ^ 12) :
    pageDescriptor paddr l2Flags &&& ~~~pageMask = paddr := by
  have split : pageDescriptor paddr l2Flags &&& ~~~pageMask = (paddr &&& ~~~pageMask) |||
        ((mmuMemoryL2NonGlobal ||| l2Flags ||| 2) &&& ~~~pageMask) := by
    unfold pageDescriptor
    ext i
    simp only [BitVec.getElem_and, BitVec.getElem_or, Bool.and_or_distrib_right]
  rw [split]
  apply BitVec.eq_of_toNat_eq
  rw [BitVec.toNat_or, and_not_pageMask, and_not_pageMask,
    Nat.div_eq_of_lt (show _ < 4096 from flagBits), Nat.zero_mul, Nat.or_zero]
  omega

theorem offset_toNat (vaddr : Word) : (vaddr &&& pageMask).toNat = vaddr.toNat % 4096 := by
  rw [BitVec.toNat_and, show pageMask.toNat = 2 ^ 12 - 1 from rfl, Nat.and_two_pow_sub_one_eq_mod]

theorem down_pageSize_toNat (vaddr : Word) : (Align.down vaddr pageSize).toNat = 4096 * (vaddr.toNat / 4096) := by
  rw [@Align.down_toNat 32 (by decide) vaddr pageSize 12 rfl]
  omega

theorem pages_eq (mp : UthreadMap) : mp.pages = mp.size.toNat / 4096 := by
  rfl

theorem UthreadMap.covers_toNat (covers : mp.covers vaddr size = true) (whole : ¬vaddr + size < vaddr) :
    mp.vaddr.toNat ≤ vaddr.toNat ∧ vaddr.toNat + size.toNat ≤ mp.vaddr.toNat + mp.size.toNat ∧
      mp.vaddr.toNat + mp.size.toNat < 4294967296 := by
  unfold UthreadMap.covers UthreadMap.limit at covers
  simp only [Bool.and_eq_true, decide_eq_true_eq, BitVec.le_def, BitVec.lt_def, BitVec.toNat_add] at covers whole
  omega

theorem uthreadMapFind_toNat (found : uthreadMapFind ut vaddr size = some node) : node.mp.vaddr.toNat ≤ vaddr.toNat ∧
      vaddr.toNat + size.toNat ≤ node.mp.vaddr.toNat + node.mp.size.toNat ∧
      node.mp.vaddr.toNat + node.mp.size.toNat < 4294967296 := by
  unfold uthreadMapFind at found
  split at found
  · nomatch found
  · rename_i whole
    exact UthreadMap.covers_toNat (findNode_covers found).1 whole

theorem GrantPlace.size_toNat (place : GrantPlace source target vaddrSrc size flags node mp) (some' : size ≠ 0)
    (inside : 4096 * ((vaddrSrc.toNat + size.toNat + 4095) / 4096) ≤ node.mp.vaddr.toNat + node.mp.size.toNat) :
    mp.size.toNat = 4096 * ((vaddrSrc.toNat + size.toNat - 1) / 4096 + 1 - vaddrSrc.toNat / 4096) := by
  have bounds := uthreadMapFind_toNat place.found
  have positive : 0 < size.toNat := by
    rw [pos_iff_ne_zero]
    exact fun zero => some' (BitVec.eq_of_toNat_eq zero)
  have total : (size + (vaddrSrc &&& pageMask)).toNat = size.toNat + vaddrSrc.toNat % 4096 := by
    rw [BitVec.toNat_add, offset_toNat]
    omega
  rw [place.size, @Align.up_toNat 32 (by decide) _ pageSize 12 rfl (by omega), total]
  unfold Align.nextMultiple
  omega

theorem uthreadUnmap_found (nonzero : vaddr ≠ 0) (found : uthreadMapFind ut vaddr size = some node)
    (backed : ∀ page, page < node.mp.pages → ut.Backed (pageAddress node.mp.vaddr page)) :
    ∃ next, uthreadUnmap ut vaddr size = (.noError, next) ∧ next.mapList = node.before ++ node.after ∧
      next.nsVaBottom = node.bottom ut.nsVaBottom := by
  have fine := @archUthreadUnmapLoop_backed ut node.mp.vaddr 0 node.mp.pages fun page _ below => backed page (by omega)
  have fields := @archUthreadUnmapLoop_fields ut node.mp.vaddr 0 node.mp.pages
  unfold uthreadUnmap archUthreadUnmap
  rw [if_neg nonzero, found]
  dsimp only
  generalize archUthreadUnmapLoop node.mp.vaddr ut 0 node.mp.pages = unmapped at fine fields
  obtain ⟨status, rest⟩ := unmapped
  cases fine
  exact ⟨_, rfl, rfl, congrArg node.bottom fields.2⟩

end Trusty.UserSpace
