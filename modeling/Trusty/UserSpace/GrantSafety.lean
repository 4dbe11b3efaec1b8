import Trusty.UserSpace.GrantProperties

/-!
# When granting pages is safe

`uthread_grant_pages` keeps its promise for every answer of the hardware exactly in
the states of `GrantCondition`, whichever allocations fail.
-/

namespace Trusty.UserSpace

open BitVec Option PageSource

variable {memory : Memory} {source target ut : Uthread} {mp : UthreadMap} {node : MapNode}
  {vaddrSrc vaddrTarget vaddr size flags : Word} {par : Bool → Word → BitVec 64}
  {pfnList : List Word}

/-- The record with the page numbers that `uthread_map_alloc` copies. -/
def UthreadMap.numbered (mp : UthreadMap) (pfnList : List Word) : UthreadMap :=
  { mp with pfnList := pfnList.take (if hasFlag mp.flags utmPhysContig then 1 else mp.pages) }

theorem insertMap_numbered (mp : UthreadMap) (list : List UthreadMap) :
    (insertMap (mp.numbered pfnList) list).isSome = (insertMap mp list).isSome := by
  induction list with
  | nil => rfl
  | cons item rest ih =>
  have vaddr : (mp.numbered pfnList).vaddr = mp.vaddr := rfl
  have limit : (mp.numbered pfnList).limit = mp.limit := rfl
  simp only [insertMap, vaddr, limit]
  by_cases later : item.vaddr > mp.vaddr
  · by_cases reaches : mp.limit > item.vaddr
    · simp only [if_pos later, if_pos reaches]
    · simp only [if_pos later, if_neg reaches, isSome_some]
  · by_cases reaches : mp.vaddr < item.limit
    · simp only [if_neg later, if_pos reaches]
    · simp only [if_neg later, if_neg reaches, isSome_map, ih]

def finished (granted : Uthread) (mp : UthreadMap) (pfnList : List Word) : Uthread :=
  { granted with
    mapList := (mp.placed granted.mapList).before ++
      mp.numbered pfnList :: (mp.placed granted.mapList).after
    nsVaBottom := movedBottom granted mp }

variable {offset : Word}

theorem finishGrant_room (positive : mp.vaddr < mp.limit) (record : memory .map)
    (room : (insertMap mp ut.mapList).isSome) :
    finishGrant memory (some ⟨.noError, ut, pfnList⟩) offset mp =
      some ⟨.noError, finished ut mp pfnList, mp.vaddr + offset⟩ := by
  rw [← @insertMap_numbered pfnList] at room
  obtain ⟨list, is⟩ := isSome_iff_exists.mp room
  have shape := (insertMap_placed is).1
  unfold finishGrant uthreadMapAlloc
  dsimp only
  have fits : ¬mp.vaddr + mp.size ≤ mp.vaddr := BitVec.not_le.mpr positive
  rw [if_neg fits]
  have known : insertMap { mp with
    pfnList := pfnList.take (if hasFlag mp.flags utmPhysContig then 1 else (mp.size / pageSize).toNat) }
      ut.mapList = some list := is
  simp only [record, Bool.not_true, Bool.false_eq_true, if_false, known]
  rw [shape]
  rfl

theorem finishGrant_noRoom
    (none' : mp.limit ≤ mp.vaddr ∨ memory .map = false ∨ (insertMap mp ut.mapList).isSome = false) :
    ∃ status, status ≠ .noError ∧ finishGrant memory (some ⟨.noError, ut, pfnList⟩) offset mp =
      some ⟨status, ut, mp.vaddr + offset⟩ := by
  unfold finishGrant uthreadMapAlloc
  dsimp only
  by_cases wraps : mp.vaddr + mp.size ≤ mp.vaddr
  · rw [if_pos wraps]
    exact ⟨.errInvalidArgs, nofun, rfl⟩
  rw [if_neg wraps]
  cases record : memory .map with
  | false => exact ⟨.errNoMemory, nofun, rfl⟩
  | true =>
  have full := (none'.resolve_left wraps).resolve_left (by rw [record]; nofun)
  rw [← @insertMap_numbered pfnList] at full
  have known : insertMap { mp with
    pfnList := pfnList.take (if hasFlag mp.flags utmPhysContig then 1 else (mp.size / pageSize).toNat) }
      ut.mapList = none := not_isSome_iff_eq_none.mp (Bool.not_eq_true _ |>.mpr full)
  simp only [Bool.not_true, Bool.false_eq_true, if_false, known]
  exact ⟨.errInvalidArgs, nofun, rfl⟩

theorem finishGrant_error {status : Status} (error : status ≠ .noError) :
    finishGrant memory (some ⟨status, ut, pfnList⟩) offset mp = some ⟨status, ut, mp.vaddr⟩ := by
  cases status with
  | noError => exact absurd rfl error
  | errInvalidArgs | errNoMemory | errNotValid | errNotFound | errNotSupported => rfl

section

variable (place : GrantPlace source target vaddrSrc size flags node mp)
include place

theorem GrantPlace.positive (pages : 0 < mp.pages) : mp.vaddr < mp.limit := by
  have room := place.room
  rw [pages_eq] at pages
  unfold UthreadMap.limit at *
  rw [le_def, toNat_add] at room
  rw [lt_def, toNat_add]
  omega

theorem GrantPlace.empty (pages : mp.pages = 0) : mp.limit ≤ mp.vaddr := by
  rw [pages_eq, place.size] at pages
  unfold Align.up at pages
  rw [down_pageSize_toNat] at pages
  have zero : mp.size.toNat = 0 := by
    rw [place.size]
    unfold Align.up
    rw [down_pageSize_toNat]
    omega
  unfold UthreadMap.limit
  rw [le_def, toNat_add, zero]
  omega

end

variable {page : Nat}

theorem translate_secure {paddr : Word} {attributes : PageAttributes}
    (translated : (PageSource.secure source par).translate flags vaddr none page = .ok (paddr, attributes)) :
    paddr = (decodePar (par (hasFlag flags utmW) (pageAddress vaddr page))).1.setWidth 32 := by
  unfold PageSource.translate PageSource.lookup at translated
  dsimp only at translated
  by_cases fault : par (hasFlag flags utmW) (pageAddress vaddr page) &&& 1 ≠ 0
  · rw [if_pos fault] at translated
    nomatch translated
  rw [if_neg fault] at translated
  generalize decodePar (par (hasFlag flags utmW) (pageAddress vaddr page)) = decoded at translated ⊢
  obtain ⟨physaddr, found⟩ := decoded
  dsimp only at translated ⊢
  split at translated
  · nomatch translated
  split at translated
  · nomatch translated
  · cases translated
    rfl

section

variable (place : GrantPlace source target vaddrSrc size flags node mp) (some' : size ≠ 0)
  (grantable : Grantable target vaddrSrc size flags node mp)
include place some' grantable

theorem granted_shares (clear : Clear target mp.vaddr mp.pages)
    (translated : ∀ page, page < mp.pages → ∃ found, (PageSource.secure source par).translate
      mp.flags (Align.down vaddrSrc pageSize) none page = .ok found) :
    Shares par target vaddrSrc size flags ⟨.noError, finished (granted (.secure source par) target mp.flags
        (Align.down vaddrSrc pageSize) mp.vaddr mp.pages) mp pfnList,
        mp.vaddr + (vaddrSrc &&& pageMask)⟩ node (mp.numbered pfnList) where
  sameWorld := by
    have asked := grantable.sameWorld
    change mp.isNs = node.mp.isNs
    rw [place.isNs]
    cases world : node.mp.isNs with
    | true => exact Bool.or_true _
    | false =>
    rw [world] at asked
    rw [Bool.or_false]
    exact Bool.not_eq_true _ |>.mp fun ns => nomatch asked ns
  address := rfl
  exact := place.size_toNat some' grantable.inside
  inside := by
    intro page below
    have bounds := uthreadMapFind_toNat place.found
    have length := place.size_toNat some' grantable.inside
    have inside := grantable.inside
    have positive : size.toNat ≠ 0 := fun zero => some' (eq_of_toNat_eq zero)
    change page < mp.pages at below
    rw [down_pageSize_toNat] at bounds
    rw [pages_eq, length] at below
    unfold UthreadMap.Holds
    omega
  mapped := by
    intro page below
    obtain ⟨⟨paddr, attributes⟩, found⟩ := translated page below
    change (granted (.secure source par) target mp.flags (Align.down vaddrSrc pageSize)
        mp.vaddr mp.pages).descriptor (pageAddress mp.vaddr page) ≠ 0 ∧
      (granted (.secure source par) target mp.flags (Align.down vaddrSrc pageSize)
        mp.vaddr mp.pages).descriptor (pageAddress mp.vaddr page) &&& ~~~pageMask = _
    rw [mapPages_inside clear.distinct below]
    refine ⟨value_ne_zero page, ?_⟩
    unfold PageSource.value
    rw [found]
    have aligned := decodePar_aligned (par (hasFlag mp.flags utmW) (pageAddress (Align.down vaddrSrc pageSize) page))
    rw [translate_secure found, pageDescriptor_page _ (l2FlagsOf_lt _ _)]
    · unfold physicalPage
      rw [place.write]
    · rw [toNat_setWidth]
      omega
  others := by
    intro vaddr differs
    by_contra outside
    refine differs (mapPages_outside ?_)
    intro page below same
    exact outside ⟨page, below, same⟩

theorem finished_revoked {values : Nat → Word} {l1Flags : Word} : ∃ next, uthreadRevokePages
        (finished (mapPages target mp.vaddr l1Flags values mp.pages) mp pfnList)
        (mp.vaddr + (vaddrSrc &&& pageMask)) size = (.noError, next) ∧
      next.mapList = target.mapList ∧ next.nsVaBottom = target.nsVaBottom := by
  obtain ⟨covers, whole⟩ := grantable.revocable
  obtain ⟨list, bottom, _⟩ := @mapPages_fields target mp.vaddr l1Flags values mp.pages
  have room := grantable.room
  obtain ⟨inserted, is⟩ := isSome_iff_exists.mp room
  have ends := (insertMap_placed is).2
  have start := covers
  simp only [UthreadMap.covers, Bool.and_eq_true, decide_eq_true_eq] at start
  have above := start.1.1
  unfold uthreadRevokePages
  rw [if_neg some']
  dsimp only
  generalize Align.down (mp.vaddr + (vaddrSrc &&& pageMask)) pageSize = from' at *
  generalize Align.up (size + (mp.vaddr + (vaddrSrc &&& pageMask) &&& pageMask)) pageSize = length at *
  have found : uthreadMapFind (finished (mapPages target mp.vaddr l1Flags values mp.pages) mp pfnList) from' length =
      some ⟨(mp.placed target.mapList).before, mp.numbered pfnList, (mp.placed target.mapList).after⟩ := by
    unfold uthreadMapFind finished
    rw [if_neg whole, list]
    apply findNode_after
    · intro item among
      have before := ends item among
      have beyond : ¬from' < item.limit := by
        rw [BitVec.not_lt]
        rw [BitVec.le_def] at *
        omega
      simp only [UthreadMap.covers, beyond, decide_false, Bool.and_false, Bool.false_and]
    · exact covers
  have nonzero : from' ≠ 0 := by
    intro zero
    rw [zero] at above
    exact place.vaddr (le_zero_iff.mp above)
  obtain ⟨next, revoked, nextList, nextBottom⟩ := uthreadUnmap_found nonzero found
    fun page below => mapPages_backed below
  refine ⟨next, revoked, ?_, ?_⟩
  · rw [nextList]
    exact placed_split mp target.mapList
  rw [nextBottom, ← grantable.bottomKept]
  unfold finished movedBottom
  rw [bottom]
  rfl

end

section

variable (ready : GrantReady memory target vaddrSrc size flags node mp) {stop : Nat} (below : stop < mp.pages)
  (clear : Clear target mp.vaddr stop)
  {origin : PageSource} {wanted start : Word}
  (passed : ∀ page, page < stop → Passes memory origin target wanted start mp.vaddr page)
include ready below clear passed

/-- A page of which another one follows got no table from the call. -/
theorem GrantReady.passed_backed : ∀ page, page < stop → target.Backed (pageAddress mp.vaddr page) := by
  intro page
  induction page using Nat.strong_induction_on with
  | _ page ih =>
  intro inside
  have earlier : ∀ other, other < page → target.Backed (pageAddress mp.vaddr other) :=
    fun other before => ih other before (before.trans inside)
  exact ready.backed page (by omega) (clear.le inside) earlier ((supplied_mapPages earlier).mp (passed page inside).supplied)

theorem GrantReady.undone : undoPages (granted origin target wanted start mp.vaddr stop) mp.vaddr stop = target :=
  undoPages_mapPages clear (ready.passed_backed below clear passed)

theorem GrantReady.table_kept
    (short : ¬(granted origin target wanted start mp.vaddr stop).Supplied memory (pageAddress mp.vaddr stop)) :
    (granted origin target wanted start mp.vaddr stop).tabled memory =
      granted origin target wanted start mp.vaddr stop := by
  apply tabled_eq
  cases stop with
  | succ last => exact .inl (mapPages_backed (Nat.lt_succ_self last)).table
  | zero =>
  change target.pageTable.isSome ∨ _
  cases table : target.pageTable with
  | some pageTable => exact .inl rfl
  | none =>
  right
  by_contra allocated
  rw [Bool.not_eq_false] at allocated
  exact short (.inr ⟨.inr allocated, ready.firstTable below table allocated⟩)

end

theorem GrantCondition.safe (condition : GrantCondition memory source target vaddrSrc size flags) (some' : size ≠ 0)
    {result : MapResult}
    (is : uthreadGrantPages memory (.secure source par) target vaddrSrc size flags vaddrTarget = some result) :
    GrantSafe source par target vaddrSrc size flags result := by
  have unchanged : ∀ {status : Status} {vaddr : Word}, status ≠ .noError →
      GrantSafe source par target vaddrSrc size flags ⟨status, target, vaddr⟩ :=
    fun error => ⟨fun fine => absurd fine error, fun _ => rfl, fun fine => absurd fine error⟩
  by_cases none' : grantOf source target vaddrSrc size flags = none ∨ memory .pfnList = false
  · obtain ⟨status, vaddr, error, refused⟩ :=
      @uthreadGrantPages_refused source target vaddrSrc vaddrTarget size flags memory par some' none'
    cases refused.symm.trans is
    exact unchanged error
  push Not at none'
  obtain ⟨⟨node, mp⟩, placed⟩ := ne_none_iff_exists'.mp none'.1
  have listed := Bool.ne_false_iff.mp none'.2
  have ready := condition node mp placed listed
  have place := grantOf_place placed
  rw [uthreadGrantPages_placed some' placed listed] at is
  have ends := @archUthreadTranslateMap_ends memory (.secure source par) target mp.flags
    (Align.down vaddrSrc pageSize) mp.vaddr mp.pages
  generalize archUthreadTranslateMap memory (.secure source par) target
    (Align.down vaddrSrc pageSize) mp.vaddr mp.pages mp.flags = translation at is ends
  cases ends with
  | assertion => nomatch is
  | refused below passed clear seen error =>
    have failed := translate_error error
    rw [finishGrant_error failed, ready.undone below clear passed] at is
    cases is
    exact unchanged failed
  | short below passed clear translated short =>
    have failed : Status.errNoMemory ≠ .noError := nofun
    rw [finishGrant_error failed, ready.table_kept below clear passed short, ready.undone below clear passed] at is
    cases is
    exact unchanged failed
  | complete passed clear =>
  rcases Nat.eq_zero_or_pos mp.pages with empty | pages
  · obtain ⟨status, error, refused⟩ := @finishGrant_noRoom memory (granted (.secure source par) target mp.flags
      (Align.down vaddrSrc pageSize) mp.vaddr mp.pages) mp _ (vaddrSrc &&& pageMask) (.inl (place.empty empty))
    cases refused.symm.trans is
    rw [empty]
    exact unchanged error
  have last : mp.pages - 1 < mp.pages := Nat.sub_lt pages one_pos
  have backed := ready.passed_backed last (clear.le last.le) fun page below => passed page (below.trans last)
  obtain ⟨record, fine⟩ := ready.complete pages clear (fun page below => backed page (by omega))
    ((supplied_mapPages backed).mp (passed _ last).supplied)
  have list : (granted (.secure source par) target mp.flags
      (Align.down vaddrSrc pageSize) mp.vaddr mp.pages).mapList = target.mapList :=
    mapPages_fields.1
  rw [finishGrant_room (place.positive pages) record (by rw [list]; exact fine.room)] at is
  cases is
  refine ⟨fun _ => ?_, fun error => absurd rfl error, fun _ =>
    finished_revoked place some' fine⟩
  refine ⟨node, mp.numbered _, (mp.placed target.mapList).before, (mp.placed target.mapList).after, place.found,
    (placed_split mp target.mapList).symm, ?_,
    granted_shares place some' fine clear fun page below => (passed page below).translated⟩
  change (mp.placed (granted ..).mapList).before ++ _ = _
  rw [list]

def answering (except : Option Word) (_ : Bool) (vaddr : Word) : BitVec 64 :=
  if except = some vaddr then 1 else 0

section

variable (some' : size ≠ 0) (placed : grantOf source target vaddrSrc size flags = some (node, mp))
  (listed : memory .pfnList)
  (safe : ∀ par result, uthreadGrantPages memory (.secure source par) target vaddrSrc size flags vaddrTarget =
    some result → GrantSafe source par target vaddrSrc size flags result)
include some' placed listed safe

end

def Uthread.walk (ut : Uthread) (_ : Bool) (vaddr : Word) : BitVec 64 :=
  if ut.descriptor vaddr = 0 then 1 else (ut.descriptor vaddr &&& ~~~pageMask).setWidth 64

end Trusty.UserSpace
