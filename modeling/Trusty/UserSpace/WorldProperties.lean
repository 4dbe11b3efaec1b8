import Trusty.UserSpace.EntryProperties

/-!
# Worlds kept apart

The search keeps secure mappings below `ns_va_bottom` and non-secure ones above it, on
a section boundary. If no call reuses a section with an entry of the other world,
every page of every run is reached with the attribute of its mapping.
-/

namespace Trusty.UserSpace

open List UthreadMap

open BitVec (le_def not_lt toNat_add)

variable {memory : Memory} {ut next : Uthread} {mp item : UthreadMap} {node : MapNode}
  {vaddr size flags align : Word}

def UthreadMap.top (mp : UthreadMap) : Nat := mp.vaddr.toNat + mp.size.toNat

structure Sides (list : List UthreadMap) (nsVaBottom : Word) : Prop where
  inRange : ∀ mp ∈ list, mp.top ≤ 33554432
  nonempty : ∀ mp ∈ list, mp.vaddr.toNat < mp.top
  sorted : list.Pairwise fun first second => first.top ≤ second.vaddr.toNat
  secureBelow : ∀ mp ∈ list, mp.isNs = false → mp.top ≤ nsVaBottom.toNat
  nsAbove : ∀ mp ∈ list, mp.isNs = true → nsVaBottom.toNat ≤ mp.vaddr.toNat
  bottomAligned : nsVaBottom.toNat % 1048576 = 0
  bottomMax : nsVaBottom.toNat ≤ 33554432
  bottomFree : (∀ mp ∈ list, mp.isNs = false) → nsVaBottom = maxUsrVa

structure Layout (ut : Uthread) : Prop where
  sides : Sides ut.mapList ut.nsVaBottom
  world : ∀ mp ∈ ut.mapList, ∀ page, page < mp.pages →
    ∃ entry, ut.entry (pageAddress mp.vaddr page) = some entry ∧ entry.isNs = mp.isNs

theorem maxUsrVa_toNat : maxUsrVa.toNat = 33554432 := rfl

theorem down_1MB_toNat (vaddr : Word) : (Align.down vaddr utMapAlign1MB).toNat = 1048576 * (vaddr.toNat / 1048576) := by
  rw [@Align.down_toNat 32 (by decide) vaddr utMapAlign1MB 20 rfl]
  omega

theorem UthreadMap.limit_toNat (inRange : mp.top ≤ 33554432) : mp.limit.toNat = mp.top := by
  unfold UthreadMap.limit UthreadMap.top at *
  rw [toNat_add]
  omega

theorem page_section (inRange : mp.top ≤ 33554432) {page : Nat} (below : page < mp.pages) :
    (pageAddress mp.vaddr page).toNat = mp.vaddr.toNat + 4096 * page ∧ mp.vaddr.toNat + 4096 * page < mp.top ∧
      level1Index (pageAddress mp.vaddr page) = (mp.vaddr.toNat + 4096 * page) / 1048576 := by
  rw [pages_eq] at below
  unfold UthreadMap.top at *
  have address : (pageAddress mp.vaddr page).toNat = mp.vaddr.toNat + 4096 * page := by
    rw [pageAddress_toNat]
    omega
  rw [level1Index_eq]
  unfold slot
  omega

theorem Sides.empty : Sides [] maxUsrVa := ⟨nofun, nofun, .nil, nofun, nofun, by decide, by decide, fun _ => rfl⟩

theorem Layout.created (startStack : Word) : Layout ⟨startStack, maxUsrVa, [], none⟩ where
  sides := Sides.empty
  world := nofun

theorem Layout.extended {l1Flags : Word} (layout : Layout ut) (more : Extends l1Flags ut next) : Layout next where
  sides := by
    rw [more.mapList, more.nsVaBottom]
    exact layout.sides
  world := by
    intro mp among page below
    rw [more.mapList] at among
    obtain ⟨entry, is, world⟩ := layout.world mp among page below
    obtain ⟨kept, keptIs, bits⟩ := more.keeps _ entry is
    refine ⟨kept, keptIs, ?_⟩
    unfold Level1Entry.isNs at *
    rw [bits, world]

theorem Layout.worldsApart (layout : Layout ut) : WorldsApart ut where
  world := layout.world
  sections := by
    intro mp among other otherAmong page below otherPage otherBelow same
    obtain ⟨entry, is, world⟩ := layout.world mp among page below
    obtain ⟨otherEntry, otherIs, otherWorld⟩ := layout.world other otherAmong otherPage otherBelow
    have index : level1Index (pageAddress mp.vaddr page) = level1Index (pageAddress other.vaddr otherPage) := by
      rw [level1Index_eq, level1Index_eq]
      unfold slot
      omega
    rw [ut.entry_section index] at is
    rw [← world, ← otherWorld, Option.some.inj (is.symm.trans otherIs)]

structure Placeable (ut : Uthread) (mp : UthreadMap) : Prop where
  inRange : mp.top ≤ 33554432
  nonempty : mp.vaddr.toNat < mp.top
  secure : mp.isNs = false → mp.top ≤ ut.nsVaBottom.toNat
  nonSecure : mp.isNs = true → ∀ item ∈ ut.mapList, item.isNs = false →
    item.top ≤ 1048576 * (mp.vaddr.toNat / 1048576)
  unused : Unused ut mp

variable {list : List UthreadMap}

theorem findVaSpaceNsLoop_above {nsVaBottom start found : Word} (inRange : ∀ item ∈ list, item.top ≤ 33554432)
    (sorted : list.Pairwise fun first second => second.top ≤ first.vaddr.toNat)
    (nonempty : ∀ item ∈ list, item.vaddr.toNat < item.top)
    (secureBelow : ∀ item ∈ list, item.isNs = false → item.top ≤ nsVaBottom.toNat)
    (aligned : nsVaBottom.toNat % 1048576 = 0) (is : findVaSpaceNsLoop nsVaBottom size align start list = some found) :
    ∀ item ∈ list, item.isNs = false → item.top ≤ 1048576 * (found.toNat / 1048576) := by
  induction list generalizing start with
  | nil => nofun
  | cons mp rest ih =>
  have range := inRange mp mem_cons_self
  have limit := limit_toNat range
  obtain ⟨under, sortedRest⟩ := pairwise_cons.mp sorted
  unfold findVaSpaceNsLoop at is
  split at is
  · rename_i gap
    split at is
    · rename_i above
      cases is
      intro item among secure
      have below := secureBelow item among secure
      rw [ge_iff_le, le_def] at above
      omega
    split at is
    · nomatch is
    rename_i room
    cases is
    rw [not_lt, le_def, limit, down_1MB_toNat] at room
    intro item among secure
    cases among with
    | head => exact room
    | tail _ among =>
    have order := under item among
    have size := nonempty mp mem_cons_self
    omega
  · split at is
    · nomatch is
    rename_i ns
    have lower := ih (fun item among => inRange item (mem_cons_of_mem _ among))
      sortedRest (fun item among => nonempty item (mem_cons_of_mem _ among))
      (fun item among => secureBelow item (mem_cons_of_mem _ among)) is
    intro item among secure
    cases among with
    | head =>
      rw [secure] at ns
      exact absurd rfl ns
    | tail _ among => exact lower item among secure

theorem uthreadFindVaSpace_sides (sides : Sides ut.mapList ut.nsVaBottom)
    (found : uthreadFindVaSpace ut size flags align ≠ 0) :
    (hasFlag flags utmNsMem = false →
      (uthreadFindVaSpace ut size flags align).toNat + size.toNat ≤ ut.nsVaBottom.toNat) ∧
    (hasFlag flags utmNsMem = true → ∀ item ∈ ut.mapList, item.isNs = false →
      item.top ≤ 1048576 * ((uthreadFindVaSpace ut size flags align).toNat / 1048576)) := by
  unfold uthreadFindVaSpace at *
  constructor
  · intro secure
    rw [secure] at found ⊢
    obtain ⟨_, below, whole⟩ := uthreadFindVaSpaceSec_found found
    rw [BitVec.le_def, BitVec.toNat_add] at below whole
    simp only [Bool.false_eq_true, if_false]
    omega
  · intro ns
    rw [if_pos ns] at found ⊢
    intro item among
    exact findVaSpaceNsLoop_above (fun item among => sides.inRange item (mem_reverse.mp among))
      (pairwise_reverse.mpr sides.sorted)
      (fun item among => sides.nonempty item (mem_reverse.mp among))
      (fun item among => sides.secureBelow item (mem_reverse.mp among))
      sides.bottomAligned (uthreadFindVaSpaceNs_found found).1 item (mem_reverse.mpr among)

variable {inserted : List UthreadMap}

theorem insertMap_mem (is : insertMap mp list = some inserted) :
    ∀ other, other ∈ inserted ↔ other = mp ∨ other ∈ list := by
  intro other
  have split := mem_append (a := other) (s := (mp.placed list).before) (t := (mp.placed list).after)
  rw [placed_split] at split
  rw [(insertMap_placed is).1, split, mem_append, mem_cons]
  tauto

theorem insertMap_sorted (inRange : ∀ item ∈ list, item.top ≤ 33554432)
    (nonempty : ∀ item ∈ list, item.vaddr.toNat < item.top)
    (sorted : list.Pairwise fun first second => first.top ≤ second.vaddr.toNat) (fits : mp.top ≤ 33554432)
    (is : insertMap mp list = some inserted) :
    inserted.Pairwise fun first second => first.top ≤ second.vaddr.toNat := by
  induction list generalizing inserted with
  | nil =>
    cases is
    exact pairwise_singleton _ _
  | cons item rest ih =>
  obtain ⟨under, sortedRest⟩ := pairwise_cons.mp sorted
  have range := limit_toNat (inRange item mem_cons_self)
  have size := nonempty item mem_cons_self
  unfold insertMap at is
  split at is
  · split at is
    · cases is
    rename_i apart
    rw [gt_iff_lt, not_lt, le_def, limit_toNat fits] at apart
    cases is
    refine pairwise_cons.mpr ⟨?_, sorted⟩
    intro other among
    cases among with
    | head => exact apart
    | tail _ among =>
    have order := under other among
    omega
  · split at is
    · cases is
    rename_i apart
    rw [not_lt, le_def, range] at apart
    obtain ⟨inner, innerIs, rfl⟩ := Option.map_eq_some_iff.mp is
    refine pairwise_cons.mpr ⟨?_, ih (fun other among => inRange other (mem_cons_of_mem _ among))
      (fun other among => nonempty other (mem_cons_of_mem _ among)) sortedRest innerIs⟩
    intro other among
    rcases (insertMap_mem innerIs other).mp among with same | old
    · rw [same]
      exact apart
    · exact under other old

theorem Sides.added (sides : Sides ut.mapList ut.nsVaBottom) (within : mp.top ≤ 33554432)
    (positive : mp.vaddr.toNat < mp.top) (below : mp.isNs = false → mp.top ≤ ut.nsVaBottom.toNat)
    (apart : mp.isNs = true → ∀ item ∈ ut.mapList, item.isNs = false →
      item.top ≤ 1048576 * (mp.vaddr.toNat / 1048576)) (is : insertMap mp ut.mapList = some inserted) :
    Sides inserted (movedBottom ut mp) := by
  have members := insertMap_mem is
  have down := down_1MB_toNat mp.vaddr
  have aligned := sides.bottomAligned
  have max := sides.bottomMax
  -- The bottom moves down at most to the section of the new mapping.
  have bottom : (movedBottom ut mp).toNat ≤ ut.nsVaBottom.toNat ∧ (movedBottom ut mp).toNat % 1048576 = 0 ∧
      (mp.isNs = true → (movedBottom ut mp).toNat ≤ mp.vaddr.toNat) ∧
      (mp.isNs = false → movedBottom ut mp = ut.nsVaBottom) ∧
      (movedBottom ut mp = ut.nsVaBottom ∨ mp.isNs = true ∧
        (movedBottom ut mp).toNat = 1048576 * (mp.vaddr.toNat / 1048576)) := by
    unfold movedBottom
    split
    · rename_i moves
      obtain ⟨ns, lower⟩ := moves
      rw [BitVec.lt_def] at lower
      rw [down]
      refine ⟨by omega, by omega, fun _ => by omega, fun secure => ?_, .inr ⟨ns, rfl⟩⟩
      rw [ns] at secure
      nomatch secure
    · rename_i stays
      refine ⟨le_rfl, aligned, fun ns => ?_, fun _ => rfl, .inl rfl⟩
      rw [not_and, not_lt] at stays
      exact BitVec.le_def.mp (stays ns)
  obtain ⟨lower, newAligned, above, secureSame, moved⟩ := bottom
  constructor
  · intro other among
    rcases (members other).mp among with same | old
    · exact same ▸ within
    · exact sides.inRange other old
  · intro other among
    rcases (members other).mp among with same | old
    · exact same ▸ positive
    · exact sides.nonempty other old
  · exact insertMap_sorted sides.inRange sides.nonempty sides.sorted within is
  · intro other among secure
    rcases (members other).mp among with same | old
    · rw [same] at secure ⊢
      rw [secureSame secure]
      exact below secure
    rcases moved with same | down
    · rw [same]
      exact sides.secureBelow other old secure
    · rw [down.2]
      exact apart down.1 other old secure
  · intro other among ns
    rcases (members other).mp among with same | old
    · rw [same] at ns ⊢
      exact above ns
    · exact le_trans lower (sides.nsAbove other old ns)
  · exact newAligned
  · exact le_trans lower max
  · intro none'
    rw [secureSame (none' mp ((members mp).mpr (.inl rfl)))]
    exact sides.bottomFree fun other old => none' other ((members other).mpr (.inr old))

theorem Placeable.sameSection (placeable : Placeable ut mp) (sides : Sides ut.mapList ut.nsVaBottom)
    (among : item ∈ ut.mapList) {page other : Nat} (below : page < mp.pages) (otherBelow : other < item.pages)
    (same : level1Index (pageAddress item.vaddr other) = level1Index (pageAddress mp.vaddr page)) :
    item.isNs = mp.isNs := by
  obtain ⟨_, inside, index⟩ := page_section placeable.inRange below
  obtain ⟨_, otherInside, otherIndex⟩ := page_section (sides.inRange item among) otherBelow
  have aligned := sides.bottomAligned
  cases world : mp.isNs with
  | true =>
    cases otherWorld : item.isNs with
    | true => rfl
    | false =>
    have apart := placeable.nonSecure world item among otherWorld
    omega
  | false =>
  cases otherWorld : item.isNs with
  | false => rfl
  | true =>
  have top := placeable.secure world
  have apart := sides.nsAbove item among otherWorld
  omega

theorem isNs_l1FlagsOf (flags : Word) :
    hasFlag (l1FlagsOf flags ||| 1) mmuMemoryL1PagetableNonSecure = hasFlag flags utmNsMem := by
  unfold l1FlagsOf
  cases hasFlag flags utmNsMem <;> decide

theorem Layout.added (layout : Layout ut) (placeable : Placeable ut mp) (is : insertMap mp ut.mapList = some inserted)
    (list : next.mapList = inserted) (bottom : next.nsVaBottom = movedBottom ut mp)
    (keeps : ∀ vaddr entry, ut.entry vaddr = some entry → ∃ kept, next.entry vaddr = some kept ∧ kept.bits = entry.bits)
    (origin : ∀ vaddr entry, next.entry vaddr = some entry →
      (∃ earlier, ut.entry vaddr = some earlier ∧ earlier.bits = entry.bits) ∨ entry.bits = l1FlagsOf mp.flags ||| 1)
    (backed : ∀ page, page < mp.pages → next.Backed (pageAddress mp.vaddr page)) :
    Layout next where
  sides := by
    rw [list, bottom]
    exact layout.sides.added placeable.inRange placeable.nonempty placeable.secure placeable.nonSecure is
  world := by
    intro other among page below
    rw [list] at among
    cases (insertMap_mem is other).mp among with
    | inr old =>
      obtain ⟨entry, entryIs, world⟩ := layout.world other old page below
      obtain ⟨kept, keptIs, bits⟩ := keeps _ entry entryIs
      refine ⟨kept, keptIs, ?_⟩
      unfold Level1Entry.isNs at *
      rw [bits, world]
    | inl same =>
    subst same
    obtain ⟨entry, entryIs⟩ := Option.isSome_iff_exists.mp (backed page below)
    refine ⟨entry, entryIs, ?_⟩
    cases origin _ entry entryIs with
    | inr added =>
      unfold Level1Entry.isNs
      rw [added]
      exact isNs_l1FlagsOf other.flags
    | inl known =>
    obtain ⟨earlier, earlierIs, bits⟩ := known
    have world : earlier.isNs = other.isNs := by
      -- An entry that is there belongs to a mapping, or its section is unused.
      by_cases shared : ∃ item ∈ ut.mapList, ∃ otherPage, otherPage < item.pages ∧
          level1Index (pageAddress item.vaddr otherPage) = level1Index (pageAddress other.vaddr page)
      · obtain ⟨item, itemAmong, otherPage, otherBelow, index⟩ := shared
        obtain ⟨itemEntry, itemIs, itemWorld⟩ := layout.world item itemAmong otherPage otherBelow
        rw [ut.entry_section index] at itemIs
        rw [Option.some.inj (earlierIs.symm.trans itemIs), itemWorld]
        exact placeable.sameSection layout.sides itemAmong below otherBelow index
      · refine placeable.unused page below ?_ earlier earlierIs
        intro item itemAmong otherPage otherBelow index
        exact shared ⟨item, itemAmong, otherPage, otherBelow, index⟩
    unfold Level1Entry.isNs at *
    rw [← bits, world]

section Removed

variable {nsVaBottom : Word}

section

variable (sides : Sides (node.before ++ node.mp :: node.after) nsVaBottom)

include sides

theorem Sides.before_secure (lowest : ¬node.before.getLast?.any UthreadMap.isNs = true) :
    ∀ item ∈ node.before, item.isNs = false := by
  intro item among
  by_contra ns
  rw [Bool.not_eq_false] at ns
  obtain ⟨sorted, _, _⟩ := pairwise_append.mp sides.sorted
  cases final : node.before.getLast? with
  | none =>
    rw [getLast?_eq_none_iff.mp final] at among
    nomatch among
  | some last =>
  obtain ⟨front, shape⟩ := getLast?_eq_some_iff.mp final
  have secure : last.isNs = false := by
    rw [final] at lowest
    exact Bool.not_eq_true _ |>.mp lowest
  have lastAmong : last ∈ node.before ++ node.mp :: node.after := by
    rw [shape]
    simp
  rw [shape, mem_append, mem_singleton] at among
  cases among with
  | inr same =>
    rw [same, secure] at ns
    nomatch ns
  | inl front' =>
  rw [shape] at sorted
  have order := (pairwise_append.mp sorted).2.2 item front' last mem_cons_self
  have itemAmong : item ∈ node.before ++ node.mp :: node.after := by
    rw [shape]
    simp [front']
  have below := sides.secureBelow last lastAmong secure
  have above := sides.nsAbove item itemAmong ns
  have size := sides.nonempty last lastAmong
  have itemSize := sides.nonempty item itemAmong
  omega

theorem Sides.after_ns (ns : node.mp.isNs = true) : ∀ item ∈ node.after,
      item.isNs = true ∧ node.mp.top ≤ item.vaddr.toNat := by
  intro item among
  have mpAmong : node.mp ∈ node.before ++ node.mp :: node.after := by simp
  have itemAmong : item ∈ node.before ++ node.mp :: node.after := by simp [among]
  obtain ⟨_, tail, _⟩ := pairwise_append.mp sides.sorted
  have order := (pairwise_cons.mp tail).1 item among
  refine ⟨?_, order⟩
  by_contra secure
  rw [Bool.not_eq_true] at secure
  have below := sides.secureBelow item itemAmong secure
  have above := sides.nsAbove node.mp mpAmong ns
  have size := sides.nonempty item itemAmong
  have mpSize := sides.nonempty node.mp mpAmong
  omega

theorem Sides.removed : Sides (node.before ++ node.after) (node.bottom nsVaBottom) := by
  have fewer : (node.before ++ node.after).Sublist (node.before ++ node.mp :: node.after) :=
    (Sublist.refl _).append (sublist_cons_self _ _)
  have aligned := sides.bottomAligned
  have max := sides.bottomMax
  have bottom : nsVaBottom.toNat ≤ (node.bottom nsVaBottom).toNat ∧
      (node.bottom nsVaBottom).toNat % 1048576 = 0 ∧
      (node.bottom nsVaBottom).toNat ≤ 33554432 ∧
      (∀ item ∈ node.before ++ node.after, item.isNs = true →
        (node.bottom nsVaBottom).toNat ≤ item.vaddr.toNat) ∧
      ((∀ item ∈ node.before ++ node.after, item.isNs = false) →
        node.bottom nsVaBottom = maxUsrVa) := by
    unfold MapNode.bottom
    by_cases ns : node.mp.isNs = true
    · rw [if_pos ns]
      by_cases lowest : node.before.getLast?.any UthreadMap.isNs = true
      · rw [if_pos lowest]
        refine ⟨le_rfl, aligned, max,
          fun item among => sides.nsAbove item (fewer.subset among), fun none' => ?_⟩
        cases final : node.before.getLast? with
        | none =>
          rw [final] at lowest
          nomatch lowest
        | some last =>
        rw [final] at lowest
        obtain ⟨front, shape⟩ := getLast?_eq_some_iff.mp final
        have secure := none' last (by rw [shape]; simp)
        nomatch secure.symm.trans lowest
      · rw [if_neg lowest]
        have before := sides.before_secure lowest
        have after := sides.after_ns ns
        cases rest : node.after with
        | nil =>
          rw [append_nil]
          refine ⟨max, by decide, by decide, fun item among itemNs => ?_, fun _ => rfl⟩
          nomatch (before item among).symm.trans itemNs
        | cons item others =>
        rw [rest] at after
        have itemAmong : item ∈ node.before ++ node.mp :: node.after := by simp [rest]
        obtain ⟨itemNs, itemAbove⟩ := after item mem_cons_self
        have above := sides.nsAbove item itemAmong itemNs
        have inRange := sides.inRange item itemAmong
        have size := sides.nonempty item itemAmong
        have down := down_1MB_toNat item.vaddr
        dsimp only [head?_cons]
        rw [down]
        refine ⟨by omega, by omega, by omega, fun other among otherNs => ?_, fun none' => ?_⟩
        · rcases mem_append.mp among with earlier | later
          · nomatch (before other earlier).symm.trans otherNs
          cases later with
          | head => omega
          | tail _ later =>
          have sorted := sides.sorted
          rw [rest] at sorted
          have order := (pairwise_cons.mp (pairwise_cons.mp
            (pairwise_append.mp sorted).2.1).2).1 other later
          omega
        · have secure := none' item (by simp)
          nomatch secure.symm.trans itemNs
    · rw [if_neg ns]
      refine ⟨le_rfl, aligned, max,
        fun item among => sides.nsAbove item (fewer.subset among), fun none' => ?_⟩
      apply sides.bottomFree
      intro item among
      rw [mem_append, mem_cons] at among
      rcases among with earlier | rest
      · exact none' item (mem_append_left _ earlier)
      rcases rest with same | later
      · rw [same]
        exact Bool.not_eq_true _ |>.mp ns
      · exact none' item (mem_append_right _ later)
  obtain ⟨higher, newAligned, newMax, nsAbove, free⟩ := bottom
  exact {
    inRange := fun item among => sides.inRange item (fewer.subset among)
    nonempty := fun item among => sides.nonempty item (fewer.subset among)
    sorted := sides.sorted.sublist fewer
    secureBelow := fun item among secure =>
      le_trans (sides.secureBelow item (fewer.subset among) secure) higher
    nsAbove
    bottomAligned := newAligned
    bottomMax := newMax
    bottomFree := free }

end

end Removed

theorem Layout.unmapped (layout : Layout ut) : Layout (uthreadUnmap ut vaddr size).2 := by
  unfold uthreadUnmap
  split
  · exact layout
  cases found : uthreadMapFind ut vaddr size with
  | none => exact layout
  | some node =>
  unfold uthreadMapFind at found
  split at found
  · nomatch found
  have shape := (findNode_covers found).2
  have more := @archUthreadUnmapLoop_extends ut node.mp.vaddr 0 0 node.mp.pages
  unfold archUthreadUnmap
  dsimp only
  generalize archUthreadUnmapLoop node.mp.vaddr ut 0 node.mp.pages = outcome at more
  obtain ⟨status, rest⟩ := outcome
  have kept := layout.extended more
  cases status with
  | noError =>
    have sides := kept.sides
    have list : rest.mapList = node.before ++ node.mp :: node.after := more.mapList.trans shape
    rw [list] at sides
    refine ⟨sides.removed, ?_⟩
    intro mp among page below
    refine kept.world mp ?_ page below
    rw [list]
    exact (mem_append.mp among).elim (mem_append_left _) fun later => mem_append_right _ (mem_cons_of_mem _ later)
  | errInvalidArgs | errNoMemory | errNotValid | errNotFound | errNotSupported =>
  exact kept

end Trusty.UserSpace
