import Trusty.Storage.Basic

/-!
# Overlap of block sets

`block_set_overlap` looks for the next range of either set in turn. A block tree is
its entries in order, as `block_tree_walk` and `block_tree_path_next` show them.
-/

namespace Trusty.Storage.BlockSets

open List

/-- `initial_range` is only there as long as nothing is in the tree. -/
structure BlockSet where
  entries : List BlockRange
  initial : BlockRange
  filled : ∀ range ∈ entries, 1 ≤ range.start ∧ range.start < range.stop
  apart : entries.Pairwise fun range later => range.stop < later.start
  initially : initial = .clear ∨ entries = [] ∧ 1 ≤ initial.start ∧ initial.start < initial.stop

/-- The entries from the path on that `block_tree_walk` finds with `key_is_max`: the last
entry that does not start behind the key, or the first one. -/
def blockTreeWalk (key : Nat) : List BlockRange → List BlockRange
  | range :: next :: rest =>
    if next.start ≤ key then blockTreeWalk key (next :: rest) else range :: next :: rest
  | path => path

def blockRangeInitFromPath (path : List BlockRange) : BlockRange := path.headD .clear

def nextEntry (minBlock : Nat) (entries : List BlockRange) : BlockRange :=
  let path := blockTreeWalk minBlock entries
  let range := blockRangeInitFromPath path
  if range.start ≠ range.stop ∧ range.stop ≤ minBlock then blockRangeInitFromPath path.tail
  else range

/-- The range that `block_set_find_next_block` works with. -/
def BlockSet.rangeAt (set : BlockSet) (minBlock : Nat) : BlockRange :=
  let range := nextEntry minBlock set.entries
  if range.start ≠ range.stop then range
  else if set.initial.stop ≤ minBlock then .clear
  else set.initial

/-- `none` is an assertion that fails. -/
def BlockSet.findNextBlock (set : BlockSet) (minBlock : Nat) (inSet : Bool) : Option Nat :=
  let range := set.rangeAt minBlock
  if range.start = range.stop ∧ range.start ≠ 0 then none
  else if range.contains minBlock = inSet then some minBlock
  else if inSet then some range.start
  else if range.start = range.stop then none
  else some range.stop

def BlockSet.findNextRange (set : BlockSet) (minBlock : Nat) : Option BlockRange :=
  (set.findNextBlock minBlock true).bind fun start =>
    if start = 0 then some .clear else (set.findNextBlock start false).map (⟨start, ·⟩)

inductive OverlapEnd where
  | answer (overlap : Bool)
  | assertFailed
  deriving DecidableEq, Repr

/-- The loop of `block_set_overlap`; `none` is a loop that is still going on. -/
def overlapLoop (setA setB : BlockSet) : Nat → BlockRange → Option OverlapEnd
  | 0, _ => none
  | fuel + 1, rangeB =>
    match setA.findNextRange rangeB.start with
    | none => some .assertFailed
    | some rangeA =>
      if rangeA.start = rangeA.stop then some (.answer false)
      else if rangeB.contains rangeA.start then some (.answer true)
      else if rangeA.start < rangeB.start then some .assertFailed
      else
        match setB.findNextRange rangeA.start with
        | none => some .assertFailed
        | some rangeB =>
          if rangeB.start = rangeB.stop then some (.answer false)
          else if rangeA.contains rangeB.start then some (.answer true)
          else if rangeB.start ≤ rangeA.start then some .assertFailed
          else overlapLoop setA setB fuel rangeB

def blockSetOverlap (setA setB : BlockSet) (fuel : Nat) : Option OverlapEnd :=
  overlapLoop setA setB fuel .clear

def BlockSet.all (set : BlockSet) : List BlockRange :=
  if set.initial = .clear then set.entries else [set.initial]

def BlockSet.Has (set : BlockSet) (block : Nat) : Prop :=
  ∃ range ∈ set.all, range.contains block = true

@[simp] theorem contains_iff {range : BlockRange} {block : Nat} :
    range.contains block = true ↔ range.start ≤ block ∧ block < range.stop := by
  simp [BlockRange.contains]

structure IsNext (minBlock : Nat) (ranges : List BlockRange) (range : BlockRange) : Prop where
  inside : range ∈ ranges
  filled : 1 ≤ range.start ∧ range.start < range.stop
  behind : minBlock < range.stop
  first : ∀ other ∈ ranges, other.stop ≤ minBlock ∨ range.start ≤ other.start

theorem nextEntry_next {minBlock : Nat} {entries : List BlockRange}
    (filled : ∀ range ∈ entries, 1 ≤ range.start ∧ range.start < range.stop)
    (apart : entries.Pairwise fun range later => range.stop < later.start) :
    (nextEntry minBlock entries = .clear ∧ ∀ range ∈ entries, range.stop ≤ minBlock) ∨
      IsNext minBlock entries (nextEntry minBlock entries) := by
  induction entries with
  | nil => exact .inl ⟨rfl, nofun⟩
  | cons range rest ih =>
  obtain ⟨firstFilled, restFilled⟩ := forall_mem_cons.mp filled
  obtain ⟨before, restApart⟩ := pairwise_cons.mp apart
  have occupied : range.start ≠ range.stop := by omega
  -- the walk stays here unless the next entry starts at the block or before it
  by_cases walks : ∃ next more, rest = next :: more ∧ next.start ≤ minBlock
  · obtain ⟨next, more, rfl, walks⟩ := walks
    have gap := before next mem_cons_self
    have same : nextEntry minBlock (range :: next :: more) = nextEntry minBlock (next :: more) := by
      simp [nextEntry, blockTreeWalk, walks]
    rw [same]
    rcases ih restFilled restApart with ⟨clear, passed⟩ | found
    · exact .inl ⟨clear, forall_mem_cons.mpr ⟨by omega, passed⟩⟩
    · exact .inr ⟨mem_cons_of_mem _ found.inside, found.filled, found.behind,
        forall_mem_cons.mpr ⟨.inl (by omega), found.first⟩⟩
  have stays : blockTreeWalk minBlock (range :: rest) = range :: rest := by
    cases rest with
    | nil => rfl
    | cons next more => exact if_neg fun early => walks ⟨next, more, rfl, early⟩
  by_cases passed : range.stop ≤ minBlock
  · have same : nextEntry minBlock (range :: rest) = blockRangeInitFromPath rest := by
      simp [nextEntry, stays, blockRangeInitFromPath, occupied, passed]
    rw [same]
    cases rest with
    | nil => exact .inl ⟨rfl, by simpa using passed⟩
    | cons next more =>
    have late : ¬next.start ≤ minBlock := fun early => walks ⟨next, more, rfl, early⟩
    have nextFilled := restFilled next mem_cons_self
    refine .inr ⟨by simp [blockRangeInitFromPath], nextFilled, ?_, ?_⟩
    · simp only [blockRangeInitFromPath, headD_cons]
      omega
    refine forall_mem_cons.mpr ⟨.inl passed, forall_mem_cons.mpr ⟨?_, ?_⟩⟩
    · exact .inr le_rfl
    · intro other member
      have gap := (pairwise_cons.mp restApart).1 other member
      exact .inr (by simp only [blockRangeInitFromPath, headD_cons]; omega)
  · have same : nextEntry minBlock (range :: rest) = range := by
      simp [nextEntry, stays, blockRangeInitFromPath, passed]
    rw [same]
    refine .inr ⟨mem_cons_self, firstFilled, by omega, ?_⟩
    refine forall_mem_cons.mpr ⟨.inr le_rfl, fun other member => ?_⟩
    have gap := before other member
    exact .inr (by omega)

theorem BlockSet.rangeAt_next (set : BlockSet) (minBlock : Nat) :
    (set.rangeAt minBlock = .clear ∧ ∀ range ∈ set.all, range.stop ≤ minBlock) ∨
      IsNext minBlock set.all (set.rangeAt minBlock) := by
  simp only [BlockSet.rangeAt, BlockSet.all]
  rcases set.initially with clear | ⟨empty, filled⟩
  · rw [if_pos clear, clear]
    rcases nextEntry_next set.filled set.apart with ⟨none, passed⟩ | found
    · exact .inl ⟨by simp [none, BlockRange.clear], passed⟩
    · rw [if_pos (by have := found.filled; omega)]
      exact .inr found
  · have present : set.initial ≠ .clear := fun clear => by simp [clear, BlockRange.clear] at filled
    rw [if_neg present, empty]
    have none : nextEntry minBlock [] = .clear := rfl
    simp only [none, BlockRange.clear, ne_eq, not_true_eq_false, if_false]
    split
    case isTrue passed => exact .inl ⟨rfl, by simpa using passed⟩
    case isFalse open_ => exact .inr ⟨by simp, filled, by omega, by simp⟩

theorem BlockSet.findNextBlock_filled {set : BlockSet} {minBlock : Nat}
    (filled : (set.rangeAt minBlock).start < (set.rangeAt minBlock).stop) (inSet : Bool) :
    set.findNextBlock minBlock inSet = some (if (set.rangeAt minBlock).contains minBlock = inSet
      then minBlock else if inSet then (set.rangeAt minBlock).start
      else (set.rangeAt minBlock).stop) := by
  have occupied : (set.rangeAt minBlock).start ≠ (set.rangeAt minBlock).stop := filled.ne
  simp only [findNextBlock, occupied, false_and, if_false]
  split
  · rfl
  · split <;> rfl

/-- What `block_set_find_next_range` returns: the members from the block on begin with it. -/
structure NextRange (set : BlockSet) (minBlock : Nat) (range : BlockRange) : Prop where
  start : minBlock ≤ range.start
  filled : range.start < range.stop
  members : ∀ block, range.contains block = true → set.Has block
  first : ∀ block, set.Has block → minBlock ≤ block → range.start ≤ block

theorem BlockSet.findNextRange_spec (set : BlockSet) (minBlock : Nat) :
    (set.findNextRange minBlock = some .clear ∧ ∀ block, set.Has block → block < minBlock) ∨
      ∃ range, set.findNextRange minBlock = some range ∧ NextRange set minBlock range := by
  rcases set.rangeAt_next minBlock with ⟨clear, passed⟩ | found
  · refine .inl ⟨by simp [findNextRange, findNextBlock, clear, BlockRange.clear, BlockRange.contains], ?_⟩
    rintro block ⟨range, member, inside⟩
    have := passed range member
    have := contains_iff.mp inside
    omega
  have filled := found.filled
  have behind := found.behind
  let start := max minBlock (set.rangeAt minBlock).start
  have begins : set.findNextBlock minBlock true = some start := by
    rw [findNextBlock_filled filled.2]
    split
    case isTrue inside => exact congrArg some (by have := contains_iff.mp inside; omega)
    case isFalse outside =>
      rw [contains_iff] at outside
      exact congrArg some (by rw [if_pos rfl]; omega)
  rcases set.rangeAt_next start with ⟨-, passed⟩ | again
  · have := passed _ found.inside
    omega
  have early : (set.rangeAt start).start ≤ start := by
    rcases again.first _ found.inside with passed | early <;> omega
  have ends : set.findNextBlock start false = some (set.rangeAt start).stop := by
    have inside := contains_iff.mpr ⟨early, again.behind⟩
    rw [findNextBlock_filled again.filled.2, inside]
    rfl
  refine .inr ⟨⟨start, (set.rangeAt start).stop⟩, ?_, le_max_left .., again.behind, ?_, ?_⟩
  · have nonzero : start ≠ 0 := by omega
    simp [findNextRange, begins, ends, nonzero]
  · intro block inside
    have := contains_iff.mp inside
    exact ⟨_, again.inside, contains_iff.mpr (by dsimp only at this; omega)⟩
  · rintro block ⟨other, member, inside⟩ above
    have := contains_iff.mp inside
    rcases found.first other member with passed | late <;> dsimp only <;> omega

theorem overlapLoop_answers (setA setB : BlockSet) (bound : Nat) (below : ∀ block, setB.Has block → block < bound)
    (left : Nat) :
    ∀ rangeB : BlockRange, bound - rangeB.start ≤ left → (∀ block, rangeB.contains block = true → setB.Has block) →
      (∀ block, setA.Has block → setB.Has block → rangeB.start ≤ block) →
      ∃ fuel overlap, overlapLoop setA setB fuel rangeB = some (.answer overlap) ∧
        (overlap = true ↔ ∃ block, setA.Has block ∧ setB.Has block) := by
  induction left using Nat.strong_induction_on with
  | _ left ih =>
  intro rangeB measure members none
  rcases setA.findNextRange_spec rangeB.start with ⟨noMore, beyond⟩ | ⟨rangeA, nextA, isA⟩
  · refine ⟨1, false, by simp [overlapLoop, noMore, BlockRange.clear], by simp, ?_⟩
    rintro ⟨block, inA, inB⟩
    have := beyond block inA
    have := none block inA inB
    omega
  have filledA := isA.filled.ne
  have startA := isA.members rangeA.start (contains_iff.mpr ⟨le_rfl, isA.filled⟩)
  by_cases meets : rangeB.contains rangeA.start = true
  · exact ⟨1, true, by simp [overlapLoop, nextA, filledA, meets],
      fun _ => ⟨rangeA.start, startA, members _ meets⟩, fun _ => rfl⟩
  have ordered : ¬rangeA.start < rangeB.start := Nat.not_lt.mpr isA.start
  rcases setB.findNextRange_spec rangeA.start with ⟨noMore, beyond⟩ | ⟨later, nextB, isB⟩
  · refine ⟨1, false, by simp [overlapLoop, nextA, filledA, meets, ordered, noMore, BlockRange.clear], by simp, ?_⟩
    rintro ⟨block, inA, inB⟩
    have := beyond block inB
    have := isA.first block inA (none block inA inB)
    omega
  have filledB := isB.filled.ne
  have startB := isB.members later.start (contains_iff.mpr ⟨le_rfl, isB.filled⟩)
  by_cases joins : rangeA.contains later.start = true
  · exact ⟨1, true, by simp [overlapLoop, nextA, filledA, meets, ordered, nextB, filledB, joins],
      fun _ => ⟨later.start, isA.members _ joins, startB⟩, fun _ => rfl⟩
  have advances : ¬later.start ≤ rangeA.start := by
    intro same
    exact joins (contains_iff.mpr ⟨isB.start, lt_of_le_of_lt same isA.filled⟩)
  have bounded := below later.start startB
  obtain ⟨fuel, overlap, answered, meaning⟩ := ih (bound - later.start) (by omega) later
    le_rfl isB.members fun block inA inB =>
      isB.first block inB (isA.first block inA (none block inA inB))
  exact ⟨fuel + 1, overlap, by
    simp [overlapLoop, nextA, filledA, meets, ordered, nextB, filledB, joins, advances, answered],
    meaning⟩

theorem BlockSet.bounded (set : BlockSet) : ∃ bound, ∀ block, set.Has block → block < bound := by
  refine ⟨(set.all.map BlockRange.stop).sum, ?_⟩
  rintro block ⟨range, member, inside⟩
  exact lt_of_lt_of_le (contains_iff.mp inside).2 (single_le_sum (fun _ _ => Nat.zero_le _) _ (mem_map_of_mem member))

/-- The loop ends without a failed assertion, and says whether a block is in both sets;
for the sets in the other order it says the same. -/
theorem block_set_overlap_iff (setA setB : BlockSet) : ∃ fuel overlap,
    blockSetOverlap setA setB fuel = some (.answer overlap) ∧
      (overlap = true ↔ ∃ block, setA.Has block ∧ setB.Has block) ∧
      ∃ fuel, blockSetOverlap setB setA fuel = some (.answer overlap) := by
  have answers : ∀ first second : BlockSet, ∃ fuel overlap, blockSetOverlap first second fuel = some (.answer overlap) ∧
        (overlap = true ↔ ∃ block, first.Has block ∧ second.Has block) := by
    intro first second
    obtain ⟨bound, below⟩ := second.bounded
    exact overlapLoop_answers first second bound below _ .clear (Nat.le_refl _)
      (by simp [BlockRange.clear]) fun _ _ _ => Nat.zero_le _
  obtain ⟨fuel, overlap, answered, meaning⟩ := answers setA setB
  obtain ⟨fuel', other, answered', meaning'⟩ := answers setB setA
  have same : other = overlap := by
    rw [Bool.eq_iff_iff, meaning', meaning]
    exact exists_congr fun _ => and_comm
  exact ⟨fuel, overlap, answered, meaning, fuel', same ▸ answered'⟩

end Trusty.Storage.BlockSets
