import Trusty.Keymaster.AuthSetProperties

/-!
What `Deduplicate` leaves of a set. It assumes that invalid entries come first
in a sorted set, which is so as long as no tag is negative.
-/

namespace Trusty.Keymaster.AuthSet

open List

variable {set : AuthSet} {elems : List SetParam} {left middle right : SetParam}

theorem compareNat_eq_iff {left right : Nat} : compareNat left right = .eq ↔ left = right := by
  unfold compareNat
  grind

theorem compareBytes_eq_iff {left right : List UInt8} : compareBytes left right = .eq ↔ left = right := by
  fun_induction compareBytes left right <;> grind

theorem compareBlobs_eq_iff {left right : List UInt8} : compareBlobs left right = .eq ↔ left = right := by
  unfold compareBlobs
  split <;> simp [compareBytes_eq_iff]

theorem tag_le_of_compare (order : set.compareParams left right ≠ .gt) : left.tag.toInt32 ≤ right.tag.toInt32 := by
  unfold compareParams at order
  grind

theorem tag_eq_of_compare (same : set.compareParams left right = .eq) : left.tag = right.tag := by
  unfold compareParams at same
  have : left.tag.toInt32 = right.tag.toInt32 := by grind
  exact congrArg Int32.toUInt32 this

/-- Two parameters compare as equal if they have the same tag and value, where the
value of a flag is not looked at. -/
theorem compareParams_eq_iff : set.compareParams left right = .eq ↔ left.tag = right.tag ∧
    (left.tag.type ≠ .bool → value set.blobData left = value set.blobData right) := by
  by_cases tags : left.tag = right.tag
  · unfold compareParams value
    rw [tags]
    cases right.tag.type <;> simp [compareNat_eq_iff, compareBlobs_eq_iff, UInt32.toNat_inj, UInt64.toNat_inj]
  · exact ⟨fun same => absurd (tag_eq_of_compare same) tags, fun same => absurd same.1 tags⟩

theorem compareParams_refl (set : AuthSet) (param : SetParam) : set.compareParams param param = .eq :=
  compareParams_eq_iff.mpr ⟨rfl, fun _ => rfl⟩

theorem compareParams_trans (first : set.compareParams left middle = .eq)
    (second : set.compareParams middle right = .eq) : set.compareParams left right = .eq := by
  rw [compareParams_eq_iff] at *
  grind

/-- The tags of blobs are negative. -/
theorem type_of_sign {tag : Tag} (sign : 0 ≤ tag.toInt32) : tag.type ≠ .bignum ∧ tag.type ≠ .bytes := by
  have small : 2 * tag.toNat < 2 ^ 32 := BitVec.toInt_pos_iff.mp (Int32.le_iff_toInt_le.mp sign)
  have kind : (tag >>> 28).toNat < 8 := by
    rw [UInt32.toNat_shiftRight, Nat.shiftRight_eq_div_pow]
    change tag.toNat / 2 ^ 28 < 8
    omega
  unfold Tag.type
  grind

theorem compareNat_squeezed {left middle right : Nat} (below : compareNat left middle ≠ .gt)
    (above : compareNat middle right ≠ .gt) (same : compareNat left right = .eq) : compareNat left middle = .eq := by
  unfold compareNat at *
  grind

theorem compareParams_squeezed (sign : 0 ≤ left.tag.toInt32)
    (below : set.compareParams left middle ≠ .gt) (above : set.compareParams middle right ≠ .gt)
    (same : set.compareParams left right = .eq) : set.compareParams left middle = .eq := by
  have tags : left.tag = right.tag := tag_eq_of_compare same
  have between : left.tag = middle.tag := congrArg Int32.toUInt32
    (Int32.le_antisymm (tag_le_of_compare below) (tags ▸ tag_le_of_compare above))
  obtain ⟨bignum, bytes⟩ := type_of_sign sign
  unfold compareParams at *
  simp only [← tags, ← between, Int32.lt_irrefl, if_false] at below above same ⊢
  cases type : left.tag.type <;> simp only [type] at below above same ⊢
  case bignum => contradiction
  case bytes => contradiction
  all_goals exact compareNat_squeezed below above same

abbrev Ordered (set : AuthSet) (elems : List SetParam) : Prop :=
  elems.Pairwise (set.compareParams · · ≠ .gt)

abbrev Distinct (set : AuthSet) (elems : List SetParam) : Prop :=
  elems.Pairwise (set.compareParams · · ≠ .eq)

abbrev Unsigned (elems : List SetParam) : Prop := ∀ elem ∈ elems, 0 ≤ elem.tag.toInt32

/-- The elements that are still valid once the duplicates are marked. -/
def kept (set : AuthSet) (elems : List SetParam) : List SetParam :=
  (set.markDuplicates elems).filter (·.tag != Tag.invalid)

theorem kept_cons (elem next : SetParam) (rest : List SetParam) : set.kept (elem :: next :: rest) =
      if elem.tag ≠ Tag.invalid ∧ set.compareParams elem next ≠ .eq then
        elem :: set.kept (next :: rest) else set.kept (next :: rest) := by
  unfold kept
  rw [markDuplicates, filter_cons]
  grind

theorem kept_sublist (set : AuthSet) : ∀ elems, set.kept elems <+ elems
  | [] => .slnil
  | [_] => filter_sublist
  | elem :: next :: rest => by
    have ih := kept_sublist set (next :: rest)
    rw [kept_cons]
    split
    · exact ih.cons_cons elem
    · exact ih.cons elem

/-- Of several equal elements the last one stays. -/
theorem kept_equal : ∀ {elem elems}, elem ∈ elems → elem.tag ≠ Tag.invalid →
    ∃ param ∈ set.kept elems, set.compareParams elem param = .eq
  | left, [last], member, valid => by
    cases mem_singleton.mp member
    exact ⟨left, by simpa [kept, markDuplicates] using valid, compareParams_refl set left⟩
  | left, elem :: next :: rest, member, valid => by
    -- An element that is marked equals the next one, of which a copy stays.
    have copy := @kept_equal next (next :: rest) mem_cons_self
    have behind := @kept_equal left (next :: rest)
    have same := compareParams_refl set elem
    rw [kept_cons]
    split
    · grind
    · grind [tag_eq_of_compare, compareParams_trans]

theorem kept_distinct : ∀ {elems}, Unsigned elems → set.Ordered elems → set.Distinct (set.kept elems)
  | [], _, _ => .nil
  | [_], _, _ => (pairwise_singleton _ _).filter _
  | elem :: next :: rest, signs, sorted => by
    obtain ⟨sign, signs⟩ := forall_mem_cons.mp signs
    obtain ⟨first, others⟩ := pairwise_cons.mp sorted
    have ih := kept_distinct signs others
    rw [kept_cons]
    split
    case isFalse => exact ih
    case isTrue fresh =>
    refine pairwise_cons.mpr ⟨fun param member same => fresh.2 ?_, ih⟩
    rcases mem_cons.mp ((kept_sublist set _).subset member) with rfl | behind
    · exact same
    · exact compareParams_squeezed sign (first next mem_cons_self) ((pairwise_cons.mp others).1 param behind) same

theorem drop_invalidCount (signs : Unsigned elems) (sorted : set.Ordered elems) :
    elems.drop (invalidCount elems) = elems.filter (·.tag != Tag.invalid) := by
  induction elems with
  | nil => rfl
  | cons elem rest ih =>
  obtain ⟨sign, signs⟩ := forall_mem_cons.mp signs
  obtain ⟨first, others⟩ := pairwise_cons.mp sorted
  have ih := ih signs others
  by_cases invalid : elem.tag = Tag.invalid
  · simpa [invalidCount, invalid] using ih
  have valid : ∀ param ∈ elem :: rest, param.tag ≠ Tag.invalid := by
    refine forall_mem_cons.mpr ⟨invalid, fun param member zero => ?_⟩
    have order := tag_le_of_compare (first param member)
    rw [zero] at order
    exact invalid (congrArg Int32.toUInt32 (Int32.le_antisymm order sign))
  have none : invalidCount (elem :: rest) = 0 := by simpa [invalidCount] using valid
  rw [none, drop_zero, filter_eq_self.mpr (by simpa using valid)]

/-- What `qsort` makes of an array. -/
def Sorts (set : AuthSet) (qsort : QSort) (elems : List SetParam) : Prop :=
  (qsort set.compareParams elems).Perm elems ∧ set.Ordered (qsort set.compareParams elems)

/-- No tag is negative, or there is nothing to take out. -/
def Removable (set : AuthSet) (elems : List SetParam) : Prop :=
  Unsigned elems ∨ (∀ elem ∈ elems, elem.tag ≠ Tag.invalid) ∧ set.Distinct elems

variable {qsort : QSort}

instance compareParams_symm : Std.Symm (set.compareParams · · ≠ .eq) where
  symm _ _ differ same := differ (by rw [compareParams_eq_iff] at *; grind)

theorem distinct_perm {others : List SetParam} (moved : elems.Perm others) :
    set.Distinct elems ↔ set.Distinct others :=
  moved.pairwise_iff (compareParams_symm.symm _ _)

theorem Removable.perm {others : List SetParam} (removable : set.Removable elems) (moved : others.Perm elems) :
    set.Removable others := by
  rcases removable with signs | ⟨valid, distinct⟩
  · exact .inl fun elem member => signs elem (moved.subset member)
  · exact .inr ⟨fun elem member => valid elem (moved.subset member), (distinct_perm moved).mpr distinct⟩

theorem markDuplicates_distinct : ∀ {elems}, set.Distinct elems → set.markDuplicates elems = elems
  | [], _ | [_], _ => rfl
  | elem :: next :: rest, distinct => by
    obtain ⟨first, others⟩ := pairwise_cons.mp distinct
    rw [markDuplicates, markDuplicates_distinct others, if_neg fun both => first next mem_cons_self both.2]

theorem deduplicate_kept {sorted : AuthSet} (is : set.sort qsort = sorted) (ordered : sorted.Ordered sorted.elems)
    (again : sorted.Sorts qsort (sorted.markDuplicates sorted.elems)) (removable : sorted.Removable sorted.elems) :
    (set.deduplicate qsort).indirect = sorted.indirect ∧ (set.deduplicate qsort).elems.Perm (sorted.kept sorted.elems) ∧
      sorted.Distinct (sorted.kept sorted.elems) := by
  have distinct : sorted.Distinct (sorted.kept sorted.elems) := by
    rcases removable with signs | ⟨_, distinct⟩
    · exact kept_distinct signs ordered
    · exact distinct.sublist (kept_sublist _ _)
  unfold deduplicate
  rw [is]
  dsimp only
  split
  case isTrue none =>
    have same : sorted.kept sorted.elems = sorted.markDuplicates sorted.elems :=
      filter_eq_self.mpr (by simpa [invalidCount] using none)
    have whole := (kept_sublist sorted _).eq_of_length (same ▸ length_markDuplicates _ _)
    exact ⟨rfl, .of_eq whole.symm, distinct⟩
  case isFalse some =>
  refine ⟨rfl, ?_, distinct⟩
  rcases removable with signs | ⟨valid, distinct⟩
  · have marked : Unsigned (sorted.markDuplicates sorted.elems) :=
      forall_markDuplicates (fun _ => (by decide : 0 ≤ Tag.invalid.toInt32)) signs
    have cut := drop_invalidCount (fun elem member => marked elem (again.1.subset member)) again.2
    unfold invalidCount at cut ⊢
    rw [again.1.countP_eq] at cut
    exact (Perm.of_eq cut).trans (again.1.filter _)
  · refine absurd ?_ some
    rw [markDuplicates_distinct distinct]
    exact countP_eq_zero.mpr fun elem member => by simpa using valid elem member

/-- In front of an invalid element stands one with a negative tag, which is dropped
in its place. -/
theorem invalid_left (sorted : set.Ordered elems) (member : left ∈ elems) (negative : ¬0 ≤ left.tag.toInt32)
    (some : invalidCount elems ≠ 0) : ∃ param ∈ elems.drop (invalidCount elems), param.tag = Tag.invalid := by
  by_contra none
  push Not at none
  generalize is : invalidCount elems = count at *
  have rest : invalidCount (elems.drop count) = 0 := countP_eq_zero.mpr (by simpa using none)
  have parts : invalidCount (elems.take count) + invalidCount (elems.drop count) = count := by
    unfold invalidCount at is ⊢
    rw [← countP_append, take_append_drop, is]
  have front : ∀ param ∈ elems.take count, param.tag = Tag.invalid := by
    have all : invalidCount (elems.take count) = (elems.take count).length := by
      rw [length_take_of_le (is ▸ countP_le_length)]
      omega
    simpa using countP_eq_length.mp all
  cases elems with
  | nil => cases member
  | cons head rest =>
  have zero : head.tag = Tag.invalid := front head (by
    obtain ⟨before, rfl⟩ := Nat.exists_eq_succ_of_ne_zero some
    exact mem_cons_self)
  have least : head.tag.toInt32 ≤ left.tag.toInt32 := by
    rcases mem_cons.mp member with rfl | behind
    · exact Int32.le_refl _
    · exact tag_le_of_compare ((pairwise_cons.mp sorted).1 left behind)
  rw [zero] at least
  exact negative least

theorem removable_of_deduplicate (first : set.Sorts qsort set.elems)
    (again : (set.sort qsort).Sorts qsort ((set.sort qsort).markDuplicates (set.sort qsort).elems))
    (valid : ∀ elem ∈ (set.deduplicate qsort).elems, elem.tag ≠ Tag.invalid)
    (distinct : (set.deduplicate qsort).Distinct (set.deduplicate qsort).elems) : set.Removable set.elems := by
  unfold deduplicate at valid distinct
  dsimp only at valid distinct
  split at valid
  case isTrue none =>
    rw [if_pos none] at distinct
    have removable : set.Removable (set.sort qsort).elems := .inr ⟨valid, distinct⟩
    exact removable.perm first.1.symm
  case isFalse some =>
  left
  intro elem member
  by_contra negative
  obtain ⟨param, stays, same⟩ := kept_equal (first.1.mem_iff.mpr member) fun zero => negative (zero ▸ by decide)
  have count := again.1.countP_eq (·.tag == Tag.invalid)
  obtain ⟨invalid, behind, zero⟩ := invalid_left again.2 (again.1.mem_iff.mpr (mem_filter.mp stays).1)
    (tag_eq_of_compare same ▸ negative) fun none => some (count.symm.trans none)
  exact valid invalid (by rwa [invalidCount, count] at behind) zero

/-- Of two flags with one tag `keymaster_param_compare` does not see the values. -/
def FlagsAgree (elems : List SetParam) : Prop :=
  ∀ left ∈ elems, ∀ right ∈ elems, left.tag = right.tag → left.tag.type = .bool → left.boolean = right.boolean

/-- `Deduplicate` keeps one copy of everything that is valid just if no tag is
negative or nothing is to be taken out, and flags agree. -/
theorem deduplicate_keeps_one_iff (first : set.Sorts qsort set.elems)
    (again : (set.sort qsort).Sorts qsort ((set.sort qsort).markDuplicates (set.sort qsort).elems)) :
    let result := set.deduplicate qsort
    ((∀ elem ∈ result.elems, elem.tag ≠ Tag.invalid) ∧ result.Distinct result.elems ∧
      ∀ entry, entry ∈ result.view ↔ entry ∈ set.view ∧ entry.1 ≠ Tag.invalid) ↔
      set.Removable set.elems ∧ FlagsAgree set.elems := by
  intro result
  constructor
  · rintro ⟨valid, distinct, views⟩
    refine ⟨removable_of_deduplicate first again valid distinct, ?_⟩
    intro left inside right also tags flag
    have copy {param : SetParam} (member : param ∈ set.elems) (flag : param.tag.type = .bool) :
        ∃ elem ∈ result.elems, elem.tag = param.tag ∧ elem.boolean = param.boolean := by
      have here := (views (param.tag, value set.blobData param)).mpr
        ⟨mem_map.mpr ⟨param, member, rfl⟩, fun zero : param.tag = _ => by rw [zero] at flag; cases flag⟩
      obtain ⟨elem, found, same⟩ := mem_map.mp here
      obtain ⟨tag, values⟩ := Prod.ext_iff.mp same
      dsimp only at tag values
      simp only [value, tag, flag] at values
      exact ⟨elem, found, tag, Value.flag.inj values⟩
    obtain ⟨one, found, oneTag, oneValue⟩ := copy inside flag
    obtain ⟨other, seen, otherTag, otherValue⟩ := copy also (tags ▸ flag)
    have same : one = other := by
      by_contra differ
      refine distinct.forall found seen differ (compareParams_eq_iff.mpr ?_)
      exact ⟨by rw [oneTag, otherTag, tags], fun no => absurd flag (oneTag ▸ no)⟩
    rw [← oneValue, ← otherValue, same]
  rintro ⟨removable, flags⟩
  obtain ⟨bytes, moved, distinct⟩ := deduplicate_kept rfl first.2 again (removable.perm first.1)
  have data : (set.deduplicate qsort).blobData = set.blobData := by
    unfold blobData
    rw [bytes]
    rfl
  have order : (set.deduplicate qsort).compareParams = set.compareParams := by
    unfold compareParams
    rw [data]
  have inside : ∀ elem ∈ (set.deduplicate qsort).elems, elem ∈ set.elems ∧ elem.tag ≠ Tag.invalid := fun elem member =>
    have stays := moved.mem_iff.mp member
    ⟨first.1.subset ((kept_sublist _ _).subset stays), by simpa using (mem_filter.mp stays).2⟩
  refine ⟨fun elem member => (inside elem member).2, ?_, fun entry => ?_⟩
  · rw [Distinct, order]
    exact (distinct_perm moved).mpr distinct
  unfold view
  rw [data, mem_map, mem_map]
  constructor
  · rintro ⟨elem, member, rfl⟩
    exact ⟨⟨elem, (inside elem member).1, rfl⟩, (inside elem member).2⟩
  · rintro ⟨⟨elem, member, rfl⟩, valid⟩
    obtain ⟨param, stays, same⟩ := kept_equal (first.1.mem_iff.mpr member) valid
    have found := moved.mem_iff.mpr stays
    obtain ⟨tags, values⟩ := compareParams_eq_iff.mp same
    refine ⟨param, found, Prod.ext tags.symm ?_⟩
    by_cases flag : elem.tag.type = .bool
    · have := flags elem member param (inside param found).1 tags flag
      simp only [value, flag, ← tags, this]
    · exact (values flag).symm

def insertionSort : QSort := fun order elems => elems.insertionSort (order · · ≠ .gt)

/-- One purpose twice, behind a parameter with another tag. -/
def doubled (tag : Tag) : AuthSet :=
  { fourBytesSet with
    elems := [⟨tag, 1, ⟨0, 4⟩⟩, ⟨Tag.purpose, 2, ⟨0, 0⟩⟩, ⟨Tag.purpose, 2, ⟨0, 0⟩⟩]
    elemsCapacity := 3
    elemsAllocated := 3
    indirectCapacity := 4 }

theorem doubled_purpose_once : let set := doubled Tag.algorithm
    set.Removable set.elems ∧ ∀ entry, entry ∈ (set.deduplicate insertionSort).view ↔
      entry ∈ set.view ∧ entry.1 ≠ Tag.invalid := by
  have removable : Removable (doubled Tag.algorithm) (doubled Tag.algorithm).elems := .inl (by decide)
  exact ⟨removable, ((deduplicate_keeps_one_iff ⟨perm_insertionSort _ _, by decide +kernel⟩
    ⟨perm_insertionSort _ _, by decide +kernel⟩).mpr ⟨removable, by unfold FlagsAgree; decide⟩).2.2⟩

/-- The application id is taken out instead of the purpose that is marked. -/
theorem application_id_lost : let set := doubled Tag.applicationId
    (set.sort insertionSort).elems = set.elems ∧
      (Tag.applicationId, .blob [1, 2, 3, 4]) ∈ set.view ∧
      (set.deduplicate insertionSort).view =
        [(Tag.invalid, .nothing), (Tag.purpose, .number 2)] := by
  decide +kernel

end Trusty.Keymaster.AuthSet
