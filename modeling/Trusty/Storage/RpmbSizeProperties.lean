import Trusty.Storage.Rpmb

/-!
# Searching the size of the replay protected memory

`rpmb_search_size` bisects the block addresses with a 32-bit lower and a 16-bit upper
bound. Here `rpmb_check` maps a block address to its return value.
-/

namespace Trusty.Storage

open UInt32

/-- The loop variables of `rpmb_search_size`. -/
structure SizeSearch where
  low : UInt32
  high : UInt16
  curr : UInt16
  hint : UInt16
  deriving DecidableEq, Repr

/-- How `rpmb_search_size` ends. -/
inductive SizeSearchEnd where
  | returned (size : UInt32)
  | assertFailed
  deriving DecidableEq, Repr

namespace SizeSearch

def start (hint : UInt16) : SizeSearch := ⟨0, ~~~0, hint - 1, hint⟩

/-- The `switch` over the return value of `rpmb_check`; `none` is its `return 0`. -/
def narrow (search : SizeSearch) (ret : Int) : Option SizeSearch :=
  if ret = 0 then some { search with low := search.curr.toUInt32 + 1 }
  else if ret = -enoent then some { search with high := search.curr - 1 }
  else none

def advance (search : SizeSearch) (ret : Int) : SizeSearch :=
  if ret ≠ 0 ∨ search.curr ≠ search.hint then
    let curr := (search.low + (search.high.toUInt32 - search.low) / 2).toUInt16
    { search with curr := curr, hint := curr }
  else { search with curr := search.curr + 1 }

end SizeSearch

/-- The loop of `rpmb_search_size`; `none` is a search that is still going on. -/
def rpmbSearchLoop (check : UInt16 → Int) : Nat → SizeSearch → Option SizeSearchEnd
  | 0, _ => none
  | fuel + 1, search =>
    if search.low ≤ search.high.toUInt32 then
      match search.narrow (check search.curr) with
      | some narrowed => rpmbSearchLoop check fuel (narrowed.advance (check search.curr))
      | none => some (.returned 0)
    else if search.high.toUInt32 + 1 = search.low then some (.returned search.low)
    else some .assertFailed

def rpmbSearchSize (check : UInt16 → Int) (hint : UInt16) (fuel : Nat) : Option SizeSearchEnd :=
  rpmbSearchLoop check fuel (.start hint)

/-- A device of `size` blocks, as `rpmb_check` sees it. -/
def ChecksSize (check : UInt16 → Int) (size : Nat) : Prop :=
  ∀ block : UInt16, check block = if block.toNat < size then 0 else -enoent

variable {check : UInt16 → Int} {size : Nat}

structure Brackets (size : Nat) (search : SizeSearch) : Prop where
  low_le : search.low.toNat ≤ size
  le_high : size ≤ search.high.toNat + 1
  inside : search.low.toNat ≤ search.high.toNat →
    search.low.toNat ≤ search.curr.toNat ∧ search.curr.toNat ≤ search.high.toNat

theorem brackets_start (bound : size ≤ 65536) (hint : UInt16) : Brackets size (.start hint) where
  low_le := Nat.zero_le size
  le_high := bound
  inside _ := ⟨Nat.zero_le _, Nat.le_of_lt_succ (hint - 1).toNat_lt⟩

private theorem middle_toNat {low : UInt32} {high : UInt16} (le : low.toNat ≤ high.toNat) :
    (low + (high.toUInt32 - low) / 2).toUInt16.toNat = low.toNat + (high.toNat - low.toNat) / 2 := by
  have highBound := high.toNat_lt
  have difference : (high.toUInt32 - low).toNat = high.toNat - low.toNat := by
    rw [UInt32.toNat_sub_of_le _ _ (UInt32.le_iff_toNat_le.mpr (by simpa using le))]
    simp
  simp
  omega

@[simp] theorem advance_low (search : SizeSearch) (ret : Int) : (search.advance ret).low = search.low := by
  simp only [SizeSearch.advance]
  split <;> rfl

@[simp] theorem advance_high (search : SizeSearch) (ret : Int) : (search.advance ret).high = search.high := by
  simp only [SizeSearch.advance]
  split <;> rfl

variable {search : SizeSearch}

theorem advance_inside {ret : Int} (hit : ret = 0 → search.low.toNat = search.curr.toNat + 1)
    (opened : search.low.toNat ≤ search.high.toNat) :
    search.low.toNat ≤ (search.advance ret).curr.toNat ∧ (search.advance ret).curr.toNat ≤ search.high.toNat := by
  simp only [SizeSearch.advance]
  split
  · simp only [middle_toNat opened]
    omega
  case isFalse stays =>
    have returned : ret = 0 := by
      by_contra failed
      exact stays (Or.inl failed)
    have highBound := search.high.toNat_lt
    have next : (search.curr + 1).toNat = search.curr.toNat + 1 := by
      simp
      omega
    simp only [next]
    omega

theorem brackets_turn (checks : ChecksSize check size) (positive : size ≠ 0)
    (brackets : Brackets size search) (opened : search.low.toNat ≤ search.high.toNat) :
    ∃ narrowed, search.narrow (check search.curr) = some narrowed ∧
      Brackets size (narrowed.advance (check search.curr)) ∧
      narrowed.high.toNat + 1 - narrowed.low.toNat < search.high.toNat + 1 - search.low.toNat := by
  obtain ⟨above, below⟩ := brackets.inside opened
  have currBound := search.curr.toNat_lt
  by_cases inDevice : search.curr.toNat < size
  · have answer : check search.curr = 0 := by rw [checks, if_pos inDevice]
    have low : (search.curr.toUInt32 + 1).toNat = search.curr.toNat + 1 := by
      simp
      omega
    refine ⟨{ search with low := search.curr.toUInt32 + 1 }, by rw [answer]; rfl, ?_, ?_⟩
    · refine ⟨?_, ?_, fun stillOpen => ?_⟩
      · rw [advance_low]
        exact low.le.trans inDevice
      · rw [advance_high]
        exact brackets.le_high
      · rw [advance_low, advance_high] at stillOpen ⊢
        exact advance_inside (fun _ => low) stillOpen
    · simp only [low]
      omega
  · have answer : check search.curr = -enoent := by rw [checks, if_neg inDevice]
    -- block 0 is in the device, so the upper bound does not wrap
    have high : (search.curr - 1).toNat = search.curr.toNat - 1 :=
      UInt16.toNat_sub_of_le _ _ (UInt16.le_iff_toNat_le.mpr (by simp; omega))
    refine ⟨{ search with high := search.curr - 1 }, by rw [answer]; rfl, ?_, ?_⟩
    · refine ⟨?_, ?_, fun stillOpen => ?_⟩
      · rw [advance_low]
        exact brackets.low_le
      · simp only [advance_high, high]
        omega
      rw [advance_low, advance_high] at stillOpen ⊢
      refine advance_inside (fun success => ?_) stillOpen
      rw [answer] at success
      nomatch success
    · simp only [high]
      omega

theorem search_closed (brackets : Brackets size search) (closed : search.high.toNat < search.low.toNat) (fuel : Nat) :
    rpmbSearchLoop check (fuel + 1) search = some (.returned (UInt32.ofNat size)) := by
  have lowLe := brackets.low_le
  have leHigh := brackets.le_high
  have lowSize : search.low.toNat = size := by omega
  have ended : ¬search.low ≤ search.high.toUInt32 := by
    rw [le_iff_toNat_le]
    simpa using closed
  have highBound := search.high.toNat_lt
  have asserted : search.high.toUInt32 + 1 = search.low := by
    apply UInt32.toNat_inj.mp
    rw [UInt32.toNat_add]
    simp
    omega
  rw [rpmbSearchLoop, if_neg ended, if_pos asserted, ← lowSize, UInt32.ofNat_toNat]

theorem search_finds (checks : ChecksSize check size) (positive : size ≠ 0) (width : Nat) :
    ∀ search : SizeSearch, Brackets size search → search.high.toNat + 1 - search.low.toNat ≤ width →
      rpmbSearchLoop check (width + 1) search = some (.returned (UInt32.ofNat size)) := by
  induction width with
  | zero =>
    intro search brackets closed
    exact search_closed brackets (by omega) 0
  | succ width ih =>
  intro search brackets narrower
  by_cases opened : search.low.toNat ≤ search.high.toNat
  · obtain ⟨narrowed, switched, kept, closer⟩ := brackets_turn checks positive brackets opened
    have turns : search.low ≤ search.high.toUInt32 := by
      rw [le_iff_toNat_le]
      simpa using opened
    rw [rpmbSearchLoop, if_pos turns, switched]
    refine ih _ kept ?_
    rw [advance_low, advance_high]
    omega
  · exact search_closed brackets (by omega) (width + 1)

theorem search_empty (checks : ChecksSize check 0) (fuel : Nat) :
    ∀ search : SizeSearch, search.low = 0 → rpmbSearchLoop check fuel search = none := by
  induction fuel with
  | zero =>
    intro search low
    rfl
  | succ fuel ih =>
  intro search low
  have answer : check search.curr = -enoent := checks search.curr
  have turns : search.low ≤ search.high.toUInt32 := by
    rw [low, le_iff_toNat_le]
    exact Nat.zero_le _
  have switched : search.narrow (-enoent) = some { search with high := search.curr - 1 } := rfl
  rw [rpmbSearchLoop, if_pos turns, answer, switched]
  exact ih _ (by rw [advance_low]; exact low)

/-- The search ends with its assertion true and returns the size of the device,
unless the device is empty. -/
theorem rpmb_search_size_returns_iff (size : Nat) (bound : size ≤ 65536) (check : UInt16 → Int)
    (checks : ChecksSize check size) (hint : UInt16) :
    (∃ fuel, rpmbSearchSize check hint fuel = some (.returned (UInt32.ofNat size))) ↔ size ≠ 0 := by
  constructor
  · rintro ⟨fuel, returned⟩ rfl
    rw [rpmbSearchSize, search_empty checks fuel _ rfl] at returned
    cases returned
  · intro positive
    exact ⟨_, search_finds checks positive _ _ (brackets_start bound hint) (le_refl _)⟩

/-- A device of all 65536 blocks is sized for the hint 0, whose first block to check wraps. -/
theorem rpmb_search_size_full_device : ∃ fuel, rpmbSearchSize (fun _ => 0) 0 fuel = some (.returned 65536) :=
  (rpmb_search_size_returns_iff 65536 (le_refl _) (fun _ => 0)
    (fun block => (if_pos block.toNat_lt).symm) 0).mpr (by decide)

/-- On a device without a block the search goes on for ever, whatever the hint. -/
theorem rpmb_search_size_empty_device : ChecksSize (fun _ => -enoent) 0 ∧
    ∀ hint fuel, rpmbSearchSize (fun _ => -enoent) hint fuel = none :=
  ⟨fun _ => rfl, fun _ fuel => search_empty (fun _ => rfl) fuel _ rfl⟩

end Trusty.Storage
