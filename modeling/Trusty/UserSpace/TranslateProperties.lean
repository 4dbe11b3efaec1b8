import Trusty.UserSpace.MmuProperties

/-!
# Translating and mapping pages

How `arch_uthread_translate_map` can end.
-/

namespace Trusty.UserSpace

open BitVec PageSource

variable {memory : Memory} {source : PageSource} {target : Uthread} {flags vaddrSrc vaddrTarget : Word}
  {first : Option PageAttributes} {pfnList : List Word} {pg left page : Nat}

theorem hasFlag_or (flags added flag : Word) :
    hasFlag (flags ||| added) flag = (hasFlag flags flag || hasFlag added flag) := by
  have split : (flags ||| added) &&& flag = (flags &&& flag) ||| (added &&& flag) := by
    ext i
    simp only [getElem_and, getElem_or, Bool.and_or_distrib_right]
  have zero : (flags ||| added) &&& flag = 0 ↔ flags &&& flag = 0 ∧ added &&& flag = 0 := by
    rw [split]
    exact or_eq_zero_iff
  unfold hasFlag
  rw [Bool.eq_iff_iff]
  simp only [bne_iff_ne, ne_eq, Bool.or_eq_true, zero]
  tauto

theorem PageSource.lookup_error {status : Status}
    (error : source.lookup flags vaddrSrc page = .error status) : status ≠ .noError := by
  unfold PageSource.lookup decodePte at error
  cases source with
  | secure ut par =>
    dsimp only at error
    split at error
    · cases error
      nofun
    · nomatch error
  | nonSecure nsPteList =>
  dsimp only at error
  split at error
  · cases error
    nofun
  split at error
  · cases error
    nofun
  split at error
  · cases error
    nofun
  · nomatch error

theorem PageSource.translate_error {status : Status}
    (error : source.translate flags vaddrSrc first page = .error status) : status ≠ .noError := by
  unfold PageSource.translate at error
  cases looked : source.lookup flags (pageAddress vaddrSrc page) page with
  | error status =>
    rw [looked] at error
    cases error
    exact lookup_error looked
  | ok found =>
  rw [looked] at error
  dsimp only at error
  split at error
  · cases error
    nofun
  split at error
  · cases error
    nofun
  · nomatch error

theorem PageSource.translate_none {found : Word × PageAttributes}
    (translated : source.translate flags vaddrSrc first page = .ok found) :
    source.translate flags vaddrSrc none page = .ok found := by
  unfold PageSource.translate at *
  cases looked : source.lookup flags (pageAddress vaddrSrc page) page with
  | error status =>
    rw [looked] at translated
    nomatch translated
  | ok lookedUp =>
  rw [looked] at translated
  dsimp only at translated ⊢
  split at translated
  · nomatch translated
  split at translated
  · nomatch translated
  · rename_i small same
    rw [if_neg small]
    exact translated

def PageSource.value (source : PageSource) (flags vaddrSrc : Word) (page : Nat) : Word :=
  match source.translate flags vaddrSrc none page with
  | .ok (paddr, attributes) => pageDescriptor paddr (l2FlagsOf flags attributes)
  | .error _ => 1

theorem PageSource.value_ne_zero (page : Nat) : source.value flags vaddrSrc page ≠ 0 := by
  unfold PageSource.value
  split
  · exact pageDescriptor_ne_zero _ _
  · decide

abbrev granted (source : PageSource) (target : Uthread) (flags vaddrSrc vaddrTarget : Word)
    (pages : Nat) : Uthread :=
  mapPages target vaddrTarget (l1FlagsOf flags) (source.value flags vaddrSrc) pages

def SeenFirst (source : PageSource) (flags vaddrSrc : Word) (first : Option PageAttributes) :
    Prop :=
  ∀ attributes, first = some attributes →
    ∃ page paddr, source.translate flags vaddrSrc none page = .ok (paddr, attributes)

/-- The page can be translated, and the tables for it are there or can be allocated. -/
structure Passes (memory : Memory) (source : PageSource) (target : Uthread)
    (flags vaddrSrc vaddrTarget : Word) (page : Nat) : Prop where
  translated : ∃ found, source.translate flags vaddrSrc none page = .ok found
  supplied : (granted source target flags vaddrSrc vaddrTarget page).Supplied memory (pageAddress vaddrTarget page)

/-- The ends of the loop over `npages` pages. -/
inductive Translation (memory : Memory) (source : PageSource) (target : Uthread)
    (flags vaddrSrc vaddrTarget : Word) (npages : Nat) : Option TranslateResult → Prop where
  | assertion {stop : Nat} (below : stop < npages)
      (passed : ∀ page, page < stop + 1 → Passes memory source target flags vaddrSrc vaddrTarget page)
      (occupied : ¬Clear target vaddrTarget (stop + 1)) :
      Translation memory source target flags vaddrSrc vaddrTarget npages none
  | complete {pfnList : List Word}
      (passed : ∀ page, page < npages → Passes memory source target flags vaddrSrc vaddrTarget page)
      (clear : Clear target vaddrTarget npages) :
      Translation memory source target flags vaddrSrc vaddrTarget npages
        (some ⟨.noError, granted source target flags vaddrSrc vaddrTarget npages, pfnList⟩)
  | refused {stop : Nat} {first : Option PageAttributes} {status : Status} {pfnList : List Word}
      (below : stop < npages)
      (passed : ∀ page, page < stop → Passes memory source target flags vaddrSrc vaddrTarget page)
      (clear : Clear target vaddrTarget stop) (seen : SeenFirst source flags vaddrSrc first)
      (error : source.translate flags vaddrSrc first stop = .error status) :
      Translation memory source target flags vaddrSrc vaddrTarget npages
        (some ⟨status,
          undoPages (granted source target flags vaddrSrc vaddrTarget stop) vaddrTarget stop,
          pfnList⟩)
  | short {stop : Nat} {pfnList : List Word} (below : stop < npages)
      (passed : ∀ page, page < stop → Passes memory source target flags vaddrSrc vaddrTarget page)
      (clear : Clear target vaddrTarget stop)
      (translated : ∃ found, source.translate flags vaddrSrc none stop = .ok found)
      (short : ¬(granted source target flags vaddrSrc vaddrTarget stop).Supplied memory
        (pageAddress vaddrTarget stop)) :
      Translation memory source target flags vaddrSrc vaddrTarget npages
        (some ⟨.errNoMemory,
          undoPages ((granted source target flags vaddrSrc vaddrTarget stop).tabled memory) vaddrTarget stop,
          pfnList⟩)

theorem translateMapLoop_ends {npages : Nat} (rest : pg + left = npages)
    (passed : ∀ page, page < pg → Passes memory source target flags vaddrSrc vaddrTarget page)
    (clear : Clear target vaddrTarget pg) (seen : SeenFirst source flags vaddrSrc first) :
    Translation memory source target flags vaddrSrc vaddrTarget npages
      (translateMapLoop memory source vaddrSrc vaddrTarget flags first pfnList
        (granted source target flags vaddrSrc vaddrTarget pg) pg left) := by
  induction left generalizing pg first pfnList with
  | zero =>
    cases rest
    exact .complete passed clear
  | succ left ih =>
  unfold translateMapLoop
  cases translated : source.translate flags vaddrSrc first pg with
  | error status => exact .refused (by omega) passed clear seen translated
  | ok found =>
  obtain ⟨paddr, attributes⟩ := found
  have plain := translate_none translated
  have value : source.value flags vaddrSrc pg = pageDescriptor paddr (l2FlagsOf flags attributes) := by
    unfold PageSource.value
    rw [plain]
  dsimp only
  by_cases supplied : (granted source target flags vaddrSrc vaddrTarget pg).Supplied memory
      (pageAddress vaddrTarget pg)
  case neg =>
    rw [armUthreadMmuMap_short supplied]
    exact .short (by omega) passed clear ⟨_, plain⟩ supplied
  have more : ∀ page, page < pg + 1 → Passes memory source target flags vaddrSrc vaddrTarget page := by
    intro page below
    rcases lt_or_eq_of_le (Nat.le_of_lt_succ below) with earlier | rfl
    · exact passed page earlier
    · exact ⟨⟨_, plain⟩, supplied⟩
  rw [armUthreadMmuMap_supplied supplied]
  by_cases free : (granted source target flags vaddrSrc vaddrTarget pg).descriptor (pageAddress vaddrTarget pg) = 0
  · rw [if_neg (not_not.mpr free), ← value]
    refine ih (by omega) more (clear.next value_ne_zero free) ?_
    intro same is
    cases is
    exact ⟨pg, paddr, plain⟩
  · rw [if_pos free]
    exact .assertion (by omega) more fun clear => free (mapPages_next clear)

theorem archUthreadTranslateMap_ends {npages : Nat} :
    Translation memory source target flags vaddrSrc vaddrTarget npages
      (archUthreadTranslateMap memory source target vaddrSrc vaddrTarget npages flags) :=
  @translateMapLoop_ends memory source target flags vaddrSrc vaddrTarget none [] 0 npages npages (Nat.zero_add _)
    nofun ⟨Nat.zero_le _, nofun⟩ nofun

end Trusty.UserSpace
