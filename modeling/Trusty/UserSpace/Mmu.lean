import Trusty.Lib.Align

/-!
# User page tables

The mappings of a user thread and its two level page table on ARM, from `uthread.h`
and `arch/arm/uthread_mmu.c`. A level 1 entry stands for 1 MB and holds the security
attribute, a level 2 entry for one page.
-/

namespace Trusty.UserSpace

/-- `vaddr_t`, `size_t`, `u_int` and, without LPAE, `paddr_t`. -/
abbrev Word := BitVec 32

inductive Status where
  | noError
  | errInvalidArgs
  | errNoMemory
  | errNotValid
  | errNotFound
  | errNotSupported
  deriving DecidableEq, Repr

def utmW : Word := 1 <<< 1
def utmPhysContig : Word := 1 <<< 5
def utmNsMem : Word := 1 <<< 6
def utmIo : Word := 1 <<< 7
def utmFixed : Word := 1 <<< 8

def utMapAlign4KB : Word := 4 * 1024
def utMapAlign1MB : Word := 1 * 1024 * 1024

def pageSize : Word := 4096
def pageMask : Word := pageSize - 1

def maxUsrVa : Word := 32 * (256 * pageSize)

def mmuMemoryL1PagetableNonSecure : Word := 1 <<< 3
def mmuMemoryL2ApPRwURw : Word := 3 <<< 4
def mmuMemoryL2ApPRoURo : Word := (1 <<< 9) ||| (3 <<< 4)
def mmuMemoryL2TypeStronglyOrdered : Word := 0
def mmuMemoryL2Shareable : Word := 1 <<< 10
def mmuMemoryL2NonGlobal : Word := 1 <<< 11
def mmuMemoryWriteBackAllocate : Word := 1
def mmuMemorySetL2CacheableMem : Word := 4 <<< 6
def mmuMemorySetL2Inner (value : Word) : Word := (value &&& 3) <<< 2
def mmuMemorySetL2Outer (value : Word) : Word := (value &&& 3) <<< 6

/-- A test `flags & flag`. -/
def hasFlag (flags flag : Word) : Bool := flags &&& flag != 0

structure UthreadMap where
  vaddr : Word
  size : Word
  flags : Word
  align : Word
  pfnList : List Word
  deriving DecidableEq, Repr

/-- An entry of the level 1 table: its attribute bits and the level 2 table whose
address it holds. -/
structure Level1Entry where
  bits : Word
  level2 : Nat → Word

abbrev PageTable := Nat → Option Level1Entry

structure Uthread where
  startStack : Word
  nsVaBottom : Word
  mapList : List UthreadMap
  pageTable : Option PageTable

inductive Allocation where
  | pfnList
  | map
  | level1
  | level2 (vaddr : Word)
  deriving DecidableEq, Repr

abbrev Memory := Allocation → Bool

def level1Index (vaddr : Word) : Nat := ((vaddr >>> 20) &&& 0x1f).toNat

def level2Index (vaddr : Word) : Nat := ((vaddr >>> 12) &&& 0xff).toNat

/-- `ut->page_table`, allocated when it is missing. -/
def level1Table (memory : Memory) (ut : Uthread) : Option PageTable :=
  match ut.pageTable with
  | some pageTable => some pageTable
  | none => if memory .level1 then some fun _ => none else none

/-- The level 1 entry of the address, with a fresh level 2 table when it is missing. The
security attribute is written here and nowhere else. -/
def level2Table (memory : Memory) (pageTable : PageTable) (vaddr l1Flags : Word) :
    Option Level1Entry :=
  match pageTable (level1Index vaddr) with
  | some entry => some entry
  | none => if memory (.level2 vaddr) then some ⟨l1Flags ||| 1, fun _ => 0⟩ else none

def installPage (pageTable : PageTable) (entry : Level1Entry) (vaddr descriptor : Word) :
    PageTable :=
  Function.update pageTable (level1Index vaddr)
    (some { entry with level2 := Function.update entry.level2 (level2Index vaddr) descriptor })

/-- `none` is a failed `ASSERT`. -/
def armUthreadMmuMap (memory : Memory) (ut : Uthread) (paddr vaddr l1Flags l2Flags : Word) :
    Option (Status × Uthread) :=
  match level1Table memory ut with
  | none => some (.errNoMemory, ut)
  | some pageTable =>
    match level2Table memory pageTable vaddr l1Flags with
    | none => some (.errNoMemory, { ut with pageTable := some pageTable })
    | some entry =>
      -- ASSERT(!level_2[idx])
      if entry.level2 (level2Index vaddr) ≠ 0 then none
      else
        let descriptor := paddr ||| (mmuMemoryL2NonGlobal ||| l2Flags ||| 2)
        some (.noError,
          { ut with pageTable := some (installPage pageTable entry vaddr descriptor) })

def armUthreadMmuUnmap (ut : Uthread) (vaddr : Word) : Status × Uthread :=
  match ut.pageTable with
  | none => (.errInvalidArgs, ut)
  | some pageTable =>
    match pageTable (level1Index vaddr) with
    | none => (.errInvalidArgs, ut)
    | some entry => (.noError, { ut with pageTable := some (installPage pageTable entry vaddr 0) })

end Trusty.UserSpace
