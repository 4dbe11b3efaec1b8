import Trusty.UserSpace.Mmu

/-!
# User threads

The address space of a user thread: `uthread.c` with the page table loops of
`arch/arm/uthread.c`. A call runs under the lock of the thread (`grantPages` of both
threads), so it is one function.
-/

namespace Trusty.UserSpace

def UthreadMap.limit (mp : UthreadMap) : Word := mp.vaddr + mp.size

def UthreadMap.isNs (mp : UthreadMap) : Bool := hasFlag mp.flags utmNsMem

/-- The loop of `uthread_find_va_space_ns`, over the list from its tail. `none` is an early
`return NULL`. -/
def findVaSpaceNsLoop (nsVaBottom size align : Word) : Word → List UthreadMap → Option Word
  | start, [] => some start
  | start, mp :: prev =>
    if start ≥ mp.limit then
      if start ≥ nsVaBottom then some start
      else if Align.down start utMapAlign1MB < mp.limit then none
      else some start
    else if !mp.isNs then none
    else
      let below := Align.down (mp.vaddr - size) align
      findVaSpaceNsLoop nsVaBottom size align (if start < below then start else below) prev

variable (ut : Uthread)

def uthreadFindVaSpaceNs (size align : Word) : Word :=
  match findVaSpaceNsLoop ut.nsVaBottom size align (Align.down (maxUsrVa - size) align)
      ut.mapList.reverse with
  | none => 0
  | some start =>
    let limit := start + size
    if start < ut.startStack ∨ start > limit then 0 else start

def findVaSpaceSecLoop (size align : Word) : Word → List UthreadMap → Word
  | start, [] => start
  | start, mp :: rest =>
    if start + size ≤ mp.vaddr then start
    else
      let above := Align.up mp.limit align
      findVaSpaceSecLoop size align (if start > above then start else above) rest

def uthreadFindVaSpaceSec (size align : Word) : Word :=
  let start := findVaSpaceSecLoop size align (Align.up ut.startStack align) ut.mapList
  let limit := start + size
  if limit > ut.nsVaBottom ∨ start > limit then 0 else start

def uthreadFindVaSpace (size flags align : Word) : Word :=
  if hasFlag flags utmNsMem then uthreadFindVaSpaceNs ut size align
  else uthreadFindVaSpaceSec ut size align

/-- The insertion loop of `uthread_map_alloc`. `none` is an overlap. -/
def insertMap (mp : UthreadMap) : List UthreadMap → Option (List UthreadMap)
  | [] => some [mp]
  | item :: rest =>
    if item.vaddr > mp.vaddr then
      if mp.limit > item.vaddr then none else some (mp :: item :: rest)
    else if mp.vaddr < item.limit then none
    else (insertMap mp rest).map (item :: ·)

def movedBottom (mp : UthreadMap) : Word :=
  if mp.isNs ∧ mp.vaddr < ut.nsVaBottom then Align.down mp.vaddr utMapAlign1MB
  else ut.nsVaBottom

def uthreadMapAlloc (memory : Memory) (ut : Uthread) (vaddr : Word) (pfnList : List Word)
    (size flags align : Word) : Except Status (UthreadMap × Uthread) :=
  if vaddr + size ≤ vaddr then .error .errInvalidArgs
  else if !memory .map then .error .errNoMemory
  else
    let npages := if hasFlag flags utmPhysContig then 1 else (size / pageSize).toNat
    let mp : UthreadMap := ⟨vaddr, size, flags, align, pfnList.take npages⟩
    match insertMap mp ut.mapList with
    | none => .error .errInvalidArgs
    | some mapList => .ok (mp, { ut with mapList, nsVaBottom := movedBottom ut mp })

structure MapNode where
  before : List UthreadMap
  mp : UthreadMap
  after : List UthreadMap
  deriving DecidableEq, Repr

def UthreadMap.covers (mp : UthreadMap) (vaddr size : Word) : Bool :=
  mp.vaddr ≤ vaddr && vaddr < mp.limit && mp.limit ≥ vaddr + size

def findNode (vaddr size : Word) : List UthreadMap → Option MapNode
  | [] => none
  | mp :: rest =>
    if mp.covers vaddr size then some ⟨[], mp, rest⟩
    else (findNode vaddr size rest).map fun node => { node with before := mp :: node.before }

def uthreadMapFind (vaddr size : Word) : Option MapNode :=
  if vaddr + size < vaddr then none else findNode vaddr size ut.mapList

/-- `ns_va_bottom` once the record is gone. -/
def MapNode.bottom (node : MapNode) (nsVaBottom : Word) : Word :=
  if node.mp.isNs then
    if node.before.getLast?.any UthreadMap.isNs then nsVaBottom
    else
      match node.after.head? with
      | some item => Align.down item.vaddr utMapAlign1MB
      | none => maxUsrVa
  else nsVaBottom

def uthreadMapRemove (node : MapNode) : Uthread :=
  { ut with mapList := node.before ++ node.after, nsVaBottom := node.bottom ut.nsVaBottom }

def pageAddress (vaddr : Word) (page : Nat) : Word := vaddr + .ofNat 32 page * pageSize

/-- Both undo loops: the pages before `page` are taken out again. -/
def undoPages (ut : Uthread) (vaddr : Word) : Nat → Uthread
  | 0 => ut
  | page + 1 => undoPages (armUthreadMmuUnmap ut (pageAddress vaddr page)).2 vaddr page

def l1FlagsOf (flags : Word) : Word :=
  if hasFlag flags utmNsMem then mmuMemoryL1PagetableNonSecure else 0

def l2AccessOf (flags : Word) : Word :=
  if hasFlag flags utmW then mmuMemoryL2ApPRwURw else mmuMemoryL2ApPRoURo

/-- The loop of `arch_uthread_map`, from page `pg` with `left` pages to go. -/
def archUthreadMapLoop (memory : Memory) (mp : UthreadMap) (l1Flags l2Flags : Word) :
    Uthread → (pg left : Nat) → Option (Status × Uthread)
  | ut, _, 0 => some (.noError, ut)
  | ut, pg, left + 1 =>
    let paddr :=
      if hasFlag mp.flags utmPhysContig then pageAddress (mp.pfnList.getD 0 0) pg
      else mp.pfnList.getD pg 0
    if paddr &&& pageMask ≠ 0 then some (.errInvalidArgs, undoPages ut mp.vaddr pg)
    else
      match armUthreadMmuMap memory ut paddr (pageAddress mp.vaddr pg) l1Flags l2Flags with
      | none => none
      | some (.noError, ut) => archUthreadMapLoop memory mp l1Flags l2Flags ut (pg + 1) left
      | some (err, ut) => some (err, undoPages ut mp.vaddr pg)

def UthreadMap.pages (mp : UthreadMap) : Nat := (mp.size / pageSize).toNat

def archUthreadMap (memory : Memory) (ut : Uthread) (mp : UthreadMap) :
    Option (Status × Uthread) :=
  if mp.size > maxUsrVa ∨ mp.vaddr > maxUsrVa - mp.size then some (.errInvalidArgs, ut)
  else
    let l2Flags :=
      if hasFlag mp.flags utmIo then l2AccessOf mp.flags ||| mmuMemoryL2TypeStronglyOrdered
      else
        l2AccessOf mp.flags ||| mmuMemoryL2Shareable |||
          mmuMemorySetL2Inner mmuMemoryWriteBackAllocate |||
          (mmuMemorySetL2CacheableMem ||| mmuMemorySetL2Outer mmuMemoryWriteBackAllocate)
    archUthreadMapLoop memory mp (l1FlagsOf mp.flags) l2Flags ut 0 mp.pages

/-- The loop of `arch_uthread_unmap`. -/
def archUthreadUnmapLoop (vaddr : Word) : Uthread → (pg left : Nat) → Status × Uthread
  | ut, _, 0 => (.noError, ut)
  | ut, pg, left + 1 =>
    match armUthreadMmuUnmap ut (pageAddress vaddr pg) with
    | (.noError, ut) => archUthreadUnmapLoop vaddr ut (pg + 1) left
    | (err, ut) => (err, ut)

def archUthreadUnmap (mp : UthreadMap) : Status × Uthread :=
  archUthreadUnmapLoop mp.vaddr ut 0 mp.pages

/-- A result of a call: its status, the thread and the address that the call returns. -/
structure MapResult where
  status : Status
  ut : Uthread
  vaddr : Word

/-- `vaddrp` is the address at `*vaddrp` before the call. -/
def uthreadMap (memory : Memory) (ut : Uthread) (vaddrp : Word) (pfnList : List Word)
    (size flags align : Word) : Option MapResult :=
  if size &&& pageMask ≠ 0 then some ⟨.errNotValid, ut, vaddrp⟩
  else
    let vaddr :=
      if hasFlag flags utmFixed then vaddrp else uthreadFindVaSpace ut size flags align
    if !hasFlag flags utmFixed ∧ vaddr = 0 then some ⟨.errNoMemory, ut, vaddr⟩
    else
      match uthreadMapAlloc memory ut vaddr pfnList size flags align with
      | .error err => some ⟨err, ut, vaddr⟩
      -- The record stays in the list when its pages cannot be mapped.
      | .ok (mp, ut) =>
        (archUthreadMap memory ut mp).map fun result => ⟨result.1, result.2, vaddr⟩

def uthreadUnmap (vaddr size : Word) : Status × Uthread :=
  if vaddr = 0 then (.errInvalidArgs, ut)
  else
    match uthreadMapFind ut vaddr size with
    | none => (.errNotFound, ut)
    | some node =>
      match archUthreadUnmap ut node.mp with
      | (.noError, ut) => (.noError, uthreadMapRemove ut node)
      | (err, ut) => (err, ut)

inductive PageSource where
  /-- The current thread, with the `PAR` register that the hardware answers for a user
  read or, if the flag is set, a user write of an address. -/
  | secure (ut : Uthread) (par : (write : Bool) → Word → BitVec 64)
  | nonSecure (nsPteList : Option (Nat → BitVec 64))

structure PageAttributes where
  inner : Word
  outer : Word
  shareable : Word
  deriving DecidableEq, Repr

def mairToCb (mair : BitVec 64) : Word :=
  [0x4, 0x2, 0x2, 0x2, 0x0, 0x1, 0x3, 0x1, 0x2, 0x2, 0x2, 0x2, 0x3, 0x1, 0x3, 0x1].getD
    mair.toNat 0

/-- `(value >> shift) & mask` as a `u_int`. -/
def field (value : BitVec 64) (shift mask : Nat) : BitVec 64 := (value >>> shift) &&& .ofNat 64 mask

def decodePar (par : BitVec 64) : BitVec 64 × PageAttributes :=
  if par &&& (1 <<< 11) ≠ 0 then
    (par &&& 0xFFFFFF000,
      ⟨(field par 56 0xF).setWidth 32, (field par 60 0xF).setWidth 32,
        (field par 7 0x3).setWidth 32⟩)
  else
    -- The outer attribute is read at its place in the long format.
    (if par &&& (1 <<< 1) ≠ 0 then (par &&& 0xFF000000) ||| ((par &&& 0x00FF0000) <<< 16)
      else par &&& ~~~0xFFF,
      ⟨(field par 4 0x7).setWidth 32, (field par 60 0xF).setWidth 32,
        (field par 7 0x1).setWidth 32⟩)

def decodePte (pte : BitVec 64) (flags : Word) : Except Status (BitVec 64 × PageAttributes) :=
  let mair := field pte 48 0xFF
  let outer := mairToCb (field mair 4 0xF)
  let inner := mairToCb (field mair 0 0xF)
  if hasFlag flags utmW ∧ field pte 6 0x3 ≠ 1 then .error .errNotValid
  else if outer &&& 4 ≠ 0 then .error .errNotValid
  else if inner &&& 4 ≠ 0 then .error .errNotValid
  else .ok (pte &&& 0xFFFFFFFFF000, ⟨inner, outer, (field pte 8 0x3).setWidth 32⟩)

def PageSource.lookup (source : PageSource) (flags vs : Word) (pg : Nat) :
    Except Status (BitVec 64 × PageAttributes) :=
  match source with
  | .secure _ par =>
    let answer := par (hasFlag flags utmW) vs
    if answer &&& 1 ≠ 0 then .error .errNotValid else .ok (decodePar answer)
  | .nonSecure nsPteList => decodePte (nsPteList.getD (fun _ => 0) pg) flags

def l2FlagsOf (flags : Word) (attributes : PageAttributes) : Word :=
  l2AccessOf flags ||| (if attributes.shareable ≠ 0 then mmuMemoryL2Shareable else 0) |||
    mmuMemorySetL2Inner attributes.inner |||
    (mmuMemorySetL2CacheableMem ||| mmuMemorySetL2Outer attributes.outer)

/-- What the loop of `arch_uthread_translate_map` takes for page `pg`, before it maps
it: its address and attributes, which must be those of the first page. -/
def PageSource.translate (source : PageSource) (flags vaddrSrc : Word)
    (first : Option PageAttributes) (pg : Nat) : Except Status (Word × PageAttributes) :=
  match source.lookup flags (pageAddress vaddrSrc pg) pg with
  | .error err => .error err
  | .ok (physaddr, attributes) =>
    if physaddr >>> 32 ≠ 0 then .error .errNotSupported
    else if first.any (· ≠ attributes) then .error .errNotValid
    else .ok (physaddr.setWidth 32, attributes)

structure TranslateResult where
  status : Status
  ut : Uthread
  pfnList : List Word

def translateMapLoop (memory : Memory) (source : PageSource) (vaddrSrc vaddrTarget flags : Word) :
    Option PageAttributes → List Word → Uthread → (pg left : Nat) → Option TranslateResult
  | _, pfnList, ut, _, 0 => some ⟨.noError, ut, pfnList⟩
  | first, pfnList, ut, pg, left + 1 =>
    match source.translate flags vaddrSrc first pg with
    | .error err => some ⟨err, undoPages ut vaddrTarget pg, pfnList⟩
    | .ok (paddr, attributes) =>
      match armUthreadMmuMap memory ut paddr (pageAddress vaddrTarget pg) (l1FlagsOf flags)
          (l2FlagsOf flags attributes) with
      | none => none
      | some (.noError, ut) =>
        translateMapLoop memory source vaddrSrc vaddrTarget flags (some attributes)
          (pfnList ++ [paddr]) ut (pg + 1) left
      | some (err, ut) => some ⟨err, undoPages ut vaddrTarget pg, pfnList ++ [paddr]⟩

def archUthreadTranslateMap (memory : Memory) (source : PageSource) (ut : Uthread)
    (vaddrSrc vaddrTarget : Word) (npages : Nat) (flags : Word) : Option TranslateResult :=
  translateMapLoop memory source vaddrSrc vaddrTarget flags none [] ut 0 npages

def PageSource.admit (source : PageSource) (vaddrSrc size flags : Word) :
    Except Status (Word × Word) :=
  match source with
  | .nonSecure none => .error .errInvalidArgs
  | .nonSecure (some _) => .ok (flags ||| utmNsMem, utMapAlign4KB)
  | .secure ut _ =>
    match uthreadMapFind ut vaddrSrc size with
    | none => .error .errInvalidArgs
    | some node => .ok (if node.mp.isNs then flags ||| utmNsMem else flags, node.mp.align)

def contigFlags (flags : Word) (npages : Nat) : Word :=
  if npages = 1 then flags ||| utmPhysContig else flags

/-- `vaddrTarget` is the value at `*vaddr_target` before the call. -/
def uthreadGrantPages (memory : Memory) (source : PageSource) (target : Uthread)
    (vaddrSrc size flags vaddrTarget : Word) : Option MapResult :=
  if size = 0 then some ⟨.noError, target, 0⟩
  else
    let offset := vaddrSrc &&& pageMask
    let vaddrSrc := Align.down vaddrSrc pageSize
    match source.admit vaddrSrc size flags with
    | .error err => some ⟨err, target, vaddrTarget⟩
    | .ok (flags, align) =>
      let size := Align.up (size + offset) pageSize
      let npages := (size / pageSize).toNat
      let flags := contigFlags flags npages
      let vaddrTarget := uthreadFindVaSpace target size flags align
      if vaddrTarget = 0 then some ⟨.errNoMemory, target, vaddrTarget⟩
      else if !memory .pfnList then some ⟨.errNoMemory, target, vaddrTarget⟩
      else
        match archUthreadTranslateMap memory source target vaddrSrc vaddrTarget npages flags with
        | none => none
        | some ⟨.noError, target, pfnList⟩ =>
          match uthreadMapAlloc memory target vaddrTarget pfnList size flags align with
          | .ok (_, target) => some ⟨.noError, target, vaddrTarget + offset⟩
          | .error err => some ⟨err, target, vaddrTarget + offset⟩
        | some ⟨err, target, _⟩ => some ⟨err, target, vaddrTarget⟩

def uthreadRevokePages (vaddr size : Word) : Status × Uthread :=
  if size = 0 then (.noError, ut)
  else
    let offset := vaddr &&& pageMask
    uthreadUnmap ut (Align.down vaddr pageSize) (Align.up (size + offset) pageSize)

end Trusty.UserSpace
