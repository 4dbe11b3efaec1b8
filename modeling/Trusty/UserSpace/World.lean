import Trusty.UserSpace.GrantProperties

/-!
# Worlds of a user thread

Runs of the mapping calls on one thread, and the security attribute of its pages. It
belongs to the level 1 entry, so to a whole section of 1 MB.
-/

namespace Trusty.UserSpace

def Level1Entry.isNs (entry : Level1Entry) : Bool :=
  hasFlag entry.bits mmuMemoryL1PagetableNonSecure

inductive Call where
  | map (memory : Memory) (vaddrp : Word) (pfnList : List Word) (size flags align : Word)
  | unmap (vaddr size : Word)
  | grant (memory : Memory) (source : PageSource) (vaddrSrc size flags : Word)
  | revoke (vaddr size : Word)

/-- The thread after the call; `none` is a failed `ASSERT`. -/
def Call.run (ut : Uthread) : Call → Option Uthread
  | .map memory vaddrp pfnList size flags align =>
    (uthreadMap memory ut vaddrp pfnList size flags align).map (·.ut)
  | .unmap vaddr size => some (uthreadUnmap ut vaddr size).2
  | .grant memory source vaddrSrc size flags =>
    (uthreadGrantPages memory source ut vaddrSrc size flags 0).map (·.ut)
  | .revoke vaddr size => some (uthreadRevokePages ut vaddr size).2

def Call.Permitted (ut : Uthread) : Call → Prop
  | .map _ _ _ _ flags _ => hasFlag flags utmFixed →
      hasFlag flags utmNsMem = false ∧ ∀ mp ∈ ut.mapList, mp.isNs = false
  | _ => True

def mapAddress (ut : Uthread) (vaddrp size flags align : Word) : Word :=
  if hasFlag flags utmFixed then vaddrp else uthreadFindVaSpace ut size flags align

/-- The record that the call inserts, for `grant` the one that it would insert after mapping
the pages, without its page numbers. -/
def Call.record (ut : Uthread) : Call → Option UthreadMap
  | .map memory vaddrp pfnList size flags align =>
    let vaddr := mapAddress ut vaddrp size flags align
    if size &&& pageMask ≠ 0 then none
    else if !hasFlag flags utmFixed ∧ vaddr = 0 then none
    else
      match uthreadMapAlloc memory ut vaddr pfnList size flags align with
      | .error _ => none
      | .ok (mp, _) => some mp
  | .grant _ source vaddrSrc size flags =>
    match source.admit (Align.down vaddrSrc pageSize) size flags with
    | .error _ => none
    | .ok (flags, align) =>
      let length := Align.up (size + (vaddrSrc &&& pageMask)) pageSize
      let flags := contigFlags flags (length / pageSize).toNat
      let vaddr := uthreadFindVaSpace ut length flags align
      if vaddr = 0 then none else some ⟨vaddr, length, flags, align, []⟩
  | _ => none

/-- A section that a new mapping needs and that holds no mapping any more has no entry left,
or one with the right attribute. -/
def Unused (ut : Uthread) (mp : UthreadMap) : Prop :=
  ∀ page, page < mp.pages →
    (∀ item ∈ ut.mapList, ∀ other, other < item.pages →
      level1Index (pageAddress item.vaddr other) ≠ level1Index (pageAddress mp.vaddr page)) →
    ∀ entry, ut.entry (pageAddress mp.vaddr page) = some entry → entry.isNs = mp.isNs

/-- The pages of a new mapping can be mapped: page tables can be allocated and the physical
addresses are those of pages. `grant` takes all pages out again when it cannot map one. -/
def Call.Mappable (mp : UthreadMap) : Call → Prop
  | .map memory _ _ _ _ _ =>
    memory .level1 = true ∧ (∀ vaddr, memory (.level2 vaddr) = true) ∧
      ∀ paddr ∈ mp.pfnList, paddr.toNat % 4096 = 0
  | _ => True

/-- The call makes its mapping completely, in the user range, and reuses no section of the
other world. -/
def Call.Clean (ut : Uthread) (call : Call) : Prop :=
  ∀ mp, call.record ut = some mp →
    call.Mappable mp ∧ mp.vaddr.toNat + mp.size.toNat ≤ maxUsrVa.toNat ∧ Unused ut mp

/-- The threads of all runs of permitted calls. If `clean` holds, every call is clean. -/
inductive Reached (clean : Prop) : Uthread → Prop where
  | created (startStack : Word) : Reached clean ⟨startStack, maxUsrVa, [], none⟩
  | called {ut next : Uthread} (call : Call) : Reached clean ut → call.Permitted ut →
      (clean → call.Clean ut) → call.run ut = some next → Reached clean next

/-- Each page of each mapping is reached with the attribute of the mapping, and no section
has pages of both worlds. -/
structure WorldsApart (ut : Uthread) : Prop where
  world : ∀ mp ∈ ut.mapList, ∀ page, page < mp.pages →
    ∃ entry, ut.entry (pageAddress mp.vaddr page) = some entry ∧ entry.isNs = mp.isNs
  sections : ∀ mp ∈ ut.mapList, ∀ other ∈ ut.mapList,
    ∀ page, page < mp.pages → ∀ otherPage, otherPage < other.pages →
    (pageAddress mp.vaddr page).toNat / 2 ^ 20 =
      (pageAddress other.vaddr otherPage).toNat / 2 ^ 20 → mp.isNs = other.isNs

end Trusty.UserSpace
