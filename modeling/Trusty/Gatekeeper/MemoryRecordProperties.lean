import Trusty.Gatekeeper.Gatekeeper

/-!
# The table of records in memory

What is read after a write, and whose record gives way to a new one.
-/

namespace Trusty.Gatekeeper

open List

structure Table (records : List FailureRecord) : Prop where
  unique : (records.map FailureRecord.secureUserId).Nodup
  room : records.length ≤ maxFailureRecords

theorem Table.empty : Table [] := ⟨.nil, Nat.zero_le _⟩

section Reading

variable {records : List FailureRecord} {userId : UInt64}

theorem Table.index_eq (table : Table records) {i j : Nat} (below : i < records.length) (belowToo : j < records.length)
    (same : records[i].secureUserId = records[j].secureUserId) : i = j := by
  have inside : i < (records.map FailureRecord.secureUserId).length := by simpa using below
  have insideToo : j < (records.map FailureRecord.secureUserId).length := by simpa using belowToo
  have equal : (records.map FailureRecord.secureUserId)[i] =
      (records.map FailureRecord.secureUserId)[j] := by simpa using same
  exact table.unique.getElem_inj_iff.mp equal

theorem getMemoryRecord_of_mem (table : Table records) {record : FailureRecord}
    (mem : record ∈ records) : getMemoryRecord records record.secureUserId = record := by
  unfold getMemoryRecord
  cases found : records.find? (·.secureUserId == record.secureUserId) with
  | none =>
    have none := find?_eq_none.mp found record mem
    simp at none
  | some other =>
  have same : other.secureUserId = record.secureUserId := by
    simpa using find?_some found
  obtain ⟨i, below, rfl⟩ := getElem_of_mem mem
  obtain ⟨j, belowToo, rfl⟩ := getElem_of_mem (mem_of_find?_eq_some found)
  have equal := table.index_eq belowToo below same
  subst equal
  rfl

theorem getMemoryRecord_of_not_mem (none : ∀ record ∈ records, record.secureUserId ≠ userId) :
    getMemoryRecord records userId = noFailures userId := by
  unfold getMemoryRecord
  rw [find?_eq_none.mpr fun record mem => by simpa using none record mem]
  rfl

theorem getMemoryRecord_cases (table : Table records) (userId : UInt64) :
    (∃ record ∈ records, record.secureUserId = userId ∧ getMemoryRecord records userId = record) ∨
      ((∀ record ∈ records, record.secureUserId ≠ userId) ∧ getMemoryRecord records userId = noFailures userId) := by
  by_cases known : ∃ record ∈ records, record.secureUserId = userId
  · obtain ⟨record, mem, rfl⟩ := known
    exact .inl ⟨record, mem, rfl, getMemoryRecord_of_mem table mem⟩
  · have none : ∀ record ∈ records, record.secureUserId ≠ userId := fun record mem same => known ⟨record, mem, same⟩
    exact .inr ⟨none, getMemoryRecord_of_not_mem none⟩

end Reading

section Writing

variable {records : List FailureRecord} {record : FailureRecord}

theorem oldestFrom_spec (records : List FailureRecord) (idx minIdx : Nat) (minTimestamp : UInt64) :
    (oldestFrom records idx minIdx minTimestamp = minIdx ∧
      ∀ record ∈ records, minTimestamp < record.lastCheckedTimestamp) ∨
    ∃ j, ∃ below : j < records.length, oldestFrom records idx minIdx minTimestamp = idx + j ∧
      records[j].lastCheckedTimestamp ≤ minTimestamp ∧
      ∀ record ∈ records, records[j].lastCheckedTimestamp ≤ record.lastCheckedTimestamp := by
  induction records generalizing idx minIdx minTimestamp with
  | nil => exact .inl ⟨rfl, nofun⟩
  | cons first rest ih =>
  unfold oldestFrom
  split
  · rename_i older
    right
    rcases ih (idx + 1) idx first.lastCheckedTimestamp with newer | found
    · refine ⟨0, by simp, newer.1, older, fun record mem => ?_⟩
      cases mem with
      | head => exact UInt64.le_refl _
      | tail _ mem => exact UInt64.le_of_lt (newer.2 record mem)
    obtain ⟨j, below, is, least, all⟩ := found
    refine ⟨j + 1, by simpa using below, by rw [is]; omega, ?_, fun record mem => ?_⟩
    · exact UInt64.le_trans least older
    · cases mem with
      | head => exact least
      | tail _ mem => exact all record mem
  · rename_i newer
    have later : minTimestamp < first.lastCheckedTimestamp := UInt64.not_le.mp newer
    rcases ih (idx + 1) minIdx minTimestamp with none | found
    · refine .inl ⟨none.1, fun record mem => ?_⟩
      cases mem with
      | head => exact later
      | tail _ mem => exact none.2 record mem
    obtain ⟨j, below, is, least, all⟩ := found
    refine .inr ⟨j + 1, by simpa using below, by rw [is]; omega, least, fun record mem => ?_⟩
    cases mem with
    | head => exact UInt64.le_of_lt (UInt64.lt_of_le_of_lt least later)
    | tail _ mem => exact all record mem

/-- A record is written over that of its user, behind the others, or over an
oldest one of a full table. -/
theorem memoryIndex_cases (table : Table records) (record : FailureRecord) :
    (∃ below : memoryIndex records record < records.length,
      records[memoryIndex records record].secureUserId = record.secureUserId) ∨
    ((∀ other ∈ records, other.secureUserId ≠ record.secureUserId) ∧
      ((memoryIndex records record = records.length ∧ records.length < maxFailureRecords) ∨
        (records.length = maxFailureRecords ∧ ∃ below : memoryIndex records record < records.length, ∀ other ∈ records,
            records[memoryIndex records record].lastCheckedTimestamp ≤ other.lastCheckedTimestamp))) := by
  have room := table.room
  by_cases known : ∃ other ∈ records, other.secureUserId = record.secureUserId
  · left
    have below : records.findIdx (·.secureUserId == record.secureUserId) < records.length := by
      rw [findIdx_lt_length]
      obtain ⟨other, mem, same⟩ := known
      exact ⟨other, mem, by simpa using same⟩
    have is : memoryIndex records record = records.findIdx (·.secureUserId == record.secureUserId) := by
      unfold memoryIndex
      rw [if_neg (by omega)]
    refine ⟨by rw [is]; exact below, ?_⟩
    have hit := @List.findIdx_getElem _ (·.secureUserId == record.secureUserId) records below
    simp only [is]
    simpa using hit
  · right
    have none : ∀ other ∈ records, other.secureUserId ≠ record.secureUserId :=
      fun other mem same => known ⟨other, mem, same⟩
    have last : records.findIdx (·.secureUserId == record.secureUserId) = records.length := by
      rw [findIdx_eq_length]
      intro other mem
      simpa using none other mem
    refine ⟨none, ?_⟩
    by_cases full : records.length < maxFailureRecords
    · left
      refine ⟨?_, full⟩
      unfold memoryIndex
      rw [last, if_neg (by omega)]
    right
    have is : memoryIndex records record = oldestFrom records 0 0 (~~~0) := by
      unfold memoryIndex
      rw [last, if_pos (by omega)]
    refine ⟨by omega, ?_⟩
    rcases oldestFrom_spec records 0 0 (~~~0) with newer | found
    · have some : 0 < records.length := by
        unfold maxFailureRecords at full
        omega
      have impossible := newer.2 records[0] (getElem_mem some)
      rw [UInt64.lt_iff_toNat_lt] at impossible
      have bound := records[0].lastCheckedTimestamp.toNat_lt
      have top : (~~~0 : UInt64).toNat = 2 ^ 64 - 1 := by decide
      omega
    · obtain ⟨j, below, place, _, all⟩ := found
      rw [zero_add] at place
      have equal : memoryIndex records record = j := by rw [is, place]
      refine ⟨by rw [equal]; exact below, ?_⟩
      simp only [equal]
      exact all

theorem victim_spec (table : Table records) {userId : UInt64} (gone : victim records record = some userId) :
    records.length = maxFailureRecords ∧ (∀ other ∈ records, other.secureUserId ≠ record.secureUserId) ∧
      ∃ old ∈ records, old.secureUserId = userId ∧
        ∀ other ∈ records, old.lastCheckedTimestamp ≤ other.lastCheckedTimestamp := by
  unfold victim at gone
  rcases memoryIndex_cases table record with own | new
  · obtain ⟨below, same⟩ := own
    rw [getElem?_eq_getElem below] at gone
    simp [same] at gone
  obtain ⟨none, behind | full⟩ := new
  · rw [behind.1] at gone
    simp at gone
  obtain ⟨length, below, oldest⟩ := full
  rw [getElem?_eq_getElem below] at gone
  have other := none _ (getElem_mem below)
  simp only [other, if_false] at gone
  exact ⟨length, none, _, getElem_mem below, Option.some.inj gone, oldest⟩

structure Written (records : List FailureRecord) (record : FailureRecord)
    (new : List FailureRecord) : Prop where
  table : Table new
  reads : ∀ userId, getMemoryRecord new userId =
    if userId = record.secureUserId then record
    else if victim records record = some userId then noFailures userId
    else getMemoryRecord records userId

theorem Written.of_entries {new : List FailureRecord} (table : Table records) (written : Table new)
    (own : record ∈ new) (old : ∀ entry ∈ new, entry = record ∨ entry ∈ records)
    (kept : ∀ entry ∈ records, entry.secureUserId ≠ record.secureUserId →
      victim records record ≠ some entry.secureUserId → entry ∈ new)
    (gone : ∀ entry ∈ new, victim records record = some entry.secureUserId → entry = record) :
    Written records record new := by
  refine ⟨written, fun userId => ?_⟩
  split
  · rename_i is
    rw [is]
    exact getMemoryRecord_of_mem written own
  rename_i other
  split
  · rename_i dropped
    apply getMemoryRecord_of_not_mem
    intro entry mem same
    rw [← same] at dropped other
    exact other (by rw [gone entry mem dropped])
  rename_i spared
  rcases getMemoryRecord_cases table userId with known | unknown
  · obtain ⟨entry, mem, is, read⟩ := known
    rw [read, ← is]
    rw [← is] at other spared
    exact getMemoryRecord_of_mem written (kept entry mem other spared)
  rw [unknown.2]
  apply getMemoryRecord_of_not_mem
  intro entry mem same
  rcases old entry mem with new | old
  · rw [new] at same
    exact other same.symm
  · exact unknown.1 entry old same

theorem mem_set_of_ne {idx : Nat} {entry : FailureRecord} (mem : entry ∈ records) (below : idx < records.length)
    (differs : entry.secureUserId ≠ records[idx].secureUserId) : entry ∈ records.set idx record := by
  obtain ⟨j, belowToo, rfl⟩ := getElem_of_mem mem
  have apart : idx ≠ j := by
    intro same
    subst same
    exact differs rfl
  have place : (records.set idx record)[j]? = some records[j] := by
    rw [getElem?_set_ne apart, getElem?_eq_getElem belowToo]
  exact mem_of_getElem? place

section

variable (table : Table records)
include table

theorem writeMemoryRecord_own (below : memoryIndex records record < records.length)
    (same : records[memoryIndex records record].secureUserId = record.secureUserId) :
    Written records record (writeMemoryRecord records record) := by
  have is : writeMemoryRecord records record = records.set (memoryIndex records record) record := by
    simp [writeMemoryRecord, below]
  have none : victim records record = none := by
    simp [victim, getElem?_eq_getElem below, same]
  have users : (records.set (memoryIndex records record) record).map
      FailureRecord.secureUserId = records.map FailureRecord.secureUserId := by
    rw [map_set, ← same]
    apply ext_getElem (by simp)
    intro i inside insideToo
    rw [getElem_set]
    split
    · rename_i at'
      simp [← at']
    · rfl
  rw [is]
  apply Written.of_entries table
  · exact ⟨by rw [users]; exact table.unique, by rw [length_set]; exact table.room⟩
  · exact mem_set below record
  · exact fun entry mem => (mem_or_eq_of_mem_set mem).symm
  · intro entry mem differs _
    exact mem_set_of_ne mem below (by rw [same]; exact differs)
  · intro entry mem gone
    rw [none] at gone
    contradiction

section

variable (unknown : ∀ other ∈ records, other.secureUserId ≠ record.secureUserId)
include unknown

theorem writeMemoryRecord_behind (last : memoryIndex records record = records.length)
    (space : records.length < maxFailureRecords) : Written records record (writeMemoryRecord records record) := by
  have is : writeMemoryRecord records record = records ++ [record] := by
    simp [writeMemoryRecord, last]
  have none : victim records record = none := by
    simp [victim, last]
  rw [is]
  apply Written.of_entries table
  · refine ⟨?_, by rw [length_append]; exact space⟩
    rw [map_append, nodup_append]
    refine ⟨table.unique, by simp, fun user mem other single => ?_⟩
    obtain ⟨entry, among, rfl⟩ := mem_map.mp mem
    obtain ⟨only, is, rfl⟩ := mem_map.mp single
    rw [mem_singleton.mp is]
    exact unknown entry among
  · exact mem_append_right _ (mem_singleton.mpr rfl)
  · intro entry mem
    rcases mem_append.mp mem with old | new
    · exact .inr old
    · exact .inl (mem_singleton.mp new)
  · exact fun entry mem _ _ => mem_append_left _ mem
  · intro entry mem gone
    rw [none] at gone
    contradiction

theorem writeMemoryRecord_full (below : memoryIndex records record < records.length) :
    Written records record (writeMemoryRecord records record) := by
  have is : writeMemoryRecord records record = records.set (memoryIndex records record) record := by
    simp [writeMemoryRecord, below]
  have gone : victim records record = some records[memoryIndex records record].secureUserId := by
    simp [victim, getElem?_eq_getElem below, unknown _ (getElem_mem below)]
  rw [is]
  apply Written.of_entries table
  · refine ⟨?_, by rw [length_set]; exact table.room⟩
    rw [map_set]
    apply table.unique.set
    intro mem
    obtain ⟨entry, among, same⟩ := mem_map.mp mem
    exact unknown entry among same
  · exact mem_set below record
  · exact fun entry mem => (mem_or_eq_of_mem_set mem).symm
  · intro entry mem _ spared
    exact mem_set_of_ne mem below fun same => spared (by rw [gone, same])
  · intro entry mem dropped
    obtain ⟨j, inside, rfl⟩ := getElem_of_mem mem
    rw [gone] at dropped
    have same := Option.some.inj dropped
    rw [getElem_set] at same ⊢
    split at same
    · rename_i place
      rw [if_pos place]
    · rename_i apart
      rw [length_set] at inside
      exact absurd (table.index_eq below inside same) apart

end

theorem writeMemoryRecord_written (record : FailureRecord) :
    Written records record (writeMemoryRecord records record) := by
  rcases memoryIndex_cases table record with own | new
  · exact writeMemoryRecord_own table own.1 own.2
  · obtain ⟨unknown, behind | full⟩ := new
    · exact writeMemoryRecord_behind table unknown behind.1 behind.2
    · exact writeMemoryRecord_full table unknown full.2.1

end

end Writing

end Trusty.Gatekeeper
