import Trusty.Keymaster.OperationLife

/-! Handles designate their operations, and no object is lost or deleted twice. -/

namespace Trusty.Keymaster.Life

open List Option

def occupied (entries : List Entry) : List (UInt64 × Nat) :=
  entries.filterMap fun entry => entry.operation.map (entry.handle, ·)

def WellFormed (entries : List Entry) : Prop :=
  ∀ entry ∈ entries, entry.operation = none ↔ entry.handle = 0

variable {handle : UInt64} {entries : List Entry} {object : Nat}

theorem mem_occupied : (handle, object) ∈ occupied entries ↔ ⟨handle, some object⟩ ∈ entries := by
  constructor
  · intro member
    obtain ⟨⟨held, operation⟩, inside, same⟩ := mem_filterMap.mp member
    cases operation with
    | none => cases same
    | some pointed =>
    cases same
    exact inside
  · intro inside
    exact mem_filterMap.mpr ⟨_, inside, rfl⟩

@[simp] theorem occupied_free (handle : UInt64) (entries : List Entry) :
    occupied (⟨handle, none⟩ :: entries) = occupied entries := rfl

@[simp] theorem occupied_taken (handle : UInt64) (object : Nat) (entries : List Entry) :
    occupied (⟨handle, some object⟩ :: entries) = (handle, object) :: occupied entries := rfl

theorem place_some {placed : List Entry} (taken : place handle object entries = some placed) :
    placed.length = entries.length ∧ (occupied placed).Perm ((handle, object) :: occupied entries) ∧
      (handle ≠ 0 → WellFormed entries → WellFormed placed) := by
  induction entries generalizing placed with
  | nil => cases taken
  | cons entry rest ih =>
  obtain ⟨held, operation⟩ := entry
  cases operation with
  | none =>
    cases taken
    refine ⟨rfl, .refl _, fun nonzero formed => ?_⟩
    exact forall_mem_cons.mpr ⟨by simp [nonzero], (forall_mem_cons.mp formed).2⟩
  | some pointed =>
  obtain ⟨later, behind, rfl⟩ := map_eq_some_iff.mp taken
  obtain ⟨length, permuted, forms⟩ := ih behind
  refine ⟨congrArg Nat.succ length, (permuted.cons (held, pointed)).trans (.swap ..), fun nonzero formed => ?_⟩
  obtain ⟨first, others⟩ := forall_mem_cons.mp formed
  exact forall_mem_cons.mpr ⟨first, forms nonzero others⟩

theorem place_none (refused : place handle object entries = none) : (occupied entries).length = entries.length := by
  induction entries with
  | nil => rfl
  | cons entry rest ih =>
  obtain ⟨held, operation⟩ := entry
  cases operation with
  | none => cases refused
  | some pointed => exact congrArg Nat.succ (ih (map_eq_none_iff.mp refused))

theorem deleteEntry_spec (nonzero : handle ≠ 0) (formed : WellFormed entries)
    (single : ((occupied entries).map Prod.fst).Nodup) :
    (deleteEntry handle entries).2.length = entries.length ∧ WellFormed (deleteEntry handle entries).2 ∧
      occupied (deleteEntry handle entries).2 = (occupied entries).filter (·.1 ≠ handle) ∧
      (deleteEntry handle entries).1 = ((occupied entries).filter (·.1 = handle)).map Prod.snd := by
  induction entries with
  | nil => exact ⟨rfl, formed, rfl, rfl⟩
  | cons entry rest ih =>
  obtain ⟨held, operation⟩ := entry
  obtain ⟨first, others⟩ := forall_mem_cons.mp formed
  by_cases found : held = handle
  · subst found
    cases operation with
    | none => exact absurd (first.mp rfl) nonzero
    | some pointed =>
    have alone : ∀ pair ∈ occupied rest, pair.1 ≠ held := fun pair inside same =>
      (nodup_cons.mp single).1 (mem_map.mpr ⟨pair, inside, same⟩)
    have kept : (occupied rest).filter (·.1 ≠ held) = occupied rest :=
      filter_eq_self.mpr fun pair inside => decide_eq_true (alone pair inside)
    have gone : (occupied rest).filter (·.1 = held) = [] :=
      filter_eq_nil_iff.mpr fun pair inside => by simpa using alone pair inside
    simp only [deleteEntry, if_pos, occupied_free, occupied_taken]
    refine ⟨rfl, forall_mem_cons.mpr ⟨by simp, others⟩, ?_, ?_⟩
    · rw [filter_cons_of_neg (by simp), kept]
    · rw [filter_cons_of_pos (by simp), gone]
      rfl
  · have singleRest : ((occupied rest).map Prod.fst).Nodup := by
      cases operation with
      | none => exact single
      | some pointed => exact (nodup_cons.mp single).2
    obtain ⟨length, formedRest, kept, gone⟩ := ih others singleRest
    simp only [deleteEntry, if_neg found]
    refine ⟨congrArg Nat.succ length, forall_mem_cons.mpr ⟨first, formedRest⟩, ?_⟩
    cases operation with
    | none => exact ⟨kept, gone⟩
    | some pointed =>
    simp only [occupied_taken]
    rw [filter_cons_of_pos (by simpa using found), filter_cons_of_neg (by simpa using found), kept]
    exact ⟨rfl, gone⟩

structure Tracks (tableSize : Nat) (session : Session) : Prop where
  size : session.state.tableSize = tableSize
  length : ∀ entries, session.state.entries = some entries →
    entries.length = session.state.tableSize
  formed : WellFormed (session.state.entries.getD [])
  held : session.live.Perm (occupied (session.state.entries.getD []))
  single : (session.live.map Prod.fst).Nodup
  issued : ∀ operation ∈ session.live, operation.1 ∈ session.issued
  objects : (session.state.deleted ++ session.live.map Prod.snd).Perm
    (range session.state.created)

variable {tableSize : Nat} {session : Session}

section

variable (tracks : Tracks tableSize session)

include tracks

theorem Tracks.find_iff (handle : UInt64) (object : Nat) :
    session.state.find handle = some object ↔ (handle, object) ∈ session.live := by
  have single := (tracks.held.map Prod.fst).nodup_iff.mp tracks.single
  have formed := tracks.formed
  rw [tracks.held.mem_iff, State.find]
  cases present : session.state.entries with
  | none => simp [occupied]
  | some entries =>
  rw [present] at single formed
  simp only [bind_some, getD_some] at single formed ⊢
  constructor
  · intro found
    split at found
    · cases found
    obtain ⟨⟨held, operation⟩, first, pointed⟩ := bind_eq_some_iff.mp found
    have same : held = handle := by simpa using find?_some first
    subst same
    exact mem_occupied.mpr (pointed ▸ mem_of_find?_eq_some first)
  intro inside
  have member := mem_occupied.mp inside
  have nonzero : handle ≠ 0 := fun zero => by simpa using (formed _ member).mpr zero
  obtain ⟨⟨held, operation⟩, first⟩ := isSome_iff_exists.mp (find?_isSome.mpr ⟨_, member, beq_self_eq_true handle⟩ :
      (entries.find? fun entry => entry.handle == handle).isSome)
  have same : held = handle := by simpa using find?_some first
  subst same
  have found := mem_of_find?_eq_some first
  cases operation with
  | none => exact absurd ((formed _ found).mp rfl) nonzero
  | some pointed =>
  have same := inj_on_of_nodup_map single (mem_occupied.mpr found) inside rfl
  rw [if_neg nonzero, first]
  exact congrArg some (Prod.mk.inj same).2

theorem Tracks.nonzero {operation : UInt64 × Nat} (member : operation ∈ session.live) : operation.1 ≠ 0 := by
  intro zero
  have found := (tracks.find_iff operation.1 operation.2).mpr member
  simp [State.find, zero] at found

theorem Tracks.find_none (absent : handle ∉ session.live.map Prod.fst) : session.state.find handle = none := by
  cases found : session.state.find handle with
  | none => rfl
  | some object =>
  exact absurd (mem_map_of_mem ((tracks.find_iff handle object).mp found)) absent

theorem Tracks.delete (nonzero : handle ≠ 0) : Tracks tableSize { session with
      state := session.state.delete handle
      live := session.live.filter (·.1 ≠ handle) } := by
  have kept : ∀ operation ∈ session.live.filter (·.1 ≠ handle), operation ∈ session.live :=
    fun operation member => mem_of_mem_filter member
  have single : ((session.live.filter (·.1 ≠ handle)).map Prod.fst).Nodup :=
    tracks.single.sublist (filter_sublist.map Prod.fst)
  have issued := fun operation member => tracks.issued operation (kept operation member)
  have formed := tracks.formed
  have held := tracks.held
  cases present : session.state.entries with
  | none =>
    have empty : session.live = [] := by simpa [present, occupied] using held
    have unchanged : session.state.delete handle = session.state := by
      simp only [State.delete, present]
    have others : session.live.filter (·.1 ≠ handle) = session.live := by
      rw [empty]
      rfl
    rw [others, unchanged]
    exact tracks
  | some entries =>
  rw [present, getD_some] at formed held
  obtain ⟨length, formedLater, keeps, gone⟩ := deleteEntry_spec nonzero formed
    ((held.map Prod.fst).nodup_iff.mp tracks.single)
  have deleted : session.state.delete handle = { session.state with
      entries := some (deleteEntry handle entries).2
      deleted := session.state.deleted ++ (deleteEntry handle entries).1 } := by
    simp only [State.delete, present]
  rw [deleted]
  refine ⟨tracks.size, ?_, formedLater, ?_, single, issued, ?_⟩
  · rintro later ⟨⟩
    exact length.trans (tracks.length entries present)
  · exact keeps ▸ held.filter _
  -- the live operations split into the deleted one and the others
  have parts : ((session.live.filter (·.1 = handle)).map Prod.snd ++
      (session.live.filter (·.1 ≠ handle)).map Prod.snd).Perm (session.live.map Prod.snd) := by
    simpa using (filter_append_perm (·.1 = handle) session.live).map Prod.snd
  have removed : (deleteEntry handle entries).1.Perm ((session.live.filter (·.1 = handle)).map Prod.snd) :=
    gone ▸ ((held.filter _).map Prod.snd).symm
  rw [append_assoc]
  exact (((removed.append_right _).trans parts).append_left _).trans tracks.objects

end

theorem goOn_unknown {state : State} {request : GoOn} (unknown : state.find request.opHandle = none) :
    state.goOn request = (.invalidOperationHandle, state) := by
  cases request with
  | update steps | finish steps | abort opHandle aborted =>
  simp only [GoOn.opHandle] at unknown
  simp only [State.goOn, State.updateOperation, State.finishOperation, State.abortOperation, unknown]

theorem goOn_known {state : State} {request : GoOn} (known : state.find request.opHandle = some object) :
    ∃ error, state.goOn request = (error, if request.ends error then state.delete request.opHandle else state) := by
  cases request with
  | update steps =>
    simp only [GoOn.opHandle] at known
    simp only [State.goOn, State.updateOperation, known, GoOn.ends, GoOn.opHandle]
    cases steps.authorized with
    | error failure => exact ⟨failure, by simp [failure.property]⟩
    | ok _ => exact ⟨steps.result, by simp⟩
  | finish steps =>
    simp only [GoOn.opHandle] at known
    simp only [State.goOn, State.finishOperation, known, GoOn.ends, GoOn.opHandle]
    cases steps.authorized with
    | error failure => exact ⟨failure, rfl⟩
    | ok _ => exact ⟨steps.result, rfl⟩
  | abort opHandle aborted =>
  simp only [GoOn.opHandle] at known
  exact ⟨aborted, by simp [State.goOn, State.abortOperation, known, GoOn.ends, GoOn.opHandle]⟩

theorem Tracks.goOn (tracks : Tracks tableSize session) (request : GoOn) :
    Tracks tableSize (session.next (.goOn request)) := by
  cases found : session.state.find request.opHandle with
  | none =>
    have others : session.live.filter (·.1 ≠ request.opHandle) = session.live := by
      refine filter_eq_self.mpr fun operation member => decide_eq_true fun same => ?_
      have known := (tracks.find_iff operation.1 operation.2).mpr member
      rw [same, found] at known
      cases known
    simp only [Session.next, goOn_unknown found, others, ite_self]
    exact tracks
  | some object =>
  have nonzero := tracks.nonzero ((tracks.find_iff _ _).mp found)
  obtain ⟨error, served⟩ := goOn_known found
  simp only [Session.next, served]
  split
  · exact tracks.delete nonzero
  · exact tracks

inductive Begins (state : State) (steps : BeginSteps) : Reply × State → Prop
  | refused {error : KeymasterError} (failed : error ≠ .ok)
      (plain : steps.Plain → error ≠ .tooManyOperations) : Begins state steps (⟨error, 0⟩, state)
  | lost (table : state.allocate steps.tableAllocated = none) :
      Begins state steps (⟨.memoryAllocationFailed, 0⟩, { state with created := state.created + 1 })
  | destroyed {reply : Reply} {entries : Option (List Entry)} (failed : reply.error ≠ .ok)
      (table : entries = state.entries ∨ entries.isSome ∧ entries = state.allocate steps.tableAllocated)
      (full : steps.Plain → reply.error = .tooManyOperations →
        entries.isSome ∧ (occupied (entries.getD [])).length = (entries.getD []).length) :
      Begins state steps (reply, { state with
        entries
        created := state.created + 1
        deleted := state.deleted ++ [state.created] })
  | entered {handle : UInt64} {entries placed : List Entry} (nonzero : handle ≠ 0)
      (random : steps.random = .ok handle)
      (table : state.allocate steps.tableAllocated = some entries)
      (taken : place handle state.created entries = some placed) :
      Begins state steps (⟨.ok, handle⟩, { state with
        entries := some placed
        created := state.created + 1 })

theorem beginOperation_begins (state : State) (steps : BeginSteps) :
    Begins state steps (state.beginOperation steps) := by
  cases created : steps.created with
  | error failure =>
    simp only [State.beginOperation, created]
    exact .refused failure.property fun plain => plain failure (.inl created)
  | ok _ =>
  cases begun : steps.begun with
  | error failure =>
    simp only [State.beginOperation, created, begun]
    exact .destroyed failure.property (.inl rfl) fun plain same => absurd same (plain failure (.inr (.inl begun)))
  | ok _ =>
  have added : state.beginOperation steps =
      State.add { state with created := state.created + 1 } state.created steps := by
    simp only [State.beginOperation, created, begun]
  rw [added]
  cases table : state.allocate steps.tableAllocated with
  | none =>
    have missing : State.allocate { state with created := state.created + 1 } steps.tableAllocated = none := table
    simp only [State.add, missing]
    exact .lost table
  | some entries =>
  have present : State.allocate { state with created := state.created + 1 } steps.tableAllocated = some entries := table
  have allocated : (some entries).isSome ∧ some entries = state.allocate steps.tableAllocated := ⟨rfl, table.symm⟩
  simp only [State.add, present]
  cases random : steps.random with
  | error failure =>
    exact .destroyed failure.property (.inr allocated)
      fun plain same => absurd same (plain failure (.inr (.inr random)))
  | ok handle =>
  by_cases zero : handle = 0
  · simp only [if_pos zero]
    exact .destroyed nofun (.inr allocated) nofun
  simp only [if_neg zero]
  cases taken : place handle state.created entries with
  | none => exact .destroyed nofun (.inr allocated) fun _ _ => ⟨rfl, place_none taken⟩
  | some placed => exact .entered zero random table taken

theorem Tracks.allocate (tracks : Tracks tableSize session) {allocated : Bool}
    (table : session.state.allocate allocated = some entries) :
    Tracks tableSize { session with state := { session.state with entries := some entries } } := by
  cases present : session.state.entries with
  | some held =>
    simp only [State.allocate, present] at table
    cases table
    simpa only [← present] using tracks
  | none =>
  simp only [State.allocate, present] at table
  split at table
  · cases table
    have empty : session.live = [] := by simpa [present, occupied] using tracks.held
    refine { tracks with length := by simp, formed := ?_, held := ?_ }
    · intro entry member
      simp [eq_of_mem_replicate member]
    · simp [empty, occupied]
  · cases table

theorem Tracks.begin (tracks : Tracks tableSize session) {steps : BeginSteps} (fresh : session.Fresh (.begin steps))
    (hasTable : session.HasTable (.begin steps)) : Tracks tableSize (session.next (.begin steps)) := by
  have begins := beginOperation_begins session.state steps
  simp only [Session.next]
  generalize session.state.beginOperation steps = result at begins ⊢
  cases begins with
  | refused failed =>
    rw [if_neg failed]
    exact tracks
  | lost table =>
    simp [Session.HasTable, table] at hasTable
  | @destroyed reply entries failed table =>
    rw [if_neg failed]
    have kept : Tracks tableSize { session with state := { session.state with entries } } := by
      rcases table with rfl | ⟨present, same⟩
      · exact tracks
      · obtain ⟨table, rfl⟩ := isSome_iff_exists.mp present
        exact tracks.allocate same.symm
    refine { kept with objects := ?_ }
    simp only [range_succ, append_assoc]
    exact (perm_append_comm.append_left _).trans (by simpa using tracks.objects.append_right [session.state.created])
  | @entered handle entries placed nonzero random table taken =>
  have kept := tracks.allocate table
  obtain ⟨length, permuted, forms⟩ := place_some taken
  have unused : handle ∉ session.live.map Prod.fst := by
    intro member
    obtain ⟨operation, live, rfl⟩ := mem_map.mp member
    exact fresh _ random (tracks.issued operation live)
  rw [if_pos rfl]
  refine ⟨tracks.size, ?_, forms nonzero kept.formed, ?_, ?_, ?_, ?_⟩
  · rintro later ⟨⟩
    exact length.trans (kept.length entries rfl)
  · exact (perm_append_singleton _ _).trans ((kept.held.cons _).trans permuted.symm)
  · rw [map_append]
    refine nodup_append.mpr ⟨tracks.single, nodup_singleton _, ?_⟩
    rintro used member other only rfl
    have same : used = handle := mem_singleton.mp only
    exact unused (same ▸ member)
  · intro operation member
    rcases mem_append.mp member with old | new
    · exact mem_append_left _ (tracks.issued operation old)
    · exact mem_append_right _ (by simpa using congrArg Prod.fst (mem_singleton.mp new))
  · simp only [range_succ, map_append, ← append_assoc]
    exact tracks.objects.append_right _

theorem tracks_start (tableSize : Nat) : Tracks tableSize (.start tableSize) :=
  ⟨rfl, nofun, nofun, .refl _, nodup_nil, nofun, .refl _⟩

section

variable (tracks : Tracks tableSize session)
include tracks

theorem Tracks.run {requests : List Request} (fresh : session.Throughout Session.Fresh requests)
    (hasTable : session.Throughout Session.HasTable requests) : Tracks tableSize (session.run requests) := by
  induction requests generalizing session with
  | nil => exact tracks
  | cons request rest ih =>
  have kept : Tracks tableSize (session.next request) := by
    cases request with
    | begin steps => exact tracks.begin fresh.1 hasTable.1
    | goOn request => exact tracks.goOn request
  exact ih kept fresh.2 hasTable.2

theorem Tracks.length_le : session.live.length ≤ tableSize := by
  rw [tracks.held.length_eq, ← tracks.size]
  cases present : session.state.entries with
  | none => exact Nat.zero_le _
  | some entries =>
  rw [← tracks.length entries present]
  exact length_filterMap_le ..

theorem Tracks.full {steps : BeginSteps} (plain : steps.Plain)
    (failed : (session.state.beginOperation steps).1.error = .tooManyOperations) : session.live.length = tableSize := by
  have begins := beginOperation_begins session.state steps
  generalize session.state.beginOperation steps = result at begins failed
  cases begins with
  | refused _ other => exact absurd failed (other plain)
  | lost | entered => cases failed
  | @destroyed reply entries _ table full =>
  obtain ⟨present, taken⟩ := full plain failed
  obtain ⟨held, rfl⟩ := isSome_iff_exists.mp present
  have kept : Tracks tableSize { session with state := { session.state with entries := some held } } := by
    rcases table with same | ⟨-, same⟩
    · exact same ▸ tracks
    · exact tracks.allocate same.symm
  rw [← kept.size, ← kept.length _ rfl, kept.held.length_eq]
  exact taken

end

/-- In every session in which `RAND_bytes` repeats no handle and the table of
operations can be allocated, handles and objects have the life cycle described. -/
theorem lifeCycle_of_table (tableSize : Nat) (requests : List Request)
    (fresh : (Session.start tableSize).Throughout Session.Fresh requests)
    (hasTable : (Session.start tableSize).Throughout Session.HasTable requests) :
    LifeCycle tableSize ((Session.start tableSize).run requests) := by
  have tracks := (tracks_start tableSize).run fresh hasTable
  exact {
    designates := tracks.find_iff
    single := tracks.single
    issued := fun operation live => ⟨tracks.nonzero live, tracks.issued operation live⟩
    refused := fun request dead => goOn_unknown (tracks.find_none dead)
    bounded := tracks.length_le
    full := fun steps plain failed => tracks.full plain failed
    deleted := tracks.objects }

/-- One operation in a table of one entry: a second Begin is refused, and the handle ends
with its Finish. -/
def sampleSession : List Request :=
  [.begin ⟨.ok (), .ok (), true, .ok 7⟩, .begin ⟨.ok (), .ok (), true, .ok 8⟩,
    .goOn (.update ⟨7, .ok (), .ok⟩), .goOn (.finish ⟨7, .ok (), .ok⟩)]

theorem sampleSession_lifeCycle : LifeCycle 1 ((Session.start 1).run sampleSession) := by
  refine lifeCycle_of_table 1 sampleSession ?_ ?_
  · simp only [sampleSession, Session.Throughout, Session.Fresh, and_true]
    refine ⟨nofun, ?_⟩
    rintro handle ⟨⟩
    decide
  · simp only [sampleSession, Session.Throughout, Session.HasTable, and_true]
    decide

/-- An object is lost when the table cannot be allocated. -/
theorem failed_table_loses_object : ¬LifeCycle 1 ((Session.start 1).run [.begin ⟨.ok (), .ok (), false, .ok 7⟩]) := by
  intro cycle
  nomatch cycle.deleted.length_eq

end Trusty.Keymaster.Life
