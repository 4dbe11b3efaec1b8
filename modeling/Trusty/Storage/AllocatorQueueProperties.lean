import Trusty.Storage.AllocatorQueue

/-! The queue of the block allocator loses no call and applies none twice. -/

namespace Trusty.Storage.AllocatorQueue

open List

open Function (update update_self update_of_ne)

/-!
## The ring as a list
-/

variable {queue : Queue}

theorem indices_nodup (queue : Queue) : queue.indices.Nodup := by
  refine Nodup.map_on ?_ nodup_range
  intro first firstMember second secondMember same
  have := mem_range.mp firstMember
  have := mem_range.mp secondMember
  simp only [queueLen] at *
  omega

theorem indices_cons (head : queue.head < queueLen) (tail : queue.tail < queueLen)
    (nonempty : queue.head ≠ queue.tail) :
    queue.indices = queue.head :: Queue.indices { queue with head := (queue.head + 1) % queueLen } := by
  have count : (queue.tail + queueLen - queue.head) % queueLen =
      (queue.tail + queueLen - (queue.head + 1) % queueLen) % queueLen + 1 := by
    simp only [queueLen] at *
    omega
  simp only [Queue.indices]
  rw [count, range_succ_eq_map, map_cons, map_map]
  refine congrArg₂ List.cons (Nat.mod_eq_of_lt head) (map_congr_left fun offset _ => ?_)
  simp only [Function.comp_apply, queueLen]
  omega

theorem indices_append (head : queue.head < queueLen) (tail : queue.tail < queueLen)
    (room : (queue.tail + 1) % queueLen ≠ queue.head) :
    Queue.indices { queue with tail := (queue.tail + 1) % queueLen } = queue.indices ++ [queue.tail] := by
  have count : ((queue.tail + 1) % queueLen + queueLen - queue.head) % queueLen =
      (queue.tail + queueLen - queue.head) % queueLen + 1 := by
    simp only [queueLen] at *
    omega
  simp only [Queue.indices]
  rw [count, range_succ, map_append, map_singleton]
  refine congrArg (_ ++ [·]) ?_
  simp only [queueLen] at *
  omega

theorem tail_not_mem (queue : Queue) : queue.tail ∉ queue.indices := by
  intro member
  obtain ⟨offset, below, same⟩ := mem_map.mp member
  have bound := mem_range.mp below
  simp only [queueLen] at bound same
  omega

structure Appended (queue : Queue) (entry : Entry) (later : Queue) : Prop where
  head : later.head = queue.head
  tail : later.tail < queueLen
  nonempty : later.head ≠ later.tail
  updating : later.updating = queue.updating
  indices : later.indices = queue.indices ++ [queue.tail]
  old : ∀ index ∈ queue.indices, later.entry index = queue.entry index
  new : later.entry queue.tail = entry

variable {entry : Entry} {later : Queue}

theorem append_ok (head : queue.head < queueLen) (tail : queue.tail < queueLen)
    (appended : queue.append entry = .ok later) : Appended queue entry later := by
  simp only [Queue.append] at appended
  split at appended
  case isTrue => cases appended
  case isFalse room =>
    cases appended
    have old : ∀ index ∈ queue.indices, index ≠ queue.tail := by
      rintro index member rfl
      exact tail_not_mem queue member
    exact ⟨rfl, Nat.mod_lt _ (by decide), Ne.symm room, rfl, indices_append head tail room,
      fun index member => update_of_ne (old index member) .., update_self ..⟩

theorem append_error {stop : Stop} (stopped : queue.append entry = .error stop) : stop = .full := by
  simp only [Queue.append] at stopped
  split at stopped
  · cases stopped
    rfl
  · cases stopped

theorem live_append (queue : Queue) (first second : List Nat) :
    queue.live (first ++ second) = queue.live first ++ queue.live second := by
  simp [Queue.live]

theorem live_cons (queue : Queue) (index : Nat) (rest : List Nat) :
    queue.live (index :: rest) = (if (queue.entry index).removed then [] else
      [(queue.entry index).call]) ++ queue.live rest := by
  cases removed : (queue.entry index).removed <;> simp [Queue.live, removed]

variable {indices : List Nat}

theorem live_congr (same : ∀ index ∈ indices, later.entry index = queue.entry index) :
    later.live indices = queue.live indices := by
  rw [Queue.live, Queue.live, map_congr_left same]

variable {index : Nat}

theorem markRemoved_other {other : Nat} (differs : other ≠ index) :
    (queue.markRemoved index).entry other = queue.entry other :=
  update_of_ne differs ..

theorem live_markRemoved_of_not_mem {index : Nat}
    (outside : index ∉ indices) : (queue.markRemoved index).live indices = queue.live indices :=
  live_congr fun _ member => markRemoved_other fun same => outside (same ▸ member)

theorem live_markRemoved {index : Nat} (nodup : indices.Nodup) (member : index ∈ indices)
    (present : (queue.entry index).removed = false) :
    ∃ before after, queue.live indices = before ++ (queue.entry index).call :: after ∧
      (queue.markRemoved index).live indices = before ++ after := by
  obtain ⟨first, second, rfl⟩ := append_of_mem member
  obtain ⟨-, behind, apart⟩ := nodup_append.mp nodup
  have notFirst : index ∉ first := fun inside => apart _ inside _ mem_cons_self rfl
  have notSecond : index ∉ second := (nodup_cons.mp behind).1
  refine ⟨queue.live first, queue.live second, ?_, ?_⟩
  · rw [live_append, live_cons, present]
    rfl
  · rw [live_append, live_cons, live_markRemoved_of_not_mem notFirst, live_markRemoved_of_not_mem notSecond]
    simp [Queue.markRemoved]

variable {block : Nat}

theorem find_some (found : queue.find block = some index) :
    index ∈ queue.indices ∧ (queue.entry index).removed = false ∧ (queue.entry index).call.block = block := by
  have holds := find?_some found
  simp only [Bool.and_eq_true, Bool.not_eq_true', beq_iff_eq] at holds
  exact ⟨mem_of_find?_eq_some found, holds⟩

theorem find_none (absent : queue.find block = none) : block ∉ (queue.live queue.indices).map Call.block := by
  intro member
  obtain ⟨call, live, rfl⟩ := mem_map.mp member
  obtain ⟨entry, kept, rfl⟩ := mem_map.mp live
  obtain ⟨inside, present⟩ := mem_filter.mp kept
  obtain ⟨index, held, rfl⟩ := mem_map.mp inside
  have refused := find?_eq_none.mp absent index held
  simp_all

/-!
## Statuses and sets
-/

theorem trace_append (status : Status) (first second : List Call) :
    trace status (first ++ second) = (trace status first).bind fun middle => trace middle second :=
  foldlM_append ..

@[simp] theorem trace_single (status : Status) (call : Call) : trace status [call] = call.next status := by
  cases next : call.next status <;> simp [trace, next]

variable {calls : List Call}

@[simp] theorem ofBlock_append (block : Nat) (first second : List Call) :
    ofBlock block (first ++ second) = ofBlock block first ++ ofBlock block second :=
  filter_append ..

theorem ofBlock_cons_self (call : Call) (rest : List Call) :
    ofBlock call.block (call :: rest) = call :: ofBlock call.block rest :=
  filter_cons_of_pos (by simp)

theorem ofBlock_cons_other {call : Call} (differs : call.block ≠ block)
    (rest : List Call) : ofBlock block (call :: rest) = ofBlock block rest :=
  filter_cons_of_neg (by simpa using differs)

theorem ofBlock_absent (absent : block ∉ calls.map Call.block) : ofBlock block calls = [] :=
  filter_eq_nil_iff.mpr fun call member => by
    simpa using fun same => absent (mem_map.mpr ⟨call, member, same⟩)

/-- A legal call after a legal call for the same kind of set takes it back. -/
theorem next_next {queued call : Call} {before status after : Status} (first : queued.next before = some status)
    (second : call.next status = some after) (kind : queued.tmp = call.tmp) :
    queued.free ≠ call.free ∧ after = before := by
  obtain ⟨_, queuedTmp, queuedFree⟩ := queued
  obtain ⟨_, tmp, free⟩ := call
  obtain rfl : queuedTmp = tmp := kind
  cases before <;> cases queuedTmp <;> cases queuedFree <;> cases free <;>
    simp [Call.next] at first <;> subst first <;> simp_all [Call.next]

theorem change_member {call : Call} {status later : Status} (below : Bool) (legal : call.next status = some later) :
    (if call.free then addFree else addAllocated) below call.tmp (status.member below) = some (later.member below) := by
  obtain ⟨_, tmp, free⟩ := call
  cases status <;> cases tmp <;> cases free <;> simp [Call.next] at legal <;> subst legal <;> cases below <;> rfl

variable {minFreeBlock : Nat}

theorem apply_setsOf {call : Call} {status : Nat → Status} {later : Status}
    (legal : call.next (status call.block) = some later) :
    call.apply minFreeBlock (setsOf minFreeBlock status) =
      some (setsOf minFreeBlock (update status call.block later)) := by
  rw [Call.apply]
  simp only [setsOf, change_member _ legal]
  refine congrArg some (funext fun block => ?_)
  by_cases same : block = call.block
  · subst same
    simp [setsOf]
  · simp [setsOf, update_of_ne same]

variable {status final : Nat → Status}

theorem trace_step {call : Call} {rest : List Call}
    (traced : ∀ block, trace (status block) (ofBlock block (call :: rest)) = some (final block)) :
    ∃ later, call.next (status call.block) = some later ∧ ∀ block,
      trace (update status call.block later block) (ofBlock block rest) = some (final block) := by
  have mine := traced call.block
  rw [ofBlock_cons_self, trace, foldlM_cons] at mine
  obtain ⟨later, legal, mine⟩ := Option.bind_eq_some_iff.mp mine
  refine ⟨later, legal, fun block => ?_⟩
  by_cases same : block = call.block
  · subst same
    rw [update_self]
    exact mine
  · rw [update_of_ne same, ← ofBlock_cons_other (Ne.symm same)]
    exact traced block

variable {after : Status}

theorem traced_append {call : Call} (traced : ∀ block, trace (status block) (ofBlock block calls) = some (final block))
    (legal : call.next (final call.block) = some after) (block : Nat) :
    trace (status block) (ofBlock block (calls ++ [call])) = some (update final call.block after block) := by
  rw [ofBlock_append, trace_append, traced block]
  by_cases same : block = call.block
  · subst same
    rw [update_self, ofBlock_cons_self]
    exact (trace_single ..).trans legal
  · rw [update_of_ne same, ofBlock_cons_other (Ne.symm same)]
    rfl

/-- The sets are those of the statuses `base`, and the calls that wait lead from there to
the statuses `ghost` of all calls. -/
structure Accounts (minFreeBlock : Nat) (base ghost : Nat → Status) (system : System) : Prop where
  head : system.queue.head < queueLen
  tail : system.queue.tail < queueLen
  sets : system.sets = setsOf minFreeBlock base
  traced : ∀ block, trace (base block) (ofBlock block system.pending) = some (ghost block)
  single : ((system.queue.live system.queue.indices).map Call.block).Nodup
  copied : ∀ entry, system.applying = some entry →
    system.queue.updating = true ∧ system.queue.head ≠ system.queue.tail ∧
      (system.queue.entry system.queue.head).call = entry.call ∧
      (entry.removed = true → (system.queue.entry system.queue.head).removed = true)

variable {base ghost : Nat → Status} {system : System}

theorem Accounts.indices_eq (accounts : Accounts minFreeBlock base ghost system)
    (applying : system.applying = some entry) :
    system.queue.indices = system.queue.head :: system.queue.indices.tail := by
  rw [indices_cons accounts.head accounts.tail (accounts.copied entry applying).2.1]
  rfl

theorem waiting_sublist (system : System) : system.waiting.Sublist system.queue.indices := by
  unfold System.waiting
  split
  · exact .refl _
  · exact tail_sublist _

section

variable (accounts : Accounts minFreeBlock base ghost system)

include accounts

theorem Accounts.append {call : Call} (legal : call.next (ghost call.block) = some after)
    (absent : call.block ∉ (system.queue.live system.queue.indices).map Call.block)
    (added : Appended system.queue ⟨call, false⟩ later) :
    Accounts minFreeBlock base (update ghost call.block after) { system with queue := later } := by
  have appends : ∀ indices, indices ⊆ system.queue.indices →
      later.live (indices ++ [system.queue.tail]) = system.queue.live indices ++ [call] := by
    intro indices inside
    rw [live_append, live_congr fun index member => added.old index (inside member), live_cons, added.new]
    rfl
  have pending : System.pending { system with queue := later } = system.pending ++ [call] := by
    simp only [System.pending, System.applied, System.waiting, added.indices]
    cases applying : system.applying with
    | none => exact appends _ (List.Subset.refl _)
    | some entry =>
    have cons := accounts.indices_eq applying
    have tails : (system.queue.indices ++ [system.queue.tail]).tail =
        system.queue.indices.tail ++ [system.queue.tail] := by
      rw [cons]
      rfl
    simp only [tails, appends _ (tail_sublist _).subset, append_assoc]
  refine ⟨added.head ▸ accounts.head, added.tail, accounts.sets, ?_, ?_, ?_⟩
  · rw [pending]
    exact traced_append accounts.traced legal
  · simp only [added.indices, appends _ (List.Subset.refl _), map_append]
    refine nodup_append.mpr ⟨accounts.single, nodup_singleton _, ?_⟩
    rintro block member other only rfl
    exact absent (mem_singleton.mp only ▸ member)
  · intro entry applying
    obtain ⟨updating, nonempty, same⟩ := accounts.copied entry applying
    have member : system.queue.head ∈ system.queue.indices := accounts.indices_eq applying ▸ mem_cons_self
    exact ⟨added.updating.trans updating, added.nonempty, by rw [added.head, added.old _ member]; exact same⟩

theorem Accounts.takes_back {call queued : Call} {before : List Call}
    (last : ofBlock call.block system.pending = before ++ [queued]) (legal : call.next (ghost call.block) = some after)
    (kind : queued.tmp = call.tmp) : queued.free ≠ call.free ∧ trace (base call.block) before = some after := by
  have traced := accounts.traced call.block
  rw [last, trace_append] at traced
  obtain ⟨middle, reached, next⟩ := Option.bind_eq_some_iff.mp traced
  rw [trace_single] at next
  obtain ⟨free, rfl⟩ := next_next next legal kind
  exact ⟨free, reached⟩

theorem Accounts.cancel {call : Call} (legal : call.next (ghost call.block) = some after)
    (waits : index ∈ system.waiting) (present : (system.queue.entry index).removed = false)
    (mine : (system.queue.entry index).call.block = call.block)
    (kind : (system.queue.entry index).call.tmp = call.tmp)
    (apart : system.applying ≠ none → index ≠ system.queue.head) : (system.queue.entry index).call.free ≠ call.free ∧
    Accounts minFreeBlock base (update ghost call.block after)
      { system with queue := system.queue.markRemoved index } := by
  have nodup := (indices_nodup system.queue).sublist (waiting_sublist system)
  have inside := (waiting_sublist system).subset waits
  obtain ⟨before, behind, live, marked⟩ := live_markRemoved nodup waits present
  have single : ((system.queue.live system.waiting).map Call.block).Nodup := accounts.single.sublist
      (((((waiting_sublist system).map _).filter _).map Entry.call).map Call.block)
  rw [live, map_append, map_cons, mine] at single
  obtain ⟨-, cons, differ⟩ := nodup_append.mp single
  have noneBefore := ofBlock_absent fun member => differ _ member _ mem_cons_self rfl
  have noneBehind := ofBlock_absent (nodup_cons.mp cons).1
  have last : ofBlock call.block system.pending =
      ofBlock call.block system.applied ++ [(system.queue.entry index).call] := by
    rw [System.pending, live, ofBlock_append, ofBlock_append, noneBefore, ← mine, ofBlock_cons_self, mine, noneBehind]
    rfl
  have pending : System.pending { system with queue := system.queue.markRemoved index } =
      system.applied ++ (before ++ behind) := by
    exact congrArg (system.applied ++ ·) marked
  obtain ⟨differs, reached⟩ := accounts.takes_back last legal kind
  refine ⟨differs, accounts.head, accounts.tail, accounts.sets, fun block => ?_, ?_, ?_⟩
  · rw [pending]
    by_cases same : block = call.block
    · subst same
      rw [update_self, ofBlock_append, ofBlock_append, noneBefore, noneBehind]
      simpa using reached
    · have traced := accounts.traced block
      rw [System.pending, live] at traced
      rw [update_of_ne same]
      simpa [ofBlock_cons_other (mine.trans_ne (Ne.symm same))] using traced
  · obtain ⟨first, second, all, left⟩ := live_markRemoved (indices_nodup system.queue) inside present
    refine accounts.single.sublist (Sublist.map Call.block ?_)
    rw [all]
    exact left.symm ▸ (sublist_cons_self ..).append_left first
  · intro entry applying
    have other : system.queue.head ≠ index := fun same =>
      apart (by rw [applying]; nofun) same.symm
    have unchanged : (system.queue.markRemoved index).entry system.queue.head =
        system.queue.entry system.queue.head := markRemoved_other other
    exact unchanged ▸ accounts.copied entry applying

/-- A call while its entry is being applied: the entry is done with, and the call waits. -/
theorem Accounts.behind (applying : system.applying = some entry)
    (present : (system.queue.entry system.queue.head).removed = false) :
    ofBlock entry.call.block system.pending = [entry.call] ∧
      entry.call.block ∉ ((system.queue.markRemoved system.queue.head).live system.queue.indices).map Call.block ∧
      Accounts minFreeBlock base ghost { system with queue := system.queue.markRemoved system.queue.head } := by
  obtain ⟨updating, nonempty, same, flagged⟩ := accounts.copied entry applying
  have cons := accounts.indices_eq applying
  have nodup := indices_nodup system.queue
  have single := accounts.single
  rw [cons] at nodup
  rw [cons, live_cons, present, same] at single
  have outside := (nodup_cons.mp nodup).1
  have absent := (nodup_cons.mp single).1
  have kept : entry.removed = false := by
    cases removed : entry.removed with
    | false => rfl
    | true => exact absurd (flagged removed) (by simp [present])
  have marked : (system.queue.markRemoved system.queue.head).live system.queue.indices =
      system.queue.live system.queue.indices.tail := by
    rw [cons, live_cons, tail_cons, live_markRemoved_of_not_mem outside]
    simp [Queue.markRemoved]
  refine ⟨?_, marked ▸ absent, accounts.head, accounts.tail, accounts.sets, ?_, ?_, ?_⟩
  · simp only [System.pending, System.applied, System.waiting, applying, kept]
    exact (ofBlock_cons_self ..).trans (congrArg _ (ofBlock_absent absent))
  · have pending : System.pending
        { system with queue := system.queue.markRemoved system.queue.head } = system.pending := by
      simp only [System.pending, System.applied, System.waiting, applying]
      exact congrArg _ (live_markRemoved_of_not_mem outside)
    rw [pending]
    exact accounts.traced
  · exact marked ▸ (nodup_cons.mp single).2
  · intro copy copying
    cases applying.symm.trans copying
    refine ⟨updating, nonempty, ?_, fun _ => ?_⟩ <;> simp [Queue.markRemoved, same]

end

theorem Accounts.call (accounts : Accounts minFreeBlock base ghost system) {call : Call}
    (legal : call.next (ghost call.block) = some after)
    (enabled : ¬(system.queue.updating = true ∧ system.applying = none)) :
    (∃ stop, stop ≠ .assertFailed ∧ system.queue.add call = .error stop) ∨ ∃ later, system.queue.add call = .ok later ∧
      Accounts minFreeBlock base (update ghost call.block after) { system with queue := later } := by
  have appends : ∀ {queue : Queue}, Accounts minFreeBlock base ghost { system with queue } →
      call.block ∉ (queue.live queue.indices).map Call.block →
      (∃ stop, stop ≠ .assertFailed ∧ queue.append ⟨call, false⟩ = .error stop) ∨ ∃ later, queue.append ⟨call, false⟩ = .ok later ∧
        Accounts minFreeBlock base (update ghost call.block after) { system with queue := later } := by
    intro queue accounts absent
    cases appended : queue.append ⟨call, false⟩ with
    | error stop => exact .inl ⟨.full, nofun, by rw [append_error appended]⟩
    | ok later =>
    exact .inr ⟨later, rfl, accounts.append legal absent (append_ok accounts.head accounts.tail appended)⟩
  simp only [Queue.add]
  cases found : system.queue.find call.block with
  | none => exact appends accounts (find_none found)
  | some index =>
  obtain ⟨inside, present, mine⟩ := find_some found
  dsimp only
  split
  · exact .inl ⟨.otherTmp, nofun, rfl⟩
  rename_i kind
  rw [not_not] at kind
  by_cases first : index ≠ system.queue.head ∨ system.queue.updating = false
  · have apart : system.applying ≠ none → index ≠ system.queue.head := by
      intro applying
      obtain ⟨entry, applying⟩ := Option.ne_none_iff_exists'.mp applying
      exact first.resolve_right (by simp [(accounts.copied entry applying).1])
    have waits : index ∈ system.waiting := by
      cases applying : system.applying with
      | none => simpa only [System.waiting, applying] using inside
      | some entry =>
      rw [accounts.indices_eq applying] at inside
      simpa only [System.waiting, applying] using (mem_cons.mp inside).resolve_left (apart (by simp [applying]))
    obtain ⟨differs, cancelled⟩ := accounts.cancel legal waits present mine kind apart
    rw [if_neg differs, if_pos first]
    exact .inr ⟨_, rfl, cancelled⟩
  · obtain ⟨rfl, updating⟩ : index = system.queue.head ∧ system.queue.updating = true := by
      simpa using first
    obtain ⟨entry, applying⟩ := Option.ne_none_iff_exists'.mp fun idle =>
      enabled ⟨updating, idle⟩
    obtain ⟨last, absent, marked⟩ := accounts.behind applying present
    have same := (accounts.copied entry applying).2.2.1
    rw [← same] at last absent
    rw [mine] at last absent
    have alone : ofBlock call.block system.pending = [] ++ [_] := last
    have differs := (accounts.takes_back alone legal kind).1
    rw [if_neg differs, if_neg first]
    exact appends marked absent

/-!
## Processing
-/

theorem Accounts.peek (accounts : Accounts minFreeBlock base ghost system) (updating : system.queue.updating = true)
    (idle : system.applying = none) (nonempty : system.queue.head ≠ system.queue.tail) :
    Accounts minFreeBlock base ghost { system with
      applying := some (system.queue.entry system.queue.head)
      loopLimit := system.loopLimit - 1 } := by
  have pending : System.pending { system with
      applying := some (system.queue.entry system.queue.head)
      loopLimit := system.loopLimit - 1 } = system.pending := by
    simp only [System.pending, System.applied, System.waiting, idle]
    rw [indices_cons accounts.head accounts.tail nonempty, live_cons]
    rfl
  refine { accounts with traced := fun block => pending ▸ accounts.traced block, copied := ?_ }
  rintro entry ⟨⟩
  exact ⟨updating, nonempty, rfl, id⟩

theorem Accounts.finish (accounts : Accounts minFreeBlock base ghost system) (applying : system.applying = some entry) :
    ∃ later base', system.finish minFreeBlock entry = .ok later ∧ Accounts minFreeBlock base' ghost later := by
  obtain ⟨-, nonempty, same, -⟩ := accounts.copied entry applying
  have cons := indices_cons accounts.head accounts.tail nonempty
  have single := accounts.single
  rw [cons, live_cons, map_append] at single
  have traced := accounts.traced
  simp only [System.pending, System.applied, System.waiting, applying, cons, tail_cons] at traced
  have moves : ∀ {sets : Sets} {base' : Nat → Status}, sets = setsOf minFreeBlock base' →
      (∀ block, trace (base' block) (ofBlock block (system.queue.live
        (Queue.indices { system.queue with head := (system.queue.head + 1) % queueLen }))) = some (ghost block)) →
      Accounts minFreeBlock base' ghost { system with
        queue := { system.queue with head := (system.queue.head + 1) % queueLen }
        applying := none
        sets } :=
    fun sets onward => ⟨Nat.mod_lt _ (by decide), accounts.tail, sets, onward, (nodup_append.mp single).2.1, nofun⟩
  simp only [System.finish, same]
  cases removed : entry.removed with
  | true =>
    simp only [removed, if_pos] at traced ⊢
    exact ⟨_, base, rfl, moves accounts.sets traced⟩
  | false =>
  simp only [removed] at traced ⊢
  obtain ⟨later, legal, onward⟩ := trace_step traced
  rw [accounts.sets, if_neg nofun, apply_setsOf legal]
  exact ⟨_, _, rfl, moves rfl onward⟩

def Sound (minFreeBlock : Nat) (ghost : Nat → Status) : Except Stop System → Prop
  | .error stop => stop ≠ .assertFailed
  | .ok system => ∃ base, Accounts minFreeBlock base ghost system

theorem Accounts.step (accounts : Accounts minFreeBlock base ghost system) {event : Event}
    (legal : ∀ block, trace (ghost block) (ofBlock block (Event.calls [event])) = some (final block)) : Sound minFreeBlock final (step minFreeBlock system event) := by
  cases event with
  | call call =>
    obtain ⟨after, next, same⟩ := trace_step legal
    obtain rfl : update ghost call.block after = final :=
      funext fun block => Option.some.inj (same block)
    by_cases blocked : system.queue.updating = true ∧ system.applying = none
    · rw [AllocatorQueue.step, if_pos blocked]
      nofun
    rw [AllocatorQueue.step, if_neg blocked]
    rcases accounts.call next blocked with ⟨stop, other, stopped⟩ | ⟨queue, added, kept⟩
    · rw [stopped]
      exact other
    · rw [added]
      exact ⟨base, kept⟩
  | start =>
    obtain rfl : ghost = final := funext fun block => Option.some.inj (legal block)
    simp only [AllocatorQueue.step]
    split
    · nofun
    · exact ⟨base, { accounts with
        copied := fun entry applying => ⟨rfl, (accounts.copied entry applying).2⟩ }⟩
  | peek =>
    obtain rfl : ghost = final := funext fun block => Option.some.inj (legal block)
    simp only [AllocatorQueue.step]
    split
    case isFalse => nofun
    case isTrue ready =>
    split
    · exact ⟨base, accounts.peek ready.1 ready.2.1 ready.2.2⟩
    · nofun
  | finish =>
    obtain rfl : ghost = final := funext fun block => Option.some.inj (legal block)
    cases applying : system.applying with
    | none =>
      simp only [AllocatorQueue.step, applying]
      nofun
    | some entry =>
    obtain ⟨later, applied, finished, kept⟩ := accounts.finish applying
    simp only [AllocatorQueue.step, applying, finished]
    exact ⟨applied, kept⟩
  | stop =>
    obtain rfl : ghost = final := funext fun block => Option.some.inj (legal block)
    simp only [AllocatorQueue.step]
    split
    case isTrue idle =>
      refine ⟨base, { accounts with copied := fun entry applying => ?_ }⟩
      cases idle.2.1.symm.trans applying
    case isFalse => nofun

theorem Accounts.run (events : List Event) (accounts : Accounts minFreeBlock base ghost system)
    (legal : ∀ block, trace (ghost block) (ofBlock block (Event.calls events)) = some (final block)) :
    Sound minFreeBlock final (run minFreeBlock system events) := by
  induction events generalizing base ghost system with
  | nil =>
    obtain rfl : ghost = final := funext fun block => Option.some.inj (legal block)
    exact ⟨base, accounts⟩
  | cons event rest ih =>
  have calls : Event.calls (event :: rest) = Event.calls [event] ++ Event.calls rest := by
    cases event <;> rfl
  have parts : ∀ block, ∃ middle,
      trace (ghost block) (ofBlock block (Event.calls [event])) = some middle ∧
        trace middle (ofBlock block (Event.calls rest)) = some (final block) := by
    intro block
    have whole := legal block
    rw [calls, ofBlock_append, trace_append] at whole
    exact Option.bind_eq_some_iff.mp whole
  choose middle first second using parts
  have sound := accounts.step first
  rw [AllocatorQueue.run, foldlM_cons]
  cases stepped : AllocatorQueue.step minFreeBlock system event with
  | error stop =>
    rw [stepped] at sound
    exact sound
  | ok later =>
  rw [stepped] at sound
  obtain ⟨base', kept⟩ := sound
  exact ih kept second

/-- The set of the transaction that holds the allocated blocks of one kind. -/
def Member.holds (member : Member) (tmp : Bool) : Bool :=
  if tmp then member.tmpAllocated else member.allocated

end Trusty.Storage.AllocatorQueue
