import Trusty.Keymaster.ConfinementProperties

/-!
The representation of authorization sets: what every call keeps, and what a call
that adds parameters leaves.
-/

namespace Trusty.Keymaster.AuthSet

open List

open LittleEndian (encode decode decode_take)

variable {w : Nat} {set : AuthSet}

structure Rep (set : AuthSet) : Prop where
  elemsFit : set.elems.length ≤ set.elemsCapacity
  elemsAllocated : set.elemsCapacity ≤ set.elemsAllocated
  indirectFit : set.indirectSize ≤ set.indirectCapacity
  indirectAllocated : set.indirectCapacity = set.indirect.length
  inside : ∀ param ∈ set.elems, SetParam.Inside set.indirectSize param

structure Sound (w : Nat) (set : AuthSet) : Prop extends Rep set where
  elemsBound : set.elemsCapacity * paramSize w < 2 ^ w
  indirectBound : set.indirectCapacity < 2 ^ w

theorem sound_freed (error : SetError) : Sound w (freed error) where
  elemsFit := le_rfl
  elemsAllocated := le_rfl
  indirectFit := le_rfl
  indirectAllocated := rfl
  inside _ member := nomatch member
  elemsBound := by
    change 0 * paramSize w < 2 ^ w
    rw [Nat.zero_mul]
    exact Nat.two_pow_pos w
  indirectBound := Nat.two_pow_pos w

/-!
## Data that moves
-/

theorem take_drop_of_inside {data : List UInt8} {size offset length : Nat} (inside : offset + length ≤ size) :
    ((data.take size).drop offset).take length = (data.drop offset).take length := by
  rw [drop_take, take_take, min_eq_left (by omega)]

theorem view_congr {after : AuthSet} (elems : after.elems = set.elems)
    (data : after.indirect.take set.indirectSize = set.indirect.take set.indirectSize)
    (inside : ∀ param ∈ set.elems, SetParam.Inside set.indirectSize param) : after.view = set.view := by
  unfold view
  rw [elems]
  apply map_congr_left
  intro param member
  have same (blob : param.tag.isBlob = true) : after.blobData param.blob = set.blobData param.blob := by
    have bound := inside param member blob
    unfold blobData
    rw [← take_drop_of_inside bound, data, take_drop_of_inside bound]
  unfold value
  cases kind : Tag.type param.tag with
  | bignum | bytes => rw [same (by simp [Tag.isBlob, kind])]
  | _ => rfl

/-!
## Storage
-/

theorem reserveElems_spec (sound : Sound w set) {count : Nat} (enough : set.elems.length ≤ count) (allocated : Bool) :
    ∃ returned, set.reserveElems w count allocated = some returned ∧ Sound w returned.set ∧
      (returned.done = true → count ≤ returned.set.elemsCapacity ∧
        returned.set.elems = set.elems ∧ returned.set.indirect = set.indirect ∧
        returned.set.indirectSize = set.indirectSize ∧
        returned.set.indirectCapacity = set.indirectCapacity) := by
  unfold reserveElems
  split
  · exact ⟨_, rfl, sound, nofun⟩
  split
  next grows =>
    split
    · exact ⟨_, rfl, sound_freed _, nofun⟩
    next room =>
    rw [if_neg (by omega)]
    have possible : elemsAllocate w allocated count = true := by simpa using room
    have fits : count * paramSize w < 2 ^ w := of_decide_eq_true (Bool.and_eq_true_iff.mp possible).2
    refine ⟨_, rfl, ?_, fun _ => ⟨le_rfl, rfl, rfl, rfl, rfl⟩⟩
    exact { sound with
      elemsFit := enough
      elemsAllocated := le_rfl
      elemsBound := fits }
  next large =>
  exact ⟨_, rfl, sound, fun _ => ⟨by dsimp only; omega, rfl, rfl, rfl, rfl⟩⟩

theorem reserveIndirect_spec (sound : Sound w set) {length : Nat}
    (enough : set.indirectSize ≤ length) (fits : length < 2 ^ w) (allocated : Bool) :
    ∃ returned, set.reserveIndirect length allocated = some returned ∧ Sound w returned.set ∧
      (returned.done = true → length ≤ returned.set.indirectCapacity ∧
        returned.set.elems = set.elems ∧ returned.set.elemsCapacity = set.elemsCapacity ∧
        returned.set.indirectSize = set.indirectSize ∧ returned.set.view = set.view) := by
  unfold reserveIndirect
  split
  · exact ⟨_, rfl, sound, nofun⟩
  split
  next grows =>
    split
    · exact ⟨_, rfl, sound_freed _, nofun⟩
    rw [if_neg (by omega)]
    have used : (set.indirect.take set.indirectSize).length = set.indirectSize := by
      have bound := sound.indirectFit
      have same := sound.indirectAllocated
      rw [length_take]
      omega
    refine ⟨_, rfl, ?_, fun _ => ⟨le_rfl, rfl, rfl, rfl, ?_⟩⟩
    · exact { sound with
        indirectFit := enough
        indirectAllocated := by
          dsimp only
          rw [length_append, used, length_replicate]
          omega
        indirectBound := fits }
    · refine view_congr rfl ?_ sound.inside
      rw [take_append_of_le_length (by omega), take_take, min_self]
  next large =>
  exact ⟨_, rfl, sound, fun _ => ⟨by dsimp only; omega, rfl, rfl, rfl, rfl⟩⟩

/-!
## One parameter
-/

theorem appendBlob_spec (sound : Sound w set) {data : List UInt8}
    (room : set.indirectSize + data.length ≤ set.indirectCapacity) :
    ∃ copied, set.appendBlob data = some (copied, ⟨set.indirectSize, data.length⟩) ∧
      Sound w copied ∧ copied.elems = set.elems ∧ copied.elemsCapacity = set.elemsCapacity ∧
      copied.indirectCapacity = set.indirectCapacity ∧
      copied.indirectSize = set.indirectSize + data.length ∧ copied.view = set.view ∧
      copied.blobData ⟨set.indirectSize, data.length⟩ = data := by
  have allocated := sound.indirectAllocated
  have used : (set.indirect.take set.indirectSize).length = set.indirectSize := by
    rw [length_take]
    omega
  unfold appendBlob writeIndirect
  rw [if_pos (by omega)]
  refine ⟨_, rfl, ?_, rfl, rfl, rfl, rfl, ?_, ?_⟩
  · exact { sound with
      indirectFit := room
      indirectAllocated := by
        dsimp only
        rw [length_append, length_append, used, length_drop]
        omega
      inside := by
        intro param member blob
        have bound := sound.inside param member blob
        dsimp only
        omega }
  · refine view_congr rfl ?_ sound.inside
    rw [append_assoc, take_append_of_le_length (by omega), take_take, min_self]
  · unfold blobData
    dsimp only
    rw [append_assoc, drop_append_of_le_length (by omega), drop_of_length_le
      (by omega), nil_append, take_append_of_le_length le_rfl, take_length]

theorem storeElem_spec (sound : Sound w set) (room : set.elems.length < set.elemsCapacity)
    {elem : SetParam} (inside : SetParam.Inside set.indirectSize elem) :
    ∃ returned, set.storeElem elem = some returned ∧ Sound w returned.set ∧
      returned.done = true ∧ returned.set.elems.length = set.elems.length + 1 ∧
      returned.set.elemsCapacity = set.elemsCapacity ∧
      returned.set.indirectCapacity = set.indirectCapacity ∧
      returned.set.indirectSize = set.indirectSize ∧
      returned.set.view = set.view ++ [(elem.tag, value set.blobData elem)] := by
  have allocated := sound.elemsAllocated
  unfold storeElem
  rw [if_pos (by omega)]
  refine ⟨_, rfl, ?_, rfl, by simp, rfl, rfl, rfl, ?_⟩
  · exact { sound with
      elemsFit := by
        dsimp only
        rw [length_append, length_singleton]
        omega
      inside := by
        intro param member
        rcases mem_append.mp member with old | new
        · exact sound.inside param old
        · rw [mem_singleton.mp new]
          exact inside }
  · unfold view
    rw [map_append]
    rfl

section

variable {Blob Other : Type} {data : Blob → List UInt8} {others : Other → List UInt8}
  {param : Param Blob} {other : Param Other}

theorem value_of_not_blob (notBlob : param.tag.isBlob = false) (tag : other.tag = param.tag)
    (word : other.word = param.word) : value others other = value data param := by
  unfold value
  rw [tag]
  cases kind : Tag.type param.tag with
  | bignum | bytes => simp [Tag.isBlob, kind] at notBlob
  | _ => simp only [Param.integer, Param.longInteger, Param.boolean, word]

theorem value_of_blob (tag : other.tag = param.tag) (word : other.word = param.word)
    (same : others other.blob = data param.blob) : value others other = value data param := by
  unfold value
  rw [tag, same]
  cases Tag.type param.tag with
  | _ => simp only [Param.integer, Param.longInteger, Param.boolean, word]

end

def need (elem : KeyParam) : Nat := if elem.tag.isBlob then elem.blob.length else 0

theorem Sound.free (sound : Sound w set) : (set.indirectCapacity + 2 ^ w - set.indirectSize) % 2 ^ w =
      set.indirectCapacity - set.indirectSize := by
  have fit := sound.indirectFit
  have bound := sound.indirectBound
  have shifted : set.indirectCapacity + 2 ^ w - set.indirectSize =
      set.indirectCapacity - set.indirectSize + 2 ^ w := by omega
  rw [shifted, Nat.add_mod_right]
  exact Nat.mod_eq_of_lt (by omega)

variable {allocated : Bool}

theorem reserveBlob_roomy (sound : Sound w set) {length : Nat}
    (room : set.indirectSize + length ≤ set.indirectCapacity) :
    set.reserveBlob w length allocated = some ⟨true, set⟩ := by
  unfold reserveBlob
  rw [sound.free, if_neg (by omega)]

variable {elem : KeyParam}

theorem pushReserved_roomy (sound : Sound w set) (room : set.elems.length < set.elemsCapacity)
    (data : set.indirectSize + need elem ≤ set.indirectCapacity) :
    ∃ returned, set.pushReserved w elem allocated = some returned ∧ Sound w returned.set ∧
      returned.done = true ∧ returned.set.elems.length = set.elems.length + 1 ∧
      returned.set.elemsCapacity = set.elemsCapacity ∧
      returned.set.indirectCapacity = set.indirectCapacity ∧
      returned.set.indirectSize = set.indirectSize + need elem ∧
      returned.set.view = set.view ++ [viewParam elem] := by
  unfold pushReserved need at *
  cases blob : Tag.isBlob elem.tag with
  | false =>
    have inside : SetParam.Inside set.indirectSize ⟨elem.tag, elem.word, ⟨0, 0⟩⟩ :=
      fun isBlob => nomatch blob.symm.trans isBlob
    obtain ⟨returned, stored, kept, done, length, elems, capacity, size, seen⟩ := storeElem_spec sound room inside
    refine ⟨returned, stored, kept, done, length, elems, capacity, size, ?_⟩
    rw [seen]
    unfold viewParam
    rw [@value_of_not_blob (List UInt8) Slice id set.blobData elem ⟨elem.tag, elem.word, ⟨0, 0⟩⟩ blob rfl rfl]
  | true =>
  simp only [blob, if_true] at data ⊢
  rw [reserveBlob_roomy sound data]
  dsimp only
  obtain ⟨copied, appended, kept, same, elems, capacity, size, seen, held⟩ := appendBlob_spec sound data
  rw [appended]
  have inside : SetParam.Inside copied.indirectSize ⟨elem.tag, elem.word, ⟨set.indirectSize, elem.blob.length⟩⟩ := by
    intro _
    dsimp only
    omega
  obtain ⟨returned, stored, after, done, length, elemsAfter, capacityAfter, sizeAfter,
    seenAfter⟩ := storeElem_spec kept (by rw [same, elems]; exact room) inside
  refine ⟨returned, stored, after, done, by rw [length, same], elemsAfter.trans elems,
    capacityAfter.trans capacity, sizeAfter.trans size, ?_⟩
  rw [seenAfter, seen]
  unfold viewParam
  rw [@value_of_blob (List UInt8) Slice id copied.blobData elem
    ⟨elem.tag, elem.word, ⟨set.indirectSize, elem.blob.length⟩⟩ rfl rfl held]

/-- A size that `push_back` asks for can be represented. -/
def Sized (w : Nat) (set : AuthSet) (elem : KeyParam) : Prop :=
  set.indirectCapacity - set.indirectSize < need elem →
    2 * (set.indirectCapacity + elem.blob.length) < 2 ^ w

theorem pushReserved_of_reserved {ready : AuthSet} (blob : elem.tag.isBlob = true)
    (reserved : set.reserveBlob w elem.blob.length allocated = some ⟨true, ready⟩)
    (again : ready.reserveBlob w elem.blob.length allocated = some ⟨true, ready⟩) :
    set.pushReserved w elem allocated = ready.pushReserved w elem allocated := by
  unfold pushReserved
  rw [if_pos blob, if_pos blob, reserved, again]

theorem pushReserved_spec (sound : Sound w set) (sized : Sized w set elem) (room : set.elems.length < set.elemsCapacity)
    (allocated : Bool) :
    ∃ returned, set.pushReserved w elem allocated = some returned ∧ Sound w returned.set ∧
      (returned.done = true → returned.set.view = set.view ++ [viewParam elem]) := by
  have fit := sound.indirectFit
  rcases lt_or_ge (set.indirectCapacity - set.indirectSize) (need elem) with small | large
  · -- The blob does not fit, so its storage is reserved first.
    have blob : elem.tag.isBlob = true := by
      by_contra notBlob
      unfold need at small
      rw [if_neg notBlob] at small
      omega
    have length : need elem = elem.blob.length := if_pos blob
    have representable := sized small
    obtain ⟨returned, reserved, kept, grown⟩ := reserveIndirect_spec sound
      (show set.indirectSize ≤ 2 * (set.indirectCapacity + elem.blob.length) by omega)
      representable allocated
    have asked : set.reserveBlob w elem.blob.length allocated = some returned := by
      unfold reserveBlob
      rw [sound.free, if_pos (by omega), Nat.mod_eq_of_lt representable]
      exact reserved
    obtain ⟨done, ready⟩ := returned
    cases done with
    | false =>
      refine ⟨⟨false, ready⟩, ?_, kept, nofun⟩
      unfold pushReserved
      rw [if_pos blob, asked]
    | true =>
    obtain ⟨capacity, elems, elemsCapacity, size, seen⟩ := grown rfl
    dsimp only at kept capacity elems elemsCapacity size seen
    have roomy : ready.indirectSize + need elem ≤ ready.indirectCapacity := by omega
    rw [pushReserved_of_reserved blob asked (reserveBlob_roomy kept (by omega))]
    obtain ⟨after, pushed, soundAfter, _, _, _, _, _, seenAfter⟩ :=
      @pushReserved_roomy w ready allocated elem kept (by rw [elems, elemsCapacity]; exact room) roomy
    exact ⟨after, pushed, soundAfter, fun _ => by rw [seenAfter, seen]⟩
  · obtain ⟨after, pushed, soundAfter, _, _, _, _, _, seenAfter⟩ :=
      @pushReserved_roomy w set allocated elem sound room (by omega)
    exact ⟨after, pushed, soundAfter, fun _ => seenAfter⟩

theorem paramSize_ge (w : Nat) : 16 ≤ paramSize w := by
  unfold paramSize
  split
  · exact le_rfl
  · decide

theorem reserveElem_spec (sound : Sound w set) (allocated : Bool) :
    ∃ returned, set.reserveElem w allocated = some returned ∧ Sound w returned.set ∧
      (returned.done = true → returned.set.elems.length < returned.set.elemsCapacity ∧
        returned.set.elems = set.elems ∧ returned.set.indirect = set.indirect ∧
        returned.set.indirectSize = set.indirectSize ∧
        returned.set.indirectCapacity = set.indirectCapacity) := by
  unfold reserveElem
  split
  next full =>
    have fit := sound.elemsFit
    have larger : set.elems.length < (if set.elemsCapacity = 0 then startingElemsCapacity
        else set.elemsCapacity * 2 % 2 ^ w) := by
      split
      next zero =>
        have : startingElemsCapacity = 8 := rfl
        omega
      next positive =>
      have bound := sound.elemsBound
      have sixteen := Nat.mul_le_mul_left set.elemsCapacity (paramSize_ge w)
      rw [Nat.mod_eq_of_lt (by omega)]
      omega
    obtain ⟨returned, reserved, kept, grown⟩ := reserveElems_spec sound (le_of_lt larger) allocated
    refine ⟨returned, reserved, kept, ?_⟩
    intro done
    obtain ⟨capacity, elems, rest⟩ := grown done
    exact ⟨by rw [elems]; omega, elems, rest⟩
  next room =>
  exact ⟨_, rfl, sound, fun _ => ⟨Nat.lt_of_not_le room, rfl, rfl, rfl, rfl⟩⟩

theorem pushBack_spec (sound : Sound w set) (sized : Sized w set elem) (allocations : Allocations) :
    ∃ returned, set.pushBack w elem allocations = some returned ∧ Sound w returned.set ∧
      (returned.done = true → returned.set.view = set.view ++ [viewParam elem]) := by
  unfold pushBack
  split
  · exact ⟨_, rfl, sound, nofun⟩
  obtain ⟨returned, reserved, kept, grown⟩ := reserveElem_spec sound allocations.elems
  rw [reserved]
  obtain ⟨done, ready⟩ := returned
  cases done with
  | false => exact ⟨_, rfl, kept, nofun⟩
  | true =>
  obtain ⟨room, elems, indirect, size, capacity⟩ := grown rfl
  have sizedReady : Sized w ready elem := by
    unfold Sized
    rw [size, capacity]
    exact sized
  obtain ⟨after, pushed, soundAfter, seen⟩ := pushReserved_spec kept sizedReady room allocations.indirect
  refine ⟨after, pushed, soundAfter, ?_⟩
  intro finished
  rw [seen finished, view_congr elems (by rw [indirect]) sound.inside]

/-!
## Several parameters
-/

variable {allocations : Allocations}

theorem pushBack_roomy (valid : set.error = .ok) (room : set.elems.length < set.elemsCapacity) :
    set.pushBack w elem allocations = set.pushReserved w elem allocations.indirect := by
  unfold pushBack reserveElem
  rw [if_neg (by simp [valid]), if_neg (by omega)]

theorem storeElem_error {elem : SetParam} {returned : Returned}
    (stored : set.storeElem elem = some returned) : returned.set.error = set.error := by
  unfold storeElem at stored
  split at stored
  · cases stored
    rfl
  · cases stored

theorem appendBlob_error {data : List UInt8} {copied : AuthSet} {slice : Slice}
    (appended : set.appendBlob data = some (copied, slice)) : copied.error = set.error := by
  unfold appendBlob writeIndirect at appended
  split at appended
  · cases appended
  next written =>
  cases appended
  split at written
  · cases written
    rfl
  · cases written

theorem pushReserved_error (sound : Sound w set) (data : set.indirectSize + need elem ≤ set.indirectCapacity)
    {returned : Returned} (pushed : set.pushReserved w elem allocated = some returned) :
    returned.set.error = set.error := by
  unfold pushReserved at pushed
  split at pushed
  next blob =>
    have length : need elem = elem.blob.length := if_pos blob
    rw [reserveBlob_roomy sound (by omega)] at pushed
    dsimp only at pushed
    split at pushed
    · cases pushed
    next appended => exact (storeElem_error pushed).trans (appendBlob_error appended)
  · exact storeElem_error pushed

theorem dataTotal_cons (elem : KeyParam) (rest : AuthList) :
    dataTotal (elem :: rest) = need elem + dataTotal rest := rfl

variable {elems : AuthList}

theorem pushAll_spec (sound : Sound w set)
    (valid : set.error = .ok) (room : set.elems.length + elems.length ≤ set.elemsCapacity)
    (data : set.indirectSize + dataTotal elems ≤ set.indirectCapacity) :
    ∃ returned, set.pushAll w elems allocations = some returned ∧ Sound w returned.set ∧
      returned.set.view = set.view ++ elems.map viewParam := by
  induction elems generalizing set with
  | nil => exact ⟨_, rfl, sound, (append_nil _).symm⟩
  | cons elem rest ih =>
  rw [dataTotal_cons] at data
  rw [length_cons] at room
  obtain ⟨returned, pushed, kept, done, length, elemsCapacity, capacity, size, seen⟩ :=
    @pushReserved_roomy w set allocations.indirect elem sound (by omega) (by omega)
  have error := pushReserved_error sound (by omega) pushed
  rw [pushAll, pushBack_roomy valid (by omega), pushed]
  obtain ⟨flag, after⟩ := returned
  cases done
  obtain ⟨last, all, keptLast, seenLast⟩ := ih kept (error.trans valid) (by omega) (by omega)
  refine ⟨last, all, keptLast, ?_⟩
  rw [seenLast, seen, append_assoc]
  rfl

theorem reserveIndirect_error {length : Nat} {returned : Returned}
    (reserved : set.reserveIndirect length allocated = some returned)
    (done : returned.done = true) : returned.set.error = .ok := by
  unfold reserveIndirect at reserved
  split at reserved
  · cases reserved
    cases done
  next valid =>
  split at reserved
  · split at reserved
    · cases reserved
      cases done
    split at reserved
    · cases reserved
    · cases reserved
      exact not_not.mp valid
  · cases reserved
    exact not_not.mp valid

theorem pushBackSet_spec (sound : Sound w set) (count : set.elems.length + elems.length < 2 ^ w)
    (total : set.indirectSize + dataTotal elems < 2 ^ w) :
    ∃ returned, set.pushBackSet w elems allocations = some returned ∧ Sound w returned.set ∧
      (returned.done = true → returned.set.view = set.view ++ elems.map viewParam) := by
  unfold pushBackSet
  split
  · exact ⟨_, rfl, sound, nofun⟩
  rw [Nat.mod_eq_of_lt count]
  obtain ⟨returned, reserved, kept, grown⟩ := reserveElems_spec sound
    (Nat.le_add_right set.elems.length elems.length) allocations.elems
  rw [reserved]
  obtain ⟨done, ready⟩ := returned
  cases done with
  | false => exact ⟨_, rfl, kept, nofun⟩
  | true =>
  obtain ⟨room, same, indirect, size, _⟩ := grown rfl
  dsimp only at kept room same indirect size ⊢
  have seen : ready.view = set.view := view_congr same (by rw [indirect]) sound.inside
  have sum : (ready.indirectSize + dataTotal elems % 2 ^ w) % 2 ^ w = ready.indirectSize + dataTotal elems := by
    rw [size, Nat.mod_eq_of_lt (by omega : dataTotal elems < 2 ^ w), Nat.mod_eq_of_lt total]
  rw [sum]
  obtain ⟨after, more, keptAfter, grownAfter⟩ := reserveIndirect_spec kept
    (Nat.le_add_right ready.indirectSize (dataTotal elems)) (by omega) allocations.indirect
  rw [more]
  obtain ⟨doneAfter, roomy⟩ := after
  cases doneAfter with
  | false => exact ⟨_, rfl, keptAfter, nofun⟩
  | true =>
  obtain ⟨data, sameAfter, capacity, sizeAfter, seenAfter⟩ := grownAfter rfl
  dsimp only at keptAfter data sameAfter capacity sizeAfter seenAfter ⊢
  obtain ⟨last, all, keptLast, seenLast⟩ :=
    @pushAll_spec w roomy allocations elems keptAfter (reserveIndirect_error more rfl)
      (by rw [sameAfter, capacity, same]; exact room) (by omega)
  exact ⟨last, all, keptLast, fun _ => by rw [seenLast, seenAfter, seen]⟩

theorem copyIndirectData_eq (sound : Sound w set)
    (data : set.indirectSize + need elem ≤ set.indirectCapacity) (rest : AuthList) :
    copyIndirectData set (elem :: rest) =
      (set.pushReserved w elem true).bind fun stored => copyIndirectData stored.set rest := by
  unfold pushReserved
  rw [copyIndirectData]
  cases blob : Tag.isBlob elem.tag with
  | false =>
    simp only [Bool.false_eq_true, if_false]
    cases set.storeElem ⟨elem.tag, elem.word, ⟨0, 0⟩⟩ with
    | none | some stored => rfl
  | true =>
  have length : need elem = elem.blob.length := if_pos blob
  rw [reserveBlob_roomy sound (by omega)]
  simp only [if_true]
  cases set.appendBlob elem.blob with
  | none => rfl
  | some copied =>
  obtain ⟨ready, slice⟩ := copied
  dsimp only
  cases ready.storeElem ⟨elem.tag, elem.word, slice⟩ with
  | none | some stored => rfl

theorem copyIndirectData_spec (sound : Sound w set) (room : set.elems.length + elems.length ≤ set.elemsCapacity)
    (data : set.indirectSize + dataTotal elems ≤ set.indirectCapacity) :
    ∃ returned, copyIndirectData set elems = some returned ∧ Sound w returned.set := by
  induction elems generalizing set with
  | nil => exact ⟨_, rfl, sound⟩
  | cons elem rest ih =>
  rw [dataTotal_cons] at data
  rw [length_cons] at room
  obtain ⟨returned, pushed, kept, _, length, elemsCapacity, capacity, size, _⟩ :=
    @pushReserved_roomy w set true elem sound (by omega) (by omega)
  rw [copyIndirectData_eq sound (by omega), pushed]
  exact ih kept (by omega) (by omega)

theorem reinitialize_spec (total : dataTotal elems < 2 ^ w) :
    ∃ returned, reinitializeSet w elems allocations = some returned ∧ Sound w returned.set := by
  unfold reinitializeSet
  split
  · exact ⟨_, rfl, sound_freed _⟩
  obtain ⟨returned, reserved, kept, grown⟩ := reserveElems_spec (@sound_freed w .ok)
    (Nat.zero_le elems.length) allocations.elems
  unfold empty
  rw [reserved]
  obtain ⟨done, ready⟩ := returned
  cases done with
  | false => exact ⟨_, rfl, kept⟩
  | true =>
  obtain ⟨room, same, _, size, _⟩ := grown rfl
  dsimp only at kept room same size ⊢
  rw [Nat.mod_eq_of_lt total]
  have none : ready.indirectSize = 0 := size
  obtain ⟨after, more, keptAfter, grownAfter⟩ := reserveIndirect_spec kept
    (show ready.indirectSize ≤ dataTotal elems by omega) total allocations.indirect
  rw [more]
  obtain ⟨doneAfter, roomy⟩ := after
  cases doneAfter with
  | false => exact ⟨_, rfl, keptAfter⟩
  | true =>
  obtain ⟨data, sameAfter, capacity, sizeAfter, _⟩ := grownAfter rfl
  dsimp only at keptAfter data sameAfter capacity sizeAfter ⊢
  have nothing : roomy.elems.length = 0 := by
    rw [sameAfter, same]
    rfl
  exact copyIndirectData_spec keptAfter (by omega) (by omega)

/-!
## Other calls
-/

theorem Sound.withElems (sound : Sound w set) {elems : List SetParam} (length : elems.length ≤ set.elems.length)
    (inside : ∀ param ∈ elems, SetParam.Inside set.indirectSize param) :
    Sound w { set with elems := elems } := { sound with
  elemsFit := le_trans length sound.elemsFit
  inside := inside }

theorem Sound.erase (sound : Sound w set) (index : Nat) : Sound w (set.erase index).set := by
  unfold AuthSet.erase
  split
  · exact sound
  · refine sound.withElems ?_ ?_
    · exact (eraseIdx_sublist _ _).length_le
    · exact fun param member => sound.inside param ((eraseIdx_sublist _ _).subset member)

/-- `qsort` moves the elements of an array. -/
def Permutes (qsort : QSort) : Prop := ∀ order elems, (qsort order elems).Perm elems

variable {qsort : QSort}

theorem Sound.sort (sound : Sound w set) (permutes : Permutes qsort) : Sound w (set.sort qsort) := by
  have moved := permutes set.compareParams set.elems
  refine sound.withElems (le_of_eq moved.length_eq) ?_
  exact fun param member => sound.inside param (moved.subset member)

theorem length_markDuplicates (set : AuthSet) (elems : List SetParam) :
    (set.markDuplicates elems).length = elems.length := by
  induction elems with
  | nil => rfl
  | cons elem rest ih =>
  cases rest with
  | nil => rfl
  | cons next others =>
  rw [markDuplicates, length_cons, ih]
  rfl

theorem forall_markDuplicates {P : SetParam → Prop} (mark : ∀ param : SetParam, P { param with tag := Tag.invalid }) :
    ∀ {elems}, (∀ param ∈ elems, P param) → ∀ param ∈ set.markDuplicates elems, P param
  | [], all | [_], all => all
  | elem :: next :: rest, all => by
    obtain ⟨first, others⟩ := forall_mem_cons.mp all
    refine forall_mem_cons.mpr ⟨?_, forall_markDuplicates mark others⟩
    split
    · exact mark elem
    · exact first

theorem inside_markDuplicates {size : Nat} {elems : List SetParam}
    (inside : ∀ param ∈ elems, SetParam.Inside size param) :
    ∀ param ∈ set.markDuplicates elems, SetParam.Inside size param := by
  have none : Tag.isBlob Tag.invalid = false := by decide
  exact forall_markDuplicates (fun _ blob => (nomatch none.symm.trans blob)) inside

theorem Sound.deduplicate (sound : Sound w set) (permutes : Permutes qsort) : Sound w (set.deduplicate qsort) := by
  have sorted := sound.sort permutes
  unfold AuthSet.deduplicate
  dsimp only
  split
  · exact sorted
  have marked : Sound w { set.sort qsort with
      elems := (set.sort qsort).markDuplicates (set.sort qsort).elems } :=
    sorted.withElems (le_of_eq (length_markDuplicates _ _)) (inside_markDuplicates sorted.inside)
  have again := marked.sort permutes
  refine again.withElems ?_ ?_
  · exact (drop_sublist _ _).length_le
  · exact fun param member => again.inside param ((drop_sublist _ _).subset member)

theorem Sound.clear (sound : Sound w set) : Sound w set.clear := { sound with
  elemsFit := Nat.zero_le _
  indirectFit := Nat.zero_le _
  indirectAllocated := by
    have fit := sound.indirectFit
    have same := sound.indirectAllocated
    simp only [AuthSet.clear, length_append, length_replicate, length_drop]
    omega
  inside _ member := nomatch member }

/-!
## Whole runs
-/

def Call.added : Call w → Option AuthList
  | .pushBack elem _ => some [elem]
  | .pushBackSet elems _ => some elems
  | _ => none

/-- A call stays inside of the arrays and leaves a sound representation, and what it
adds stands behind what was there. -/
def StepGood (qsort : QSort) (set : AuthSet) (call : Call w) : Prop :=
  ∃ returned, set.perform qsort call = some returned ∧ Rep returned.set ∧
    ∀ new, call.added = some new → returned.done = true →
      returned.set.view = set.view ++ new.map viewParam

def Call.Sized (set : AuthSet) : Call w → Prop
  | .reinitializeSet elems _ => dataTotal elems < 2 ^ w
  | .pushBack elem _ => AuthSet.Sized w set elem
  | .pushBackSet elems _ =>
    set.elems.length + elems.length < 2 ^ w ∧ set.indirectSize + dataTotal elems < 2 ^ w
  | _ => True

/-- What is to hold of the bytes of a `Deserialize`: the length of the indirect data is zero, and
the sizes are harmless. -/
def Call.Tame : Call w → Prop
  | .deserialize buffer _ => decode (buffer.bytes.take 4) = 0 ∧ Keymaster.Tame w buffer.bytes
  | _ => True

theorem indirect_of_zero (word : w = 32 ∨ w = 64) {buffer : Buffer w} {allocations : Allocations} {parsed : Parsed w}
    (ran : Keymaster.deserialize buffer buffer.limit allocations buffer.base = .ok parsed)
    (zero : decode (buffer.bytes.take 4) = 0) : parsed.indirect = [] := by
  obtain ⟨⟨indirect, second⟩, data, ran⟩ := bind_ok ran
  obtain ⟨⟨count, elems, behind⟩, _, ran⟩ := bind_ok ran
  have same : parsed.indirect = indirect := by
    dsimp only at ran
    split at ran <;> cases ran
    rfl
  have follows := @copySizeAndData_follows w buffer buffer.limit buffer.base _ allocations.indirect
    (by omega) buffer.ahead
  cases read : parseSizeAndData allocations.indirect buffer.bytes with
  | error error =>
    rw [read, data] at follows
    cases follows
  | ok found =>
  obtain ⟨value, rest⟩ := found
  obtain ⟨_, again, rfl, _⟩ := read ▸ follows
  obtain ⟨start, small⟩ := parseSizeAndData_inv read
  rw [start, decode_take small] at zero
  cases data.symm.trans again
  exact same.trans (eq_nil_of_length_eq_zero zero)

theorem sound_ofParsed {parsed : Parsed w} (sound : parsed.Sound) (none : parsed.indirect = [])
    (bound : parsed.elementsCount * paramSize w < 2 ^ w) : Sound w (ofParsed parsed) where
  elemsFit := le_of_eq sound.1
  elemsAllocated := le_rfl
  indirectFit := by
    change parsed.indirect.length ≤ 0
    rw [none]
    exact le_rfl
  indirectAllocated := by
    change 0 = parsed.indirect.length
    rw [none]
    rfl
  inside := sound.2
  elemsBound := bound
  indirectBound := Nat.two_pow_pos w

theorem Sound.perform (word : w = 32 ∨ w = 64) (sound : Sound w set) (permutes : Permutes qsort) {call : Call w}
    (sized : call.Sized set) (tame : call.Tame) :
    ∃ returned, set.perform qsort call = some returned ∧ Sound w returned.set ∧
      ∀ new, call.added = some new → returned.done = true → returned.set.view = set.view ++ new.map viewParam := by
  cases call with
  | reinitializeSet elems allocations =>
    obtain ⟨returned, ran, kept⟩ := @reinitialize_spec w allocations elems sized
    exact ⟨returned, ran, kept, nofun⟩
  | pushBack elem allocations =>
    obtain ⟨returned, ran, kept, seen⟩ := pushBack_spec sound sized allocations
    refine ⟨returned, ran, kept, ?_⟩
    intro new same done
    cases same
    exact seen done
  | pushBackSet elems allocations =>
    obtain ⟨returned, ran, kept, seen⟩ := @pushBackSet_spec w set allocations elems sound sized.1 sized.2
    refine ⟨returned, ran, kept, ?_⟩
    intro new same done
    cases same
    exact seen done
  | erase index => exact ⟨_, rfl, sound.erase index, nofun⟩
  | sort => exact ⟨_, rfl, sound.sort permutes, nofun⟩
  | deduplicate => exact ⟨_, rfl, sound.deduplicate permutes, nofun⟩
  | clear => exact ⟨_, rfl, sound.clear, nofun⟩
  | deserialize buffer allocations =>
  obtain ⟨zero, tame⟩ := tame
  have confines := (@Tame.confined w buffer allocations word tame).1
  simp only [AuthSet.perform]
  cases outcome : Keymaster.deserialize buffer buffer.limit allocations buffer.base with
  | ok parsed =>
    rw [outcome] at confines
    exact ⟨_, rfl, sound_ofParsed confines (indirect_of_zero word outcome zero) (deserializeWith_count outcome).2, nofun⟩
  | error stop =>
  cases stop with
  | outOfBounds =>
    rw [outcome] at confines
    exact confines.elim
  | refused error => exact ⟨_, rfl, sound_freed error.error, nofun⟩

theorem indirect_of_good {buffer : Buffer w} {allocations : Allocations} {parsed : Parsed w}
    (good : StepGood qsort set (.deserialize buffer allocations))
    (outcome : Keymaster.deserialize buffer buffer.limit allocations buffer.base = .ok parsed) :
    parsed.indirect = [] := by
  obtain ⟨returned, ran, rep, _⟩ := good
  simp only [AuthSet.perform] at ran
  rw [outcome] at ran
  cases ran
  exact eq_nil_of_length_eq_zero (Nat.le_zero.mp rep.indirectFit)

def Good (qsort : QSort) : AuthSet → List (Call w) → Prop
  | _, [] => True
  | set, call :: rest =>
    StepGood qsort set call ∧
      ∀ returned, set.perform qsort call = some returned → Good qsort returned.set rest

def AllSized (qsort : QSort) : AuthSet → List (Call w) → Prop
  | _, [] => True
  | set, call :: rest =>
    call.Sized set ∧
      ∀ returned, set.perform qsort call = some returned → AllSized qsort returned.set rest

theorem good_from (word : w = 32 ∨ w = 64) {calls : List (Call w)} (permutes : Permutes qsort) (sound : Sound w set)
    (sized : AllSized qsort set calls) (tame : ∀ call ∈ calls, call.Tame) : Good qsort set calls := by
  induction calls generalizing set with
  | nil => exact True.intro
  | cons call rest ih =>
  obtain ⟨first, others⟩ := forall_mem_cons.mp tame
  obtain ⟨returned, ran, kept, seen⟩ := sound.perform word permutes sized.1 first
  refine ⟨⟨returned, ran, kept.toRep, seen⟩, ?_⟩
  intro same again
  cases ran.symm.trans again
  exact ih kept (sized.2 returned ran) others

theorem stepGood_of_good {calls : List (Call w)} (good : Good qsort set calls) :
    ∀ call ∈ calls, ∃ before, StepGood qsort before call := by
  induction calls generalizing set with
  | nil => exact nofun
  | cons call rest ih =>
  obtain ⟨returned, ran, _⟩ := good.1
  exact forall_mem_cons.mpr ⟨⟨set, good.1⟩, ih (good.2 returned ran)⟩

/-- A run whose calls of `Deserialize` are tame keeps the representation sound, and one that does
has no `Deserialize` that finds indirect data. -/
theorem good_of_tame (word : w = 32 ∨ w = 64) {calls : List (Call w)} (permutes : Permutes qsort)
    (sized : AllSized qsort empty calls) :
    ((∀ call ∈ calls, call.Tame) → Good qsort empty calls) ∧
    (Good qsort empty calls → ∀ buffer allocations parsed, .deserialize buffer allocations ∈ calls →
      Keymaster.deserialize buffer buffer.limit allocations buffer.base = .ok parsed → parsed.indirect = []) := by
  refine ⟨good_from word permutes (sound_freed .ok) sized, ?_⟩
  intro good buffer allocations parsed member outcome
  obtain ⟨before, step⟩ := stepGood_of_good good _ member
  exact indirect_of_good step outcome

/-- A `qsort` that is stable. -/
def mergeSort : QSort := fun order elems => elems.mergeSort fun left right => order left right != .gt

theorem permutes_mergeSort : Permutes mergeSort := fun _ _ => mergeSort_perm _ _

def fourBytes : KeyParam := .bytes Tag.applicationData [1, 2, 3, 4]

def pushFourBytes : Call 64 := .pushBack fourBytes ⟨true, true⟩

def nothingBuffer : Buffer 32 := ⟨0x1000, .replicate 12 0, by decide⟩

def threePushes : List (Call 32) :=
  .deserialize nothingBuffer ⟨true, true⟩ :: .replicate 3 (.pushBack fourBytes ⟨true, true⟩)

/-- Three parameters are added to a set that was read. The third one moves the data. -/
theorem four_bytes_pushed : AllSized mergeSort empty threePushes ∧ Good mergeSort empty threePushes := by
  have sized : AllSized mergeSort empty threePushes := by
    refine ⟨True.intro, fun _ ran => ?_⟩
    cases ran
    refine ⟨fun _ => by decide, fun _ ran => ?_⟩
    cases ran
    refine ⟨fun _ => by decide, fun _ ran => ?_⟩
    cases ran
    exact ⟨fun _ => by decide, fun _ _ => True.intro⟩
  refine ⟨sized, (good_of_tame (.inl rfl) permutes_mergeSort sized).1 ?_⟩
  refine forall_mem_cons.mpr ⟨⟨by decide, .inr (by decide)⟩, ?_⟩
  intro call member
  rw [eq_of_mem_replicate member]
  exact True.intro

def fourBytesBuffer : Buffer 64 where
  base := 0x1000
  bytes := encode 4 4 ++ [1, 2, 3, 4] ++ encode 4 1 ++ encode 4 12 ++ encode 4 Tag.applicationData.toNat ++
    encode 4 4 ++ encode 4 0
  fits := by decide

/-- What `Deserialize` makes of it. -/
def fourBytesSet : AuthSet where
  elems := [⟨Tag.applicationData, 0, ⟨0, 4⟩⟩]
  elemsCapacity := 1
  elemsAllocated := 1
  indirect := [1, 2, 3, 4]
  indirectSize := 4
  indirectCapacity := 0
  error := .ok

/-- After `Deserialize` the capacity of the indirect data is zero, so almost
everything counts as free and the next blob is copied behind the end. -/
theorem pushed_behind_the_end : empty.perform mergeSort (.deserialize fourBytesBuffer ⟨true, true⟩) =
        some ⟨true, fourBytesSet⟩ ∧
      fourBytesSet.indirectCapacity < fourBytesSet.indirectSize ∧
      fourBytesSet.perform mergeSort pushFourBytes = none := by
  refine ⟨?_, by decide, ?_⟩
  · decide +kernel
  · decide +kernel

end Trusty.Keymaster.AuthSet
