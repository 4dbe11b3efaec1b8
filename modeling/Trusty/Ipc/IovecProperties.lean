import Trusty.Ipc.Iovec

/-!
# What the copy loops copy

A message to send is the bytes of its vectors in order. The loops copy them up to the
size of the buffer, whatever the split, and write nothing outside it.
-/

namespace Trusty.Ipc

open List

namespace Buffer

variable {buf other : Buffer} {offset : Nat}

@[simp] theorem length_load (len : Nat) : (buf.load offset len).length = len := by
  simp [load]

theorem load_congr {len : Nat} (same : ∀ index, offset ≤ index → index < offset + len → buf index = other index) :
    buf.load offset len = other.load offset len := by
  apply map_congr_left
  intro index inside
  rw [mem_range] at inside
  exact same (offset + index) (by omega) (by omega)

theorem load_add (first second : Nat) :
    buf.load offset (first + second) = buf.load offset first ++ buf.load (offset + first) second := by
  simp only [load, range_add, map_append, map_map, Function.comp_def, Nat.add_assoc]

theorem drop_load (count len : Nat) : (buf.load offset len).drop count = buf.load (offset + count) (len - count) := by
  by_cases within : count ≤ len
  · obtain ⟨rest, rfl⟩ := Nat.exists_eq_add_of_le within
    rw [load_add, drop_append_of_le_length (by simp), drop_of_length_le (by simp), Nat.add_sub_cancel_left, nil_append]
  · rw [drop_of_length_le (by simp; omega), Nat.sub_eq_zero_of_le (by omega)]
    rfl

theorem take_load {count len : Nat} (within : count ≤ len) :
    (buf.load offset len).take count = buf.load offset count := by
  obtain ⟨rest, rfl⟩ := Nat.exists_eq_add_of_le within
  rw [load_add, take_append_of_le_length (by simp), take_of_length_le (by simp)]

theorem load_store (bytes : List UInt8) : (buf.store offset bytes).load offset bytes.length = bytes := by
  apply ext_getElem (by simp)
  intro index _ inside
  simp [load, store, inside]

theorem store_outside (bytes : List UInt8) {index : Nat} (outside : index < offset ∨ offset + bytes.length ≤ index) :
    buf.store offset bytes index = buf index := by
  unfold store
  split
  · rfl
  · rw [getElem?_eq_none (by omega)]
    rfl

end Buffer

/-- The bytes that a copy would read, `none` where it would fail. -/
def KernVec.contents : KernVec → List (Option UInt8)
  | .null len => replicate len none
  | .memory bytes => bytes.map some

/-- The bytes of the vectors of a message, `none` where a copy would fail. -/
def MsgDesc.contents : MsgDesc → List (Option UInt8)
  | .kern msg =>
    match msg.iov with
    | none => if msg.numIov = 0 then [] else [none]
    | some iov => ((range msg.numIov).map iov).flatMap KernVec.contents
  | .user msg => ((range msg.numIov).map msg.iov).flatMap fun vec => vec.getD [none]

/-- The copy stays inside the buffer, and if it ends well it has stored the
contents up to the length of the buffer. -/
structure Gathers (buf : Buffer) (offset len copied : Nat) (contents : List (Option UInt8))
    (result : Buffer × Except IpcError Nat) : Prop where
  outside : ∀ index, index < offset ∨ offset + len ≤ index → result.1 index = buf index
  stored : ∀ total, result.2 = .ok total → ∃ bytes : List UInt8,
    contents.take len = bytes.map some ∧ total = copied + bytes.length ∧
      result.1.load offset bytes.length = bytes

namespace Gathers

variable {buf : Buffer} {offset len copied : Nat} {contents : List (Option UInt8)}

theorem failed {reason : IpcError} : Gathers buf offset len copied contents (buf, .error reason) :=
  ⟨fun _ _ => rfl, nofun⟩

theorem empty (nothing : contents.take len = []) : Gathers buf offset len copied contents (buf, .ok copied) := by
  refine ⟨fun _ _ => rfl, ?_⟩
  rintro total ⟨⟩
  exact ⟨[], nothing, rfl, rfl⟩

theorem full {bytes : List UInt8} (first : contents.take len = bytes.map some) : Gathers buf offset len copied contents
      (buf.store offset bytes, .ok (copied + bytes.length)) := by
  have short : bytes.length ≤ len := by
    have length := congrArg length first
    rw [length_take, length_map] at length
    omega
  refine ⟨fun index outside => Buffer.store_outside _ (by omega), ?_⟩
  rintro total ⟨⟩
  exact ⟨bytes, first, rfl, Buffer.load_store bytes⟩

theorem step {bytes : List UInt8} (short : bytes.length ≤ len) {result : Buffer × Except IpcError Nat}
    (rest : Gathers (buf.store offset bytes) (offset + bytes.length) (len - bytes.length)
      (copied + bytes.length) contents result) : Gathers buf offset len copied (bytes.map some ++ contents) result := by
  constructor
  · intro index outside
    rw [rest.outside index (by omega)]
    exact Buffer.store_outside _ (by omega)
  intro total done
  obtain ⟨others, taken, counted, loaded⟩ := rest.stored total done
  refine ⟨bytes ++ others, ?_, ?_, ?_⟩
  · rw [take_append, take_of_length_le (by simpa using short), length_map, taken, map_append]
  · rw [counted, length_append, Nat.add_assoc]
  rw [length_append, Buffer.load_add, loaded]
  congr 1
  calc result.1.load offset bytes.length = (buf.store offset bytes).load offset bytes.length := by
        apply Buffer.load_congr
        intro index _ before
        exact rest.outside index (.inl before)
    _ = bytes := Buffer.load_store bytes

end Gathers

theorem kernIovecToMembufLoop_gathers (vecs : List KernVec) (buf : Buffer) (offset len copied : Nat) :
    Gathers buf offset len copied (vecs.flatMap KernVec.contents)
      (kernIovecToMembufLoop buf offset len copied vecs) := by
  induction vecs generalizing buf offset len copied with
  | nil => exact .empty (by simp)
  | cons vec rest ih =>
  simp only [kernIovecToMembufLoop, flatMap_cons]
  split
  · rename_i none
    -- The entry is empty, or nothing is left to fill.
    rcases Nat.min_eq_zero_iff.mp none with full | empty
    · subst full
      have rest := ih buf offset 0 copied
      exact ⟨rest.outside, fun total done => by simpa using rest.stored total done⟩
    have nothing : vec.contents = [] := by
      cases vec with
      | null len => rw [show len = 0 from empty]; rfl
      | memory bytes => rw [show bytes = [] from length_eq_zero_iff.mp empty]; rfl
    rw [nothing, nil_append]
    exact ih buf offset len copied
  · cases vec with
    | null _ => exact .failed
    | memory bytes =>
    simp only [KernVec.contents]
    by_cases filled : len - min len (KernVec.memory bytes).len = 0
    · rw [if_pos filled]
      rw [KernVec.len] at filled ⊢
      have cut : min len bytes.length = len := by omega
      have length : (bytes.take len).length = len := by
        rw [length_take, cut]
      have stored : Gathers buf offset len copied (bytes.map some ++ rest.flatMap KernVec.contents)
          (buf.store offset (bytes.take len), .ok (copied + (bytes.take len).length)) :=
        .full (by rw [take_append_of_le_length (by simp; omega), map_take])
      rw [cut]
      rwa [length] at stored
    · rw [if_neg filled]
      rw [KernVec.len] at filled ⊢
      have whole : min len bytes.length = bytes.length := by omega
      rw [whole, take_length]
      exact .step (by omega) (ih ..)

theorem copyFromUser_length (vec : UserVec) : (copyFromUser vec).1.length = vec.length := by
  induction vec with
  | nil => rfl
  | cons byte rest ih =>
  cases byte with
  | none => simp [copyFromUser]
  | some byte => simp [copyFromUser, ih]

variable {vec : UserVec}

theorem copyFromUser_done (done : (copyFromUser vec).2 = true) : vec = (copyFromUser vec).1.map some := by
  induction vec with
  | nil => rfl
  | cons byte rest ih =>
  cases byte with
  | none => simp [copyFromUser] at done
  | some byte => simpa [copyFromUser] using ih done

theorem userIovecToMembufLoop_gathers (vecs : List (Option UserVec)) (buf : Buffer) (offset len copied : Nat) :
    Gathers buf offset len copied (vecs.flatMap fun vec => vec.getD [none])
      (userIovecToMembufLoop buf offset len copied vecs) := by
  induction vecs generalizing buf offset len copied with
  | nil => exact .empty (by simp)
  | cons vec rest ih =>
  cases vec with
  | none => exact .failed
  | some uiov =>
  simp only [userIovecToMembufLoop, flatMap_cons, Option.getD_some]
  have length := copyFromUser_length (uiov.take (min len uiov.length))
  rw [length_take] at length
  split
  · refine ⟨fun index outside => Buffer.store_outside _ (by omega), nofun⟩
  rename_i done
  have read := copyFromUser_done (by simpa using done)
  by_cases filled : len - min len uiov.length = 0
  · rw [if_pos filled]
    have cut : min len uiov.length = len := by omega
    rw [cut] at length read ⊢
    have stored : Gathers buf offset len copied (uiov ++ rest.flatMap fun vec => vec.getD [none])
        (buf.store offset (copyFromUser (uiov.take len)).1, .ok (copied + (copyFromUser (uiov.take len)).1.length)) :=
      .full (by rw [take_append_of_le_length (by omega), ← read])
    rwa [length, cut] at stored
  · rw [if_neg filled]
    have whole : min len uiov.length = uiov.length := by omega
    rw [whole, take_length] at read ⊢
    rw [whole, take_length, Nat.min_self] at length
    have loop := ih (buf.store offset (copyFromUser uiov).1)
      (offset + uiov.length) (len - uiov.length) (copied + uiov.length)
    rw [← length] at loop
    have joined := Gathers.step (by omega) loop
    rwa [← read, length] at joined

theorem MsgDesc.gather_gathers (msg : MsgDesc) (buf : Buffer) (offset len : Nat) :
    Gathers buf offset len 0 msg.contents (msg.gather buf offset len) := by
  cases msg with
  | kern msg =>
    simp only [gather, kernIovecToMembuf]
    by_cases nothing : msg.numIov = 0 ∨ len = 0
    · rw [if_pos nothing]
      apply Gathers.empty
      rcases nothing with none | none
      · cases iov : msg.iov <;> simp [contents, none, iov]
      · simp [none]
    · rw [if_neg nothing]
      cases iov : msg.iov with
      | none => exact .failed
      | some vecs =>
      simp only [contents, iov]
      exact kernIovecToMembufLoop_gathers ..
  | user msg =>
  simp only [gather, userIovecToMembuf, contents]
  split
  · rename_i nothing
    apply Gathers.empty
    rcases nothing with none | none
    · simp [none]
    · simp [none]
  · exact userIovecToMembufLoop_gathers ..

/-- If the copy ends well, it has written the bytes in order as far as the
vectors have room. -/
def Scatters (bytes : List UInt8) (room copied : Nat) (written : List (List UInt8))
    (result : List (List UInt8) × Except IpcError Nat) : Prop :=
  ∀ total, result.2 = .ok total →
    result.1.flatten = written.flatten ++ bytes.take room ∧
      total = copied + min room bytes.length

namespace Scatters

variable {bytes : List UInt8} {room copied : Nat} {written : List (List UInt8)}

theorem failed {reason : IpcError} {out : List (List UInt8)} :
    Scatters bytes room copied written (out, .error reason) :=
  nofun

theorem empty (nothing : bytes.take room = []) : Scatters bytes room copied written (written, .ok copied) := by
  rintro total ⟨⟩
  have none := congrArg length nothing
  rw [length_take, length_nil] at none
  rw [nothing, append_nil, none]
  exact ⟨rfl, rfl⟩

theorem step {first : Nat} (short : first ≤ bytes.length) {result : List (List UInt8) × Except IpcError Nat}
    (rest : Scatters (bytes.drop first) room (copied + first) (written ++ [bytes.take first]) result) :
    Scatters bytes (first + room) copied written result := by
  intro total done
  obtain ⟨flat, counted⟩ := rest total done
  constructor
  · rw [flat, flatten_append, append_assoc, flatten_cons, flatten_nil, append_nil, ← take_add]
  · rw [counted, length_drop]
    omega

theorem full (wide : bytes.length ≤ room) :
    Scatters bytes room copied written (written ++ [bytes], .ok (copied + bytes.length)) := by
  rintro total ⟨⟩
  rw [take_of_length_le wide, Nat.min_eq_right wide]
  simp

/-- One round of a loop: the vector takes what it has room for, and the loop
goes on if bytes are left. -/
theorem round {buf : Buffer} {offset len vec : Nat} {rest : List (List UInt8) × Except IpcError Nat}
    (loop : Scatters (buf.load (offset + min len vec) (len - min len vec)) room
      (copied + min len vec) (written ++ [buf.load offset (min len vec)]) rest) :
    Scatters (buf.load offset len) (vec + room) copied written (if len - min len vec = 0 then
        (written ++ [buf.load offset (min len vec)], .ok (copied + min len vec))
      else rest) := by
  by_cases all : len - min len vec = 0
  · have cut : min len vec = len := by omega
    rw [if_pos all, cut]
    have full : Scatters (buf.load offset len) (vec + room) copied written
        (written ++ [buf.load offset len], .ok (copied + (buf.load offset len).length)) :=
      .full (by rw [Buffer.length_load]; omega)
    rwa [Buffer.length_load] at full
  · have whole : min len vec = vec := by omega
    rw [if_neg all]
    rw [whole] at loop
    apply Scatters.step (by rw [Buffer.length_load]; omega)
    rwa [Buffer.drop_load, Buffer.take_load (by omega)]

end Scatters

theorem membufToKernIovecLoop_scatters (vecs : List KernVec) (buf : Buffer)
    (offset len copied : Nat) (written : List (List UInt8)) :
    Scatters (buf.load offset len) (vecs.flatMap KernVec.contents).length copied written
      (membufToKernIovecLoop buf offset len copied written vecs) := by
  induction vecs generalizing offset len copied written with
  | nil => exact .empty (by simp)
  | cons vec rest ih =>
  have room : vec.contents.length = vec.len := by
    cases vec <;> simp [KernVec.contents, KernVec.len]
  simp only [membufToKernIovecLoop, flatMap_cons, length_append, room]
  by_cases none : min len vec.len = 0
  · rw [if_pos none]
    have loop := ih offset len copied (written ++ [[]])
    rcases Nat.min_eq_zero_iff.mp none with rfl | empty
    · intro total done
      simpa [Buffer.load] using loop total done
    · intro total done
      simpa [empty] using loop total done
  · rw [if_neg none]
    cases vec with
    | null _ => exact .failed
    | memory bytes =>
    exact .round (ih _ _ _ _)

theorem copyToUser_done {bytes : List UInt8}
    (done : (copyToUser vec bytes).2 = true) : (copyToUser vec bytes).1 = bytes := by
  induction bytes generalizing vec with
  | nil => cases vec with
    | nil => rfl
    | cons byte rest => cases byte <;> rfl
  | cons byte rest ih =>
  cases vec with
  | nil => simp [copyToUser] at done
  | cons first vec =>
  cases first with
  | none => simp [copyToUser] at done
  | some _ => simpa [copyToUser] using ih done

theorem membufToUserIovecLoop_scatters (vecs : List (Option UserVec)) (buf : Buffer)
    (offset len copied : Nat) (written : List (List UInt8)) :
    Scatters (buf.load offset len) (vecs.flatMap fun vec => vec.getD [none]).length copied written
      (membufToUserIovecLoop buf offset len copied written vecs) := by
  induction vecs generalizing offset len copied written with
  | nil => exact .empty (by simp)
  | cons vec rest ih =>
  cases vec with
  | none => exact .failed
  | some uiov =>
  simp only [membufToUserIovecLoop, flatMap_cons, length_append, Option.getD_some]
  by_cases done : (copyToUser uiov (buf.load offset (min len uiov.length))).2 = true
  · simp only [done, Bool.not_true, Bool.false_eq_true, if_false, copyToUser_done done]
    exact .round (ih _ _ _ _)
  · simp only [done, Bool.not_false, if_true]
    exact .failed

theorem MsgDesc.scatter_scatters (msg : MsgDesc) (buf : Buffer) (offset len : Nat) :
    Scatters (buf.load offset len) msg.contents.length 0 [] (msg.scatter buf offset len) := by
  cases msg with
  | kern msg =>
    simp only [scatter, membufToKernIovec]
    by_cases nothing : msg.numIov = 0 ∨ len = 0
    · rw [if_pos nothing]
      apply Scatters.empty
      rcases nothing with none | none
      · cases iov : msg.iov <;> simp [contents, none, iov]
      · simp [none, Buffer.load]
    · rw [if_neg nothing]
      cases iov : msg.iov with
      | none => exact .failed
      | some vecs =>
      simp only [contents, iov]
      exact membufToKernIovecLoop_scatters _ _ _ _ _ _
  | user msg =>
  simp only [scatter, membufToUserIovec, contents]
  split
  · rename_i nothing
    apply Scatters.empty
    rcases nothing with none | none
    · simp [none]
    · simp [none, Buffer.load]
  · exact membufToUserIovecLoop_scatters _ _ _ _ _ _

theorem copyToUser_ok {bytes : List UInt8} (valid : none ∉ vec)
    (fits : bytes.length ≤ vec.length) : (copyToUser vec bytes).2 = true := by
  induction bytes generalizing vec with
  | nil => cases vec with
    | nil => rfl
    | cons byte rest => cases byte <;> rfl
  | cons byte rest ih =>
  cases vec with
  | nil => simp at fits
  | cons first vec =>
  cases first with
  | none => simp at valid
  | some _ =>
  exact ih (fun member => valid (mem_cons_of_mem _ member)) (by simpa using fits)

theorem membufToKernIovecLoop_ok (vecs : List KernVec) (buf : Buffer) (offset len copied : Nat)
    (written : List (List UInt8)) (valid : none ∉ vecs.flatMap KernVec.contents) :
    ∃ total, (membufToKernIovecLoop buf offset len copied written vecs).2 = .ok total := by
  induction vecs generalizing offset len copied written with
  | nil => exact ⟨copied, rfl⟩
  | cons vec rest ih =>
  rw [flatMap_cons, mem_append, not_or] at valid
  simp only [membufToKernIovecLoop]
  by_cases skipped : min len vec.len = 0
  · rw [if_pos skipped]
    exact ih _ _ _ _ valid.2
  rw [if_neg skipped]
  cases vec with
  | null len =>
    have zero : len = 0 := by simpa [KernVec.contents] using valid.1
    simp [KernVec.len, zero] at skipped
  | memory bytes =>
  dsimp only
  split
  · exact ⟨_, rfl⟩
  · exact ih _ _ _ _ valid.2

theorem membufToUserIovecLoop_ok (vecs : List (Option UserVec)) (buf : Buffer) (offset len copied : Nat)
    (written : List (List UInt8)) (valid : none ∉ vecs.flatMap fun vec => vec.getD [none]) :
    ∃ total, (membufToUserIovecLoop buf offset len copied written vecs).2 = .ok total := by
  induction vecs generalizing offset len copied written with
  | nil => exact ⟨copied, rfl⟩
  | cons vec rest ih =>
  rw [flatMap_cons, mem_append, not_or] at valid
  cases vec with
  | none => simp at valid
  | some uiov =>
  have done : (copyToUser uiov (buf.load offset (min len uiov.length))).2 = true :=
    copyToUser_ok valid.1 (by rw [Buffer.length_load]; exact Nat.min_le_right _ _)
  simp only [membufToUserIovecLoop, done, Bool.not_true, Bool.false_eq_true, if_false]
  split
  · exact ⟨_, rfl⟩
  · exact ih _ _ _ _ valid.2

theorem MsgDesc.scatter_ok {msg : MsgDesc} (valid : none ∉ msg.contents) (buf : Buffer)
    (offset len : Nat) : ∃ total, (msg.scatter buf offset len).2 = .ok total := by
  cases msg with
  | kern msg =>
    simp only [scatter, membufToKernIovec]
    split
    · exact ⟨_, rfl⟩
    rename_i some_
    cases iov : msg.iov with
    | none => simp_all [contents]
    | some vecs =>
    simp only [contents, iov] at valid
    exact membufToKernIovecLoop_ok _ _ _ _ _ _ valid
  | user msg =>
  simp only [scatter, membufToUserIovec]
  split
  · exact ⟨_, rfl⟩
  · exact membufToUserIovecLoop_ok _ _ _ _ _ _ valid

end Trusty.Ipc
