import Trusty.Keymaster.Param

/-!
# Data for ECDSA without a digest

`EcdsaOperation::StoreData` collects the input of an operation with `KM_DIGEST_NONE` in a
`Buffer`, and drops what does not fit.
-/

namespace Trusty.Keymaster

open List

/-- `new (std::nothrow) uint8_t[size]`. No array takes half of all addresses. -/
structure Allocator (w : Nat) where
  grant : Nat → Option (List UInt8)
  granted : ∀ {size bytes}, grant size = some bytes → bytes.length = size ∧ size < 2 ^ (w - 1)

/-- `Buffer`, with `bytes` for the array of `buffer_`. -/
structure ByteBuffer where
  bytes : List UInt8
  bufferSize : Nat
  readPosition : Nat
  writePosition : Nat

namespace ByteBuffer

variable {w : Nat} (buf : ByteBuffer)

def empty : ByteBuffer := ⟨[], 0, 0, 0⟩

def availableWrite : Nat := buf.bufferSize - buf.writePosition

def availableRead : Nat := buf.writePosition - buf.readPosition

/-- The bytes at `peek_read`. -/
def unread : List UInt8 := (buf.bytes.drop buf.readPosition).take buf.availableRead

def reserve (memory : Allocator w) (size : Nat) : Bool × ByteBuffer :=
  if buf.availableWrite < size then
    let newSize := (buf.bufferSize + size - buf.availableWrite) % 2 ^ w
    match memory.grant newSize with
    | none => (false, buf)
    | some fresh => (true, ⟨buf.unread ++ fresh.drop buf.availableRead, newSize, 0, buf.availableRead⟩)
  else (true, buf)

def write (src : List UInt8) : Bool × ByteBuffer :=
  if buf.availableWrite < src.length then (false, buf)
  else
    (true,
      { buf with
        bytes := buf.bytes.take buf.writePosition ++ src ++ buf.bytes.drop (buf.writePosition + src.length)
        writePosition := buf.writePosition + src.length })

end ByteBuffer

variable {w : Nat} (bits : Nat)

/-- `EcdsaOperation::StoreData`, for a key of `bits` bits. -/
def storeData (data : ByteBuffer) (call : Allocator w × List UInt8) : Except KeymasterError ByteBuffer :=
  let reserved := data.reserve call.1 ((bits + 7) / 8)
  if !reserved.1 then .error .memoryAllocationFailed
  else
    let written := reserved.2.write (call.2.take reserved.2.availableWrite)
    if !written.1 then .error .unknownError else .ok written.2

/-- `Update` with each piece, and the data that `Finish` gives to `ECDSA_sign` or
`ECDSA_verify`. `UpdateForFinish` passes over an empty input without parameters. -/
def finish (pieces : List (Allocator w × List UInt8)) (params : Bool) (last : Allocator w × List UInt8) :
    Except KeymasterError (List UInt8) := do
  let data ← pieces.foldlM (storeData bits) .empty
  let data ← if params || !last.2.isEmpty then storeData bits data last else pure data
  return data.unread

/-- `data` is all of `whole`, or it has the first `size` bytes of it. -/
def Leading (size : Nat) (whole data : List UInt8) : Prop :=
  data = whole ∨ size ≤ data.length ∧ size < whole.length ∧ data.take size = whole.take size

/-- The buffer holds the leading bytes of `whole` from its start. -/
structure Collected (w size : Nat) (whole : List UInt8) (data : ByteBuffer) : Prop where
  start : data.readPosition = 0
  within : data.writePosition ≤ data.bufferSize
  stored : data.bytes.length = data.bufferSize
  small : data.bufferSize < 2 ^ (w - 1)
  short : data.writePosition ≤ whole.length
  leads : Leading size whole data.unread

variable {bits} {size room : Nat} {whole input : List UInt8} {data : ByteBuffer}

theorem Leading.append {data : List UInt8} (leads : Leading size whole data) (enough : size ≤ room) :
    Leading size (whole ++ input) (data ++ input.take room) := by
  rcases leads with rfl | ⟨long, beyond, same⟩
  · rcases le_or_gt input.length room with fits | cut
    · exact .inl (by rw [take_of_length_le fits])
    · have taken : (input.take room).length = room := length_take_of_le cut.le
      refine .inr ⟨by rw [length_append]; omega, by rw [length_append]; omega, ?_⟩
      simp only [take_append, take_take]
      rw [min_eq_left (by omega)]
  · refine .inr ⟨by rw [length_append]; omega, by rw [length_append]; omega, ?_⟩
    rw [take_append_of_le_length long, take_append_of_le_length beyond.le, same]

namespace Collected

variable (kept : Collected w size whole data)
include kept

theorem unread_eq : data.unread = data.bytes.take data.writePosition := by
  rw [ByteBuffer.unread, ByteBuffer.availableRead, kept.start, drop_zero, Nat.sub_zero]

theorem reserve (memory : Allocator w) (word : 32 ≤ w) (few : size ≤ 2 ^ (w - 1)) :
    (∃ total ≤ whole.length + size, memory.grant total = none ∧ (data.reserve memory size).1 = false) ∨
    (data.reserve memory size).1 = true ∧ Collected w size whole (data.reserve memory size).2 ∧
      size ≤ (data.reserve memory size).2.availableWrite := by
  have half := Nat.two_pow_pred_add_two_pow_pred (show 0 < w by omega)
  obtain ⟨start, within, stored, small, short, leads⟩ := id kept
  unfold ByteBuffer.reserve ByteBuffer.availableWrite
  split
  next lacking =>
    have size_eq : (data.bufferSize + size - (data.bufferSize - data.writePosition)) % 2 ^ w =
        data.writePosition + size := by
      rw [Nat.mod_eq_of_lt] <;> omega
    have all : data.availableRead = data.writePosition := by rw [ByteBuffer.availableRead, start, Nat.sub_zero]
    have length : data.unread.length = data.writePosition := by
      rw [kept.unread_eq, length_take_of_le (within.trans_eq stored.symm)]
    simp only [size_eq, all]
    cases grant : memory.grant (data.writePosition + size) with
    | none => exact .inl ⟨_, Nat.add_le_add_right short _, grant, rfl⟩
    | some fresh =>
      obtain ⟨total, limit⟩ := memory.granted grant
      refine .inr ⟨rfl, ⟨rfl, Nat.le_add_right .., ?_, limit, short, ?_⟩, (Nat.add_sub_cancel_left ..).ge⟩
      · rw [length_append, length_drop, length, total, Nat.add_sub_cancel_left]
      · have same : (data.unread ++ fresh.drop data.writePosition).take data.writePosition = data.unread := take_left' length
        rwa [← same] at leads
  next enough => exact .inr ⟨rfl, kept, not_lt.mp enough⟩

theorem write (input : List UInt8) (enough : size ≤ data.availableWrite) :
    (data.write (input.take data.availableWrite)).1 = true ∧
      Collected w size (whole ++ input) (data.write (input.take data.availableWrite)).2 := by
  have room : (input.take data.availableWrite).length ≤ data.availableWrite := length_take_le ..
  have most : (input.take data.availableWrite).length ≤ input.length := length_take_le' ..
  have leads : Leading size (whole ++ input) _ := kept.leads.append enough
  rw [kept.unread_eq] at leads
  obtain ⟨start, within, stored, small, short, -⟩ := kept
  have placed : (data.bytes.take data.writePosition).length = data.writePosition := length_take_of_le (by omega)
  unfold ByteBuffer.write
  rw [if_neg (not_lt.mpr room)]
  unfold ByteBuffer.availableWrite at *
  refine ⟨rfl, start, by dsimp only; omega, ?_, small, ?_, ?_⟩
  · simp only [length_append, placed, length_drop]
    omega
  · rw [length_append]
    dsimp only
    omega
  · simp only [ByteBuffer.unread, ByteBuffer.availableRead, start, drop_zero, Nat.sub_zero]
    rwa [take_left' (by rw [length_append, placed])]

end Collected

/-- Memory was refused, or the buffer has the leading bytes of `whole`. -/
def Stored (bits : Nat) (calls : List (Allocator w × List UInt8)) (whole : List UInt8)
    (outcome : Except KeymasterError ByteBuffer) : Prop :=
  (∃ call ∈ calls, ∃ total ≤ whole.length + (bits + 7) / 8, call.1.grant total = none ∧
    outcome = .error .memoryAllocationFailed) ∨
  ∃ data, outcome = .ok data ∧ Collected w ((bits + 7) / 8) whole data

section Run

variable (word : 32 ≤ w) (int : bits + 7 < 2 ^ 31)
include word int

theorem storeData_spec (kept : Collected w ((bits + 7) / 8) whole data) (call : Allocator w × List UInt8) :
    Stored bits [call] (whole ++ call.2) (storeData bits data call) := by
  have large : 2 ^ 31 ≤ 2 ^ (w - 1) := Nat.pow_le_pow_right Nat.two_pos (by omega)
  simp only [storeData]
  rcases kept.reserve call.1 word (by omega) with ⟨total, few, refused, failed⟩ | ⟨done, kept, room⟩
  · refine .inl ⟨call, mem_cons_self, total, ?_, refused, by rw [failed]; rfl⟩
    rw [length_append]
    omega
  · obtain ⟨wrote, kept⟩ := kept.write call.2 room
    exact .inr ⟨_, by rw [done, wrote]; rfl, kept⟩

theorem foldlM_storeData (calls : List (Allocator w × List UInt8)) (kept : Collected w ((bits + 7) / 8) whole data) :
    Stored bits calls (whole ++ calls.flatMap (·.2)) (calls.foldlM (storeData bits) data) := by
  induction calls generalizing whole data with
  | nil => exact .inr ⟨data, rfl, by rwa [flatMap_nil, append_nil]⟩
  | cons call rest ih =>
  rw [foldlM_cons, flatMap_cons, ← append_assoc]
  rcases storeData_spec word int kept call with ⟨_, mem, total, few, refused, failed⟩ | ⟨after, stored, next⟩
  · cases mem_singleton.mp mem
    rw [failed]
    refine .inl ⟨call, mem_cons_self, total, few.trans ?_, refused, rfl⟩
    simp only [length_append]
    omega
  · rw [stored]
    exact (ih next).imp_left (Exists.imp fun _ => And.imp_left (mem_cons_of_mem _))

end Run

/-- However the input is split, `data` has its leading bytes, on which alone ECDSA depends. -/
theorem ecdsa_takes_leading_bytes (word : 32 ≤ w) (int : bits + 7 < 2 ^ 31) (pieces : List (Allocator w × List UInt8))
    (params : Bool) (last : Allocator w × List UInt8) :
    let size := (bits + 7) / 8
    let input := (pieces ++ [last]).flatMap (·.2)
    (∃ call ∈ pieces ++ [last], ∃ total ≤ input.length + size, call.1.grant total = none ∧
      finish bits pieces params last = .error .memoryAllocationFailed) ∨
    ∃ data, finish bits pieces params last = .ok data ∧
      data.take (min size input.length) = input.take (min size input.length) ∧ min size input.length ≤ data.length ∧
      (input.length ≤ size → data.length = input.length) ∧
      ∀ {Result : Type} (ecdsa : List UInt8 → Result), (∀ data, ecdsa data = ecdsa (data.take size)) →
        ecdsa data = ecdsa input := by
  intro size input
  -- An input that `UpdateForFinish` passes over adds nothing.
  obtain ⟨calls, among, joined, ran⟩ : ∃ calls ⊆ pieces ++ [last], calls.flatMap (·.2) = input ∧
      finish bits pieces params last = ByteBuffer.unread <$> calls.foldlM (storeData bits) .empty := by
    unfold finish
    cases passed : params || !last.2.isEmpty with
    | true => exact ⟨_, Subset.refl _, rfl, by simp [foldlM_append]⟩
    | false =>
      have none : last.2 = [] := by simpa using (Bool.or_eq_false_iff.mp passed).2
      exact ⟨pieces, subset_append_left .., by simp [input, none], by simp⟩
  have begun : Collected w size [] .empty := ⟨rfl, le_rfl, rfl, Nat.two_pow_pos _, le_rfl, .inl rfl⟩
  have stored := foldlM_storeData word int calls begun
  rw [nil_append, joined] at stored
  rcases stored with ⟨call, mem, total, few, refused, failed⟩ | ⟨after, done, kept⟩
  · exact .inl ⟨call, among mem, total, few, refused, by rw [ran, failed]; rfl⟩
  · refine .inr ⟨after.unread, by rw [ran, done]; rfl, ?_⟩
    rcases kept.leads with same | ⟨long, beyond, same⟩
    · rw [same]
      exact ⟨rfl, min_le_right .., fun _ => rfl, fun _ _ => rfl⟩
    · rw [min_eq_left beyond.le]
      exact ⟨same, long, fun most => absurd beyond (not_lt.mpr most), fun ecdsa leading => by rw [leading, same, ← leading]⟩

/-- Memory with room for everything below half of the addresses. -/
def ample : Allocator 64 where
  grant size := if size < 2 ^ 63 then some (replicate size 0) else none
  granted {size bytes} granted := by
    obtain ⟨small, same⟩ := Option.ite_none_right_eq_some.mp granted
    cases same
    exact ⟨length_replicate, small⟩

/-- The second piece is cut, behind the two bytes that count. -/
theorem ecdsa_three_pieces : ∃ data, finish 12 [(ample, [1]), (ample, [2, 3, 4])] false (ample, [5]) = .ok data ∧
    data.take 2 = [1, 2] := by
  rcases @ecdsa_takes_leading_bytes 64 12 (by decide) (by decide) [(ample, [1]), (ample, [2, 3, 4])] false
    (ample, [5]) with ⟨_, _, _, _, _, failed⟩ | ⟨data, done, same, -⟩
  · exact absurd failed (by decide +kernel)
  · exact ⟨data, done, same⟩

end Trusty.Keymaster
