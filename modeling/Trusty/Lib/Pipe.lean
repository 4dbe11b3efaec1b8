import Mathlib

/-!
# Reliable pipes

Messages come out in the order they went in. One that has come out can be looked at
under a number until the number is given back.
-/

variable {α : Type}

/-- `sent` is everything that has gone in, and the first `got` messages have
come out. Message number `reading id` can be looked at under `id`. -/
structure Pipe (α : Type) where
  sent : List α
  got : Nat
  reading : Nat → Option Nat

namespace Pipe

def empty : Pipe α := ⟨[], 0, fun _ => none⟩

def send (pipe : Pipe α) (message : α) : Pipe α :=
  { pipe with sent := pipe.sent ++ [message] }

def get (pipe : Pipe α) (id : Nat) : Pipe α :=
  { pipe with got := pipe.got + 1, reading := Function.update pipe.reading id (some pipe.got) }

def put (pipe : Pipe α) (id : Nat) : Pipe α :=
  { pipe with reading := Function.update pipe.reading id none }

def next (pipe : Pipe α) : Option α :=
  pipe.sent[pipe.got]?

/-- The message that can be looked at under `id`. -/
def message (pipe : Pipe α) (id : Nat) : Option α :=
  (pipe.reading id).bind fun index => pipe.sent[index]?

structure Valid (pipe : Pipe α) : Prop where
  got_le : pipe.got ≤ pipe.sent.length
  reading_lt : ∀ id index, pipe.reading id = some index → index < pipe.got

theorem valid_empty : (empty : Pipe α).Valid := ⟨Nat.le_refl 0, nofun⟩

variable {pipe : Pipe α}

section

variable (valid : pipe.Valid)
include valid

theorem Valid.send (message : α) : (pipe.send message).Valid := by
  refine ⟨?_, valid.reading_lt⟩
  simp only [Pipe.send, List.length_append]
  exact Nat.le_add_right_of_le valid.got_le

theorem Valid.get (waiting : pipe.got < pipe.sent.length) (id : Nat) : (pipe.get id).Valid := by
  refine ⟨waiting, ?_⟩
  intro other index read
  by_cases same : other = id
  · subst same
    have read : pipe.got = index := by simpa [Pipe.get] using read
    exact read ▸ Nat.lt_succ_self _
  · have read : pipe.reading other = some index := by simpa [Pipe.get, same] using read
    exact Nat.lt_succ_of_lt (valid.reading_lt other index read)

theorem Valid.put (id : Nat) : (pipe.put id).Valid := by
  refine ⟨valid.got_le, ?_⟩
  intro other index read
  by_cases same : other = id
  · simp [Pipe.put, same] at read
  · exact valid.reading_lt other index (by simpa [Pipe.put, same] using read)

theorem Valid.message_send (new : α) (id : Nat) : (pipe.send new).message id = pipe.message id := by
  unfold message
  cases read : pipe.reading id with
  | none => simp [Pipe.send, read]
  | some index =>
  have below := lt_of_lt_of_le (valid.reading_lt id index read) valid.got_le
  simp [Pipe.send, read, List.getElem?_append_left below]

end

theorem message_get (id : Nat) : (pipe.get id).message id = pipe.next := by
  simp [message, Pipe.get, next]

theorem message_get_ne {id other : Nat} (ne : other ≠ id) : (pipe.get id).message other = pipe.message other := by
  simp [message, Pipe.get, ne]

theorem message_put (id : Nat) : (pipe.put id).message id = none := by
  simp [message, Pipe.put]

theorem message_put_ne {id other : Nat} (ne : other ≠ id) : (pipe.put id).message other = pipe.message other := by
  simp [message, Pipe.put, ne]

end Pipe
