import Mathlib

/-!
# Reference lists

An object keeps a list of its references and is destroyed with the last one. Here the
lists of all objects are one list of references with the objects they link to.
-/

namespace References

open List

variable {ρ ω : Type} [DecidableEq ρ] [DecidableEq ω]

def linked (links : List (ρ × ω)) (ref : ρ) : Bool :=
  links.any fun link => link.1 = ref

def referenced (links : List (ρ × ω)) (object : ω) : Bool :=
  links.any fun link => link.2 = object

def add (links : List (ρ × ω)) (ref : ρ) (object : ω) : List (ρ × ω) :=
  links ++ [(ref, object)]

def drop (links : List (ρ × ω)) (ref : ρ) : List (ρ × ω) :=
  links.filter fun link => link.1 ≠ ref

/-- The links are those of `holder`, which says where each reference points. -/
def Holds (links : List (ρ × ω)) (holder : ρ → Option ω) : Prop :=
  ∀ ref object, (ref, object) ∈ links ↔ holder ref = some object

variable {links : List (ρ × ω)} {holder : ρ → Option ω}

omit [DecidableEq ω] in
theorem Holds.linked_eq (holds : Holds links holder) (ref : ρ) : linked links ref = (holder ref).isSome := by
  rw [Bool.eq_iff_iff, linked, any_eq_true, Option.isSome_iff_exists]
  constructor
  · rintro ⟨⟨other, object⟩, listed, same⟩
    have same : other = ref := by simpa using same
    exact ⟨object, (holds ref object).mp (same ▸ listed)⟩
  · rintro ⟨object, held⟩
    exact ⟨(ref, object), (holds ref object).mpr held, by simp⟩

omit [DecidableEq ρ] in
theorem Holds.referenced_iff (holds : Holds links holder) (object : ω) :
    referenced links object = true ↔ ∃ ref, holder ref = some object := by
  rw [referenced, any_eq_true]
  constructor
  · rintro ⟨⟨ref, other⟩, listed, same⟩
    have same : other = object := by simpa using same
    exact ⟨ref, (holds ref object).mp (same ▸ listed)⟩
  · rintro ⟨ref, held⟩
    exact ⟨(ref, object), (holds ref object).mpr held, by simp⟩

omit [DecidableEq ω] in
theorem linked_add (ref other : ρ) (object : ω) :
    linked (add links ref object) other = (linked links other || decide (ref = other)) := by
  simp [linked, add]

omit [DecidableEq ω] in
theorem drop_add {ref : ρ} (unlinked : linked links ref = false) (object : ω) :
    drop (add links ref object) ref = links := by
  have others : ∀ link ∈ links, link.1 ≠ ref := by simpa [linked] using unlinked
  simpa [drop, add] using others

omit [DecidableEq ω] in
theorem Holds.add (holds : Holds links holder) {ref : ρ} (apart : holder ref = none)
    (object : ω) : Holds (add links ref object) (Function.update holder ref (some object)) := by
  intro other target
  rw [References.add, mem_append, mem_singleton, Prod.mk.injEq, holds other target]
  by_cases same : other = ref
  · subst same
    simp [apart, eq_comm]
  · simp [same]

omit [DecidableEq ω] in
theorem Holds.drop (holds : Holds links holder) (ref : ρ) :
    Holds (drop links ref) (Function.update holder ref none) := by
  intro other target
  rw [References.drop, mem_filter, holds other target]
  by_cases same : other = ref
  · simp [same]
  · simp [same]

omit [DecidableEq ω] in
theorem held_update {ref : ρ} {object : ω} (held : ∃ other, holder other = some object)
    (ne : holder ref ≠ some object) (target : Option ω) :
    ∃ other, Function.update holder ref target other = some object := by
  obtain ⟨other, held⟩ := held
  refine ⟨other, ?_⟩
  rw [Function.update_of_ne, held]
  rintro rfl
  exact ne held

end References
