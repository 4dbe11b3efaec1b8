import Mathlib

/-!
# Weakest preconditions of state programs

Programs over a state that return a value or stop with a reason, and rules for
what holds where they end.
-/

namespace StateLogic

open List

variable {ε σ α β : Type}

/-- Run from `state`, the program returns in `post` or stops in `stop`. -/
def wp (program : EStateM ε σ α) (post : α → σ → Prop) (stop : ε → σ → Prop) (state : σ) : Prop :=
  match program state with
  | .ok value final => post value final
  | .error reason final => stop reason final

variable {post : α → σ → Prop} {stop : ε → σ → Prop} {state : σ} {program : EStateM ε σ α}

theorem wp_of_ok {value : α} {final : σ} (result : program state = .ok value final) :
    wp program post stop state ↔ post value final := by
  simp only [wp, result]

theorem map_eq_ok {f : β → α} {program : EStateM ε σ β} {start final : σ} {value : α}
    (returned : (f <$> program) start = .ok value final) :
    ∃ result, program start = .ok result final ∧ value = f result := by
  change (match program start with
    | .ok result next => EStateM.Result.ok (f result) next
    | .error reason next => .error reason next) = _ at returned
  split at returned
  · rename_i result next same
    cases returned
    exact ⟨result, same, rfl⟩
  · cases returned

theorem wp_mono {weaker : α → σ → Prop} {weakerStop : ε → σ → Prop} (holds : wp program post stop state)
    (returned : ∀ value final, post value final → weaker value final)
    (stopped : ∀ reason final, stop reason final → weakerStop reason final) : wp program weaker weakerStop state := by
  unfold wp at holds ⊢
  cases result : program state with
  | ok value final =>
    rw [result] at holds
    exact returned value final holds
  | error reason final =>
  rw [result] at holds
  exact stopped reason final holds

theorem wp_trivial (program : EStateM ε σ α) : wp program (fun _ _ => True) (fun _ _ => True) state := by
  unfold wp
  split <;> trivial

@[simp] theorem wp_pure (value : α) : wp (pure value : EStateM ε σ α) post stop state ↔ post value state := Iff.rfl

@[simp] theorem wp_bind (program : EStateM ε σ β) (rest : β → EStateM ε σ α) : wp (program >>= rest) post stop state ↔
      wp program (fun value => wp (rest value) post stop) stop state := by
  simp only [wp, bind, EStateM.bind]
  cases program state with
  | ok value final | error reason final => rfl

@[simp] theorem wp_map (f : β → α) (program : EStateM ε σ β) : wp (f <$> program) post stop state ↔
      wp program (fun value => post (f value)) stop state := by
  simp only [wp, Functor.map, EStateM.map]
  cases program state with
  | ok value final | error reason final => rfl

@[simp] theorem wp_get {post : σ → σ → Prop} : wp (get : EStateM ε σ σ) post stop state ↔ post state state := Iff.rfl

@[simp] theorem wp_set {post : PUnit → σ → Prop} (next : σ) :
    wp (set next : EStateM ε σ PUnit) post stop state ↔ post () next := Iff.rfl

@[simp] theorem wp_modify {post : PUnit → σ → Prop} (change : σ → σ) :
    wp (modify change : EStateM ε σ PUnit) post stop state ↔ post () (change state) := Iff.rfl

@[simp] theorem wp_throw (reason : ε) : wp (throw reason : EStateM ε σ α) post stop state ↔ stop reason state := Iff.rfl

theorem wp_ite (condition : Prop) [Decidable condition] (yes no : EStateM ε σ α) :
    wp (if condition then yes else no) post stop state ↔
      (condition → wp yes post stop state) ∧ (¬condition → wp no post stop state) := by
  by_cases holds : condition <;> simp [holds]

private theorem wp_forM_from {γ : Type} {round : γ → EStateM ε σ PUnit} {kept : List γ → List γ → σ → Prop}
    (step : ∀ done next rest current, kept done (next :: rest) current →
      wp (round next) (fun _ => kept (done ++ [next]) rest) stop current) (left : List γ) (done : List γ)
    (holds : kept done left state) : wp (left.forM round) (fun _ => kept (done ++ left) []) stop state := by
  induction left generalizing done state with
  | nil =>
    rw [append_nil]
    exact holds
  | cons next rest ih =>
  change wp (round next >>= fun _ => rest.forM round) _ _ _
  rw [wp_bind]
  apply wp_mono (step done next rest state holds)
  · intro _ final keeps
    have loop := ih (done ++ [next]) keeps
    simpa only [append_assoc, cons_append, nil_append] using loop
  · exact fun _ _ stops => stops

/-- A loop keeps what each of its rounds keeps. The invariant may speak about
the elements that are done and those that are left. -/
theorem wp_forM {γ : Type} {round : γ → EStateM ε σ PUnit} {elements : List γ} (kept : List γ → List γ → σ → Prop)
    (step : ∀ done next rest current, kept done (next :: rest) current →
      wp (round next) (fun _ => kept (done ++ [next]) rest) stop current) (holds : kept [] elements state) :
    wp (elements.forM round) (fun _ => kept elements []) stop state :=
  wp_forM_from step elements [] holds

/-- Where the program ends is related to where it began, unless it has stopped
for an excused reason. -/
def Keeps (related : σ → σ → Prop) (excused : ε → Prop) (program : EStateM ε σ α) : Prop :=
  ∀ state, wp program (fun _ => related state)
    (fun reason final => excused reason ∨ related state final) state

namespace Keeps

variable {related : σ → σ → Prop} {excused : ε → Prop}

theorem mono {weaker : σ → σ → Prop} {more : ε → Prop} (keeps : Keeps related excused program)
    (weakens : ∀ state final, related state final → weaker state final)
    (excuses : ∀ reason, excused reason → more reason) : Keeps weaker more program := by
  intro state
  apply wp_mono (keeps state)
  · exact fun _ final => weakens state final
  · exact fun reason final => .imp (excuses reason) (weakens state final)

section Refl

variable [Std.Refl related]

theorem pure (value : α) : Keeps related excused (pure value : EStateM ε σ α) := fun state => Std.Refl.refl state

theorem throw (reason : ε) : Keeps related excused (throw reason : EStateM ε σ α) :=
  fun state => .inr (Std.Refl.refl state)

theorem get : Keeps related excused (get : EStateM ε σ σ) := fun state => Std.Refl.refl state

end Refl

theorem ite {condition : Prop} [Decidable condition] {yes no : EStateM ε σ α} (left : Keeps related excused yes)
    (right : Keeps related excused no) : Keeps related excused (if condition then yes else no) := by
  split
  · exact left
  · exact right

theorem bind [IsTrans σ related] {program : EStateM ε σ β} {rest : β → EStateM ε σ α}
    (first : Keeps related excused program) (second : ∀ value, Keeps related excused (rest value)) :
    Keeps related excused (program >>= rest) := by
  intro state
  rw [wp_bind]
  apply wp_mono (first state) _ fun _ _ stops => stops
  intro value current near
  apply wp_mono (second value current)
  · exact fun _ final onwards => IsTrans.trans _ _ _ near onwards
  intro reason final stops
  rcases stops with stops | onwards
  · exact .inl stops
  · exact .inr (IsTrans.trans _ _ _ near onwards)

theorem forM [Std.Refl related] [IsTrans σ related] {γ : Type} {round : γ → EStateM ε σ PUnit}
    (each : ∀ element, Keeps related excused (round element)) (elements : List γ) :
    Keeps related excused (elements.forM round) := by
  induction elements with
  | nil => exact Keeps.pure _
  | cons element rest ih => exact (each element).bind fun _ => ih

end Keeps

end StateLogic
