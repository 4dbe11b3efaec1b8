import Mathlib

/-!
# Interactive programs

Programs that ask an environment for answers, and rules of pre- and postconditions.
The environment may move between two questions, and is free in its answers up to a
given relation.
-/

/-- A program over the operations `Op`, each answered in its own type. -/
inductive Interaction (Op : Type) (Reply : Op → Type) (α : Type) : Type where
  | done (value : α)
  | ask (op : Op) (next : Reply op → Interaction Op Reply α)

namespace Interaction

section

variable {Op : Type} {Reply : Op → Type} {α β : Type}

def bind (program : Interaction Op Reply α) (rest : α → Interaction Op Reply β) :
    Interaction Op Reply β :=
  match program with
  | .done value => rest value
  | .ask op next => .ask op fun reply => (next reply).bind rest

instance : Monad (Interaction Op Reply) where
  pure := .done
  bind := bind

def perform (op : Op) : Interaction Op Reply (Reply op) := .ask op .done

@[simp] theorem pure_eq (value : α) : (pure value : Interaction Op Reply α) = .done value := rfl

@[simp] theorem done_bind (value : α) (rest : α → Interaction Op Reply β) :
    (.done value : Interaction Op Reply α) >>= rest = rest value := rfl

@[simp] theorem ask_bind (op : Op) (next : Reply op → Interaction Op Reply α) (rest : α → Interaction Op Reply β) :
    (.ask op next : Interaction Op Reply α) >>= rest = .ask op fun reply => next reply >>= rest :=
  rfl

theorem bind_done (program : Interaction Op Reply α) : program.bind .done = program := by
  induction program with
  | done value => rfl
  | ask op next ih => exact congrArg (Interaction.ask op) (funext ih)

theorem bind_bind {γ : Type} (program : Interaction Op Reply α) (rest : α → Interaction Op Reply β)
    (last : β → Interaction Op Reply γ) :
    (program.bind rest).bind last = program.bind fun value => (rest value).bind last := by
  induction program with
  | done value => rfl
  | ask op next ih => exact congrArg (Interaction.ask op) (funext ih)

instance : LawfulMonad (Interaction Op Reply) :=
  LawfulMonad.mk' (Interaction Op Reply) bind_done (fun _ _ => rfl) bind_bind

end

structure Environment (Op : Type) (Reply : Op → Type) (World : Type) where
  move : World → World → Prop
  answer : World → (op : Op) → Reply op → World → Prop

variable {Op : Type} {Reply : Op → Type} {World α β : Type} (env : Environment Op Reply World)

/-- Whatever the environment does from `world` on, every operation is asked
in a world that satisfies `guard`, and the program ends in `post`. -/
def Upholds (guard : Op → World → Prop) (post : α → World → Prop) :
    Interaction Op Reply α → World → Prop
  | .done value, world => ∀ later, Relation.ReflTransGen env.move world later → post value later
  | .ask op next, world => ∀ later, Relation.ReflTransGen env.move world later →
      guard op later ∧
        ∀ reply after, env.answer later op reply after → Upholds guard post (next reply) after

/-- The program may end with `value` in the last world, from the first one on. -/
inductive Runs : Interaction Op Reply α → World → α → World → Prop where
  | done {value world later} (reached : Relation.ReflTransGen env.move world later) :
      Runs (.done value) world value later
  | ask {op next world later reply after value final}
      (reached : Relation.ReflTransGen env.move world later)
      (answered : env.answer later op reply after) (rest : Runs (next reply) after value final) :
      Runs (.ask op next) world value final

variable {env} {guard : Op → World → Prop} {post : α → World → Prop} {program : Interaction Op Reply α}
  {later : World}

theorem Upholds.move {world : World} (upheld : Upholds env guard post program world) (moved : env.move world later) :
    Upholds env guard post program later := by
  cases program with
  | done value | ask op next => exact fun final reached => upheld final (.head moved reached)

variable {world : World} {value : α}

section

variable {op : Op} {next : Reply op → Interaction Op Reply α}

theorem Upholds.guarded (upheld : Upholds env guard post (.ask op next) world) : guard op world :=
  (upheld world .refl).1

theorem Upholds.answer {world after : World} {reply : Reply op} (upheld : Upholds env guard post (.ask op next) world)
    (answered : env.answer world op reply after) : Upholds env guard post (next reply) after :=
  (upheld world .refl).2 reply after answered

end

theorem Upholds.result (upheld : Upholds env guard post (.done value) world) : post value world := upheld world .refl

theorem Upholds.runs {world final : World} (upheld : Upholds env guard post program world)
    (run : Runs env program world value final) : post value final := by
  induction run with
  | done reached => exact upheld _ reached
  | ask reached answered _ ih => exact ih ((upheld _ reached).2 _ _ answered)

theorem Runs.moved {final : World} (reached : Relation.ReflTransGen env.move world later)
    (run : Runs env program later value final) : Runs env program world value final := by
  cases run with
  | done further => exact .done (reached.trans further)
  | ask further answered rest => exact .ask (reached.trans further) answered rest

variable {rest : α → Interaction Op Reply β}

theorem Runs.bind {final : World} {result : β} (first : Runs env program world value later)
    (then' : Runs env (rest value) later result final) : Runs env (program >>= rest) world result final := by
  induction first with
  | done reached => exact then'.moved reached
  | ask reached answered _ ih => exact .ask reached answered (ih then')

def Stable (env : Environment Op Reply World) (kept : World → Prop) : Prop :=
  ∀ world later, kept world → env.move world later → kept later

theorem Stable.reached {kept : World → Prop} (stable : Stable env kept)
    (holds : kept world) (reached : Relation.ReflTransGen env.move world later) : kept later := by
  induction reached with
  | refl => exact holds
  | tail _ moved keeps => exact stable _ _ keeps moved

theorem Stable.and {kept also : World → Prop} (stable : Stable env kept)
    (stableToo : Stable env also) : Stable env fun world => kept world ∧ also world :=
  fun world later holds moved =>
    ⟨stable world later holds.1 moved, stableToo world later holds.2 moved⟩

theorem upholds_done {kept : World → Prop} (stable : Stable env kept) (holds : kept world)
    (ends : ∀ later, kept later → post value later) : Upholds env guard post (.done value) world :=
  fun later reached => ends later (stable.reached holds reached)

theorem upholds_ask {kept : World → Prop} (stable : Stable env kept) {op : Op}
    {next : Reply op → Interaction Op Reply α} (holds : kept world) (guarded : ∀ later, kept later → guard op later)
    (answered : ∀ later reply after, kept later → env.answer later op reply after →
      Upholds env guard post (next reply) after) : Upholds env guard post (.ask op next) world :=
  fun later reached =>
    ⟨guarded later (stable.reached holds reached),
      fun reply after answer => answered later reply after (stable.reached holds reached) answer⟩

/-!
### Environments that do not move
-/

section

variable (still : ∀ world later, ¬env.move world later)

include still

theorem eq_of_still {world later : World} (reached : Relation.ReflTransGen env.move world later) : later = world := by
  induction reached with
  | refl => rfl
  | tail _ moved _ => exact absurd moved (still _ _)

theorem upholds_done_iff : Upholds env guard post (.done value) world ↔ post value world := by
  constructor
  · exact Upholds.result
  · intro holds later reached
    rwa [eq_of_still still reached]

theorem upholds_ask_iff {op : Op} {next : Reply op → Interaction Op Reply α} :
    Upholds env guard post (.ask op next) world ↔ guard op world ∧ ∀ reply after, env.answer world op reply after →
        Upholds env guard post (next reply) after := by
  constructor
  · exact fun upheld => ⟨upheld.guarded, fun reply after answered => upheld.answer answered⟩
  · intro holds later reached
    rwa [eq_of_still still reached]

end

/-!
### Sequences
-/

variable {final : β → World → Prop}

theorem upholds_bind (first : Upholds env guard (fun value => Upholds env guard final (rest value)) program world) :
    Upholds env guard final (program >>= rest) world := by
  induction program generalizing world with
  | done value => exact first.result
  | ask op next ih =>
  intro later reached
  obtain ⟨guarded, answered⟩ := first later reached
  exact ⟨guarded, fun reply after answer => ih reply (answered reply after answer)⟩

theorem Upholds.map {f : α → β} (upheld : Upholds env guard post program world)
    (implies : ∀ value later, post value later → final (f value) later) :
    Upholds env guard final (f <$> program) world := by
  induction program generalizing world with
  | done value => exact fun later reached => implies value later (upheld later reached)
  | ask op next ih =>
  intro later reached
  obtain ⟨guarded, answered⟩ := upheld later reached
  exact ⟨guarded, fun reply after answer => ih reply (answered reply after answer)⟩

theorem Upholds.mono {weaker : α → World → Prop} (upheld : Upholds env guard post program world)
    (implies : ∀ value later, post value later → weaker value later) : Upholds env guard weaker program world := by
  have mapped := upheld.map (f := id) implies
  have same : id <$> program = program := bind_done program
  rwa [same] at mapped

end Interaction
