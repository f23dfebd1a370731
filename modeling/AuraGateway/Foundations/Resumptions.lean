import Mathlib.Data.List.Basic

/-!
# Tasks that interleave

A task is a finite tree of atomic steps on a shared state; each step may also depend on an answer
of the environment. A pool runs many tasks at once, one step of one task at a time, in any order,
and may lose all of them (`Pool.apply`). A property of the state that every step of every task
keeps, whatever the others did before it, holds throughout (`Pool.Keeps.run`). Run alone, a task
goes through its steps with the answers in order (`Task.run`).

Where the others change the state in known ways only, a task may go on from what it has seen of it
(`Task.Guarantees`), and the property holds if its own changes are of these ways
(`Pool.Guarantees.run`).
-/

set_option autoImplicit false

namespace AuraGateway.Foundations.Resumptions

universe u v w x

/-- A task that is done, or has one more step: what it does to the state, and how the task goes on. -/
inductive Task (O : Type u) (S : Type v) (A : Type w) where
  | done (a : A)
  | step (update : O → S → S) (next : O → S → Task O S A)

variable {O : Type u} {S : Type v} {A : Type w}

namespace Task

/-- One action on the state, then the task for its result. -/
def act {α : Type x} (f : O → S → α × S) (k : α → Task O S A) : Task O S A :=
  .step (fun o s => (f o s).2) fun o s => k (f o s).1

/-- The result and the state of a task that runs alone. -/
def run : Task O S A → (Nat → O) → S → A × S
  | .done a, _, s => (a, s)
  | .step update next, answers, s =>
      (next (answers 0) s).run (fun n => answers (n + 1)) (update (answers 0) s)

@[simp]
theorem run_done (a : A) (answers : Nat → O) (s : S) : (done a).run answers s = (a, s) := rfl

@[simp]
theorem run_act {α : Type x} (f : O → S → α × S) (k : α → Task O S A) (answers : Nat → O) (s : S) :
    (act f k).run answers s
      = (k (f (answers 0) s).1).run (fun n => answers (n + 1)) (f (answers 0) s).2 := rfl

/-- Every step keeps the property, whatever happened to the state in between. -/
def Respects (I : S → Prop) : Task O S A → Prop
  | .done _ => True
  | .step update next => ∀ o s, I s → I (update o s) ∧ (next o s).Respects I

variable {I : S → Prop}

theorem respects_done (a : A) : (done a : Task O S A).Respects I := trivial

theorem respects_act {α : Type x} {f : O → S → α × S} {k : α → Task O S A}
    (h : ∀ o s, I s → I (f o s).2 ∧ (k (f o s).1).Respects I) : (act f k).Respects I := h

/-- A task that runs alone keeps the property. -/
theorem Respects.run {t : Task O S A} (h : t.Respects I) (answers : Nat → O) {s : S} (hs : I s) :
    I (t.run answers s).2 := by
  induction t generalizing answers s with
  | done a => exact hs
  | step update next ih =>
      obtain ⟨hupdate, hnext⟩ := h (answers 0) s hs
      exact ih _ _ hnext _ hupdate

end Task

/-! ## Pools -/

/-- The tasks that run at once, and the state they share. -/
structure Pool (O : Type u) (S : Type v) (A : Type w) where
  tasks : List (Task O S A)
  state : S

/-- A new task, a step of one task with the answer it gets, or the loss of all tasks with what
the state becomes. -/
inductive Event (O : Type u) (S : Type v) (A : Type w) where
  | start (t : Task O S A)
  | resume (i : Nat) (answer : O)
  | crash (lost : S → S)

/-- The property is kept by a task that starts, and by what a loss leaves of the state. -/
def Event.Keeps (I : S → Prop) : Event O S A → Prop
  | .start t => t.Respects I
  | .resume _ _ => True
  | .crash lost => ∀ s, I s → I (lost s)

namespace Pool

def apply (p : Pool O S A) : Event O S A → Pool O S A
  | .start t => { p with tasks := p.tasks ++ [t] }
  | .resume i o =>
      match p.tasks[i]? with
      | some (.step update next) =>
          { tasks := p.tasks.set i (next o p.state), state := update o p.state }
      | _ => p
  | .crash lost => { tasks := [], state := lost p.state }

def run (p : Pool O S A) (es : List (Event O S A)) : Pool O S A := es.foldl apply p

/-- The property holds of the state, and every task keeps it. -/
structure Keeps (I : S → Prop) (p : Pool O S A) : Prop where
  state : I p.state
  tasks : ∀ t ∈ p.tasks, t.Respects I

variable {I : S → Prop} {p : Pool O S A}

theorem Keeps.apply (h : p.Keeps I) {e : Event O S A} (he : e.Keeps I) : (p.apply e).Keeps I := by
  cases e with
  | start t =>
      refine ⟨h.state, fun t' ht' => ?_⟩
      obtain ht' | ht' := List.mem_append.mp ht'
      · exact h.tasks t' ht'
      · rw [List.mem_singleton.mp ht']
        exact he
  | resume i o =>
      simp only [Pool.apply]
      split
      · next update next hget =>
          obtain ⟨hupdate, hnext⟩ := h.tasks _ (List.mem_of_getElem? hget) o p.state h.state
          refine ⟨hupdate, fun t' ht' => ?_⟩
          obtain ht' | rfl := List.mem_or_eq_of_mem_set ht'
          · exact h.tasks t' ht'
          · exact hnext
      · exact h
  | crash lost => exact ⟨he p.state h.state, fun t ht => by cases ht⟩

/-- In every interleaving the property holds. -/
theorem Keeps.run {es : List (Event O S A)} (h : p.Keeps I) (hes : ∀ e ∈ es, e.Keeps I) :
    (p.run es).Keeps I := by
  induction es generalizing p with
  | nil => exact h
  | cons e es ih =>
      exact ih (h.apply (hes e List.mem_cons_self)) fun e' he' => hes e' (List.mem_cons_of_mem e he')

end Pool

/-! ## What tasks rely on -/

section Rely

variable {R : S → S → Prop} {I : S → Prop}

/-- From this state on, if the others change it only as relied on, every step keeps the property and
changes the state only so. -/
def Task.Guarantees (R : S → S → Prop) (I : S → Prop) : Task O S A → S → Prop
  | .done _, _ => True
  | .step update next, s => ∀ s', R s s' → I s' → ∀ o,
      I (update o s') ∧ R s' (update o s') ∧ (next o s').Guarantees R I (update o s')

theorem Task.guarantees_done (a : A) (s : S) : (done a : Task O S A).Guarantees R I s := trivial

/-- An action whose result goes with what the state is afterwards. -/
theorem Task.guarantees_act {α : Type x} {f : O → S → α × S} {k : α → Task O S A} {s : S}
    (h : ∀ s', R s s' → I s' → ∀ o,
      I (f o s').2 ∧ R s' (f o s').2 ∧ (k (f o s').1).Guarantees R I (f o s').2) :
    (act f k).Guarantees R I s := h

theorem Task.Guarantees.later (htrans : ∀ a b c, R a b → R b c → R a c) {t : Task O S A} {s s' : S}
    (h : t.Guarantees R I s) (hs : R s s') : t.Guarantees R I s' := by
  cases t with
  | done a => exact guarantees_done a s'
  | step update next => exact fun s'' hs' hI o => h s'' (htrans _ _ _ hs hs') hI o

/-- A task that starts guarantees this from any state, and a loss keeps the property. -/
def Event.Guarantees (R : S → S → Prop) (I : S → Prop) : Event O S A → Prop
  | .start t => ∀ s, I s → t.Guarantees R I s
  | .resume _ _ => True
  | .crash lost => ∀ s, I s → I (lost s)

/-- The property holds of the state, and every task guarantees it from there. -/
structure Pool.Guarantees (R : S → S → Prop) (I : S → Prop) (p : Pool O S A) : Prop where
  state : I p.state
  tasks : ∀ t ∈ p.tasks, t.Guarantees R I p.state

namespace Pool.Guarantees

variable {p : Pool O S A} (hrefl : ∀ s, R s s) (htrans : ∀ a b c, R a b → R b c → R a c)
include hrefl htrans

theorem apply (h : p.Guarantees R I) {e : Event O S A} (he : e.Guarantees R I) :
    (p.apply e).Guarantees R I := by
  cases e with
  | start t =>
      refine ⟨h.state, fun t' ht' => ?_⟩
      obtain ht' | ht' := List.mem_append.mp ht'
      · exact h.tasks t' ht'
      · rw [List.mem_singleton.mp ht']
        exact he p.state h.state
  | resume i o =>
      simp only [Pool.apply]
      split
      · next update next hget =>
          -- the others see the step as one they rely on
          obtain ⟨hI, hR, hnext⟩ :=
            h.tasks _ (List.mem_of_getElem? hget) p.state (hrefl p.state) h.state o
          refine ⟨hI, fun t' ht' => ?_⟩
          obtain ht' | rfl := List.mem_or_eq_of_mem_set ht'
          · exact (h.tasks t' ht').later htrans hR
          · exact hnext
      · exact h
  | crash lost => exact ⟨he p.state h.state, fun t ht => by cases ht⟩

/-- In every interleaving the property holds. -/
theorem run (h : p.Guarantees R I) {es : List (Event O S A)} (hes : ∀ e ∈ es, e.Guarantees R I) :
    (p.run es).Guarantees R I := by
  induction es generalizing p with
  | nil => exact h
  | cons e es ih =>
      exact ih (apply hrefl htrans h (hes e List.mem_cons_self))
        fun e' he' => hes e' (List.mem_cons_of_mem e he')

end Pool.Guarantees

end Rely

end AuraGateway.Foundations.Resumptions
