import Mathlib

/-!
# Gauges

A gauge holds a number for each key; operations increment and decrement it (`run`). What a
series of operations changes is its net effect (`run_eq`), whatever their order, so series that
each leave a gauge as it was do so in any interleaving (`Balanced.interleave`).
-/

set_option autoImplicit false

namespace AuraGateway.Foundations.Gauges

universe u

variable {κ : Type u} [DecidableEq κ]

/-- An operation on a gauge. -/
inductive Op (κ : Type u) where
  | increment (key : κ)
  | decrement (key : κ)
  deriving DecidableEq

/-- What an operation adds to the value of a key. -/
def Op.delta (k : κ) : Op κ → Int
  | .increment key => if key = k then 1 else 0
  | .decrement key => if key = k then -1 else 0

/-- Run operations on a gauge. -/
def run (g : κ → Int) : List (Op κ) → κ → Int
  | [] => g
  | .increment key :: ops => run (Function.update g key (g key + 1)) ops
  | .decrement key :: ops => run (Function.update g key (g key - 1)) ops

/-- What operations add to the value of a key. -/
def net (k : κ) (ops : List (Op κ)) : Int := (ops.map (Op.delta k)).sum

@[simp] theorem net_nil (k : κ) : net k [] = 0 := rfl

@[simp] theorem net_cons (k : κ) (op : Op κ) (ops : List (Op κ)) :
    net k (op :: ops) = op.delta k + net k ops := by
  rw [net, List.map_cons, List.sum_cons, net]

@[simp] theorem net_append (k : κ) (ops₁ ops₂ : List (Op κ)) :
    net k (ops₁ ++ ops₂) = net k ops₁ + net k ops₂ := by
  rw [net, List.map_append, List.sum_append, net, net]

theorem net_perm {ops₁ ops₂ : List (Op κ)} (h : ops₁.Perm ops₂) (k : κ) :
    net k ops₁ = net k ops₂ :=
  (h.map _).sum_eq

/-- Operations change a gauge by their net effect. -/
theorem run_eq (g : κ → Int) (ops : List (Op κ)) (k : κ) : run g ops k = g k + net k ops := by
  induction ops generalizing g with
  | nil => rw [run, net_nil, Int.add_zero]
  | cons op ops ih =>
      cases op with
      | increment key =>
          rw [run, ih, net_cons, Op.delta, Function.update_apply]
          by_cases hk : key = k
          · subst hk
            rw [if_pos rfl, if_pos rfl, Int.add_assoc]
          · rw [if_neg (Ne.symm hk), if_neg hk, Int.zero_add]
      | decrement key =>
          rw [run, ih, net_cons, Op.delta, Function.update_apply]
          by_cases hk : key = k
          · subst hk
            rw [if_pos rfl, if_pos rfl]
            omega
          · rw [if_neg (Ne.symm hk), if_neg hk, Int.zero_add]

/-- The operations leave every gauge as it was. -/
def Balanced (ops : List (Op κ)) : Prop := ∀ k, net k ops = 0

theorem balanced_nil : Balanced ([] : List (Op κ)) := fun _ => rfl

/-- An increment alone is not balanced. -/
theorem not_balanced_increment (a : κ) : ¬ Balanced [Op.increment a] := by
  intro h
  have ha := h a
  simp [Op.delta] at ha

/-- An increment is undone by the decrement of the same key only. -/
theorem balanced_pair_iff (a b : κ) : Balanced [Op.increment a, Op.decrement b] ↔ b = a := by
  constructor
  · intro h
    have ha := h a
    by_contra hne
    simp [Op.delta, hne] at ha
  · rintro rfl k
    by_cases hk : b = k <;> simp [Op.delta, hk]

/-- Every gauge is left as it was exactly by balanced operations. -/
theorem run_eq_self_iff (g : κ → Int) (ops : List (Op κ)) : run g ops = g ↔ Balanced ops := by
  constructor
  · intro h k
    have hk := congrFun h k
    rw [run_eq] at hk
    omega
  · intro h
    funext k
    rw [run_eq, h k, Int.add_zero]

/-- Balanced series stay balanced when their operations are interleaved. -/
theorem Balanced.interleave {series : List (List (Op κ))} (h : ∀ ops ∈ series, Balanced ops)
    {ops : List (Op κ)} (hperm : ops.Perm series.flatten) : Balanced ops := by
  intro k
  rw [net_perm hperm k]
  clear hperm
  induction series with
  | nil => rfl
  | cons ops series ih =>
      rw [List.flatten_cons, net_append, h ops List.mem_cons_self k,
        ih fun ops' hops' => h ops' (List.mem_cons_of_mem ops hops'), Int.add_zero]

end AuraGateway.Foundations.Gauges
