import Mathlib

/-!
# Scanners over a growing input

A scanner cuts one token off the front of its input, or waits for more of it. What it has
cut off does not change when the input grows, so tokens can be cut off as the input comes
in (`Scanner.drain_append`), wherever the pieces end.
-/

set_option autoImplicit false

namespace AuraGateway.Foundations

universe u v

/-- A scanner for tokens in `α` over an input of `β`. -/
structure Scanner (β : Type u) (α : Type v) where
  /-- The first token and what follows it; `none` where the input ends too early. -/
  scan : List β → Option (α × List β)
  length_of_scan : ∀ {l a r}, scan l = some (a, r) → r.length < l.length
  scan_append : ∀ {l a r}, scan l = some (a, r) → ∀ m, scan (l ++ m) = some (a, r ++ m)

namespace Scanner

variable {β : Type u} {α : Type v} (S : Scanner β α)

/-- The tokens that can be cut off, and the input carried over. -/
def drain (input : List β) : List α × List β :=
  match h : S.scan input with
  | none => ([], input)
  | some (a, rest) =>
      have := S.length_of_scan h
      let drained := drain rest
      (a :: drained.1, drained.2)
termination_by input.length

variable {S}

theorem drain_of_none {input : List β} (h : S.scan input = none) : S.drain input = ([], input) := by
  rw [drain]
  split
  · rfl
  · rename_i hsome
    rw [h] at hsome
    cases hsome

theorem drain_of_some {input rest : List β} {a : α} (h : S.scan input = some (a, rest)) :
    S.drain input = (a :: (S.drain rest).1, (S.drain rest).2) := by
  rw [drain]
  split
  · rename_i hnone
    rw [h] at hnone
    cases hnone
  · rename_i hsome
    rw [h] at hsome
    obtain ⟨rfl, rfl⟩ := Prod.mk.inj (Option.some.inj hsome)
    rfl

/-- Induction over the tokens that can be cut off. -/
theorem tokenInduction {motive : List β → Prop}
    (wait : ∀ input, S.scan input = none → motive input)
    (token : ∀ input a rest, S.scan input = some (a, rest) → motive rest → motive input)
    (input : List β) : motive input := by
  induction input using (measure List.length).wf.induction with
  | _ input ih =>
      cases h : S.scan input with
      | none => exact wait input h
      | some p => exact token input p.1 p.2 h (ih p.2 (S.length_of_scan h))

theorem scan_nil : S.scan [] = none := by
  cases h : S.scan [] with
  | none => rfl
  | some p => exact absurd (S.length_of_scan h) (Nat.not_lt_zero _)

/-- No token is left in what is carried over. -/
theorem scan_drain (input : List β) : S.scan (S.drain input).2 = none := by
  induction input using tokenInduction (S := S) with
  | wait input h =>
      rw [drain_of_none h]
      exact h
  | token input a rest h ih =>
      rw [drain_of_some h]
      exact ih

/-- The tokens of an input come first among those of a longer one, and what was carried over
begins the rest. -/
theorem drain_append (l m : List β) :
    S.drain (l ++ m)
      = ((S.drain l).1 ++ (S.drain ((S.drain l).2 ++ m)).1, (S.drain ((S.drain l).2 ++ m)).2) := by
  induction l using tokenInduction (S := S) with
  | wait l h =>
      rw [drain_of_none h]
      rfl
  | token l a rest h ih =>
      rw [drain_of_some (S.scan_append h m), drain_of_some h, ih]
      rfl

end Scanner

end AuraGateway.Foundations
