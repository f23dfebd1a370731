import Mathlib

/-!
# Streams that end once

A stream ends once if its last item is an ending and no other item is (`EndsOnce`). Where each
message gives a block of items, a stream of blocks ends once exactly when one message closes
it and the messages after that one give nothing (`Blocks.endsOnce_iff`).
-/

set_option autoImplicit false

namespace AuraGateway.Foundations.Endings

universe u v w

variable {ε : Type u} {μ : Type v} {ρ : Type w}

/-- The last item is an ending with result `r`, and there is no other ending. -/
def EndsOnce (ending : ε → Option ρ) (r : ρ) (items : List ε) : Prop :=
  ∃ init e, items = init ++ [e] ∧ ending e = some r ∧ ∀ i ∈ init, ending i = none

section EndsOnce

variable {ending : ε → Option ρ} {r : ρ}

theorem not_endsOnce_nil : ¬ EndsOnce ending r [] := by
  rintro ⟨init, e, heq, -, -⟩
  exact absurd heq.symm (by simp)

/-- Items that are no endings may come first. -/
theorem endsOnce_append_iff {pre : List ε} (h : ∀ i ∈ pre, ending i = none) (items : List ε) :
    EndsOnce ending r (pre ++ items) ↔ EndsOnce ending r items := by
  constructor
  · rintro ⟨init, e, heq, he, hinit⟩
    rcases List.append_eq_append_iff.mp heq with ⟨l, hinit_eq, hitems⟩ | ⟨l, hpre_eq, hitems⟩
    · refine ⟨l, e, hitems, he, fun i hi => hinit i ?_⟩
      rw [hinit_eq]
      exact List.mem_append_right pre hi
    · -- the ending is not among the items before
      cases l with
      | nil =>
          refine ⟨[], e, by simpa using hitems.symm, he, fun i hi => absurd hi List.not_mem_nil⟩
      | cons a l =>
          have ha : a = e := by
            have := congrArg List.head? hitems
            simpa using this.symm
          have hmem : e ∈ pre := by
            rw [hpre_eq, ← ha]
            simp
          rw [h e hmem] at he
          cases he
  · rintro ⟨init, e, rfl, he, hinit⟩
    refine ⟨pre ++ init, e, (List.append_assoc ..).symm, he, fun i hi => ?_⟩
    rcases List.mem_append.mp hi with hi | hi
    · exact h i hi
    · exact hinit i hi

/-- Behind an ending there must be nothing. -/
theorem endsOnce_cons_iff {e : ε} {r' : ρ} (he : ending e = some r') (items : List ε) :
    EndsOnce ending r (e :: items) ↔ r' = r ∧ items = [] := by
  constructor
  · rintro ⟨init, e', heq, he', hinit⟩
    cases init with
    | nil =>
        obtain ⟨rfl, rfl⟩ := List.cons.inj heq
        exact ⟨Option.some.inj (he.symm.trans he'), rfl⟩
    | cons a init =>
        obtain ⟨rfl, -⟩ := List.cons.inj heq
        rw [hinit e (List.mem_cons_self ..)] at he
        cases he
  · rintro ⟨rfl, rfl⟩
    exact ⟨[], e, rfl, he, fun i hi => absurd hi List.not_mem_nil⟩

end EndsOnce

/-! ## Blocks -/

/-- What a message gives: nothing, items of which none is an ending, or such items and an
ending. -/
inductive Effect (ρ : Type w) where
  | silent
  | passing
  | closing (r : ρ)
  deriving DecidableEq

/-- Each message gives a block of items, as its effect says. -/
inductive Blocks (ending : ε → Option ρ) (effect : μ → Effect ρ) : List μ → List ε → Prop where
  | nil : Blocks ending effect [] []
  | silent {m : μ} {ms : List μ} {items : List ε} (hm : effect m = .silent)
      (h : Blocks ending effect ms items) : Blocks ending effect (m :: ms) items
  | passing {m : μ} {ms : List μ} {block items : List ε} (hm : effect m = .passing)
      (hne : block ≠ []) (hblock : ∀ i ∈ block, ending i = none)
      (h : Blocks ending effect ms items) : Blocks ending effect (m :: ms) (block ++ items)
  | closing {m : μ} {ms : List μ} {block items : List ε} {e : ε} {r : ρ}
      (hm : effect m = .closing r) (hblock : ∀ i ∈ block, ending i = none)
      (he : ending e = some r) (h : Blocks ending effect ms items) :
      Blocks ending effect (m :: ms) (block ++ e :: items)

/-- One message closes with `r`, none before it closes, and those after it give nothing. -/
def ClosedOnce (effect : μ → Effect ρ) (r : ρ) (ms : List μ) : Prop :=
  ∃ before m after, ms = before ++ m :: after ∧ effect m = .closing r
    ∧ (∀ b ∈ before, ∀ r', effect b ≠ .closing r') ∧ ∀ a ∈ after, effect a = .silent

section ClosedOnce

variable {effect : μ → Effect ρ} {r : ρ}

theorem not_closedOnce_nil : ¬ ClosedOnce effect r [] := by
  rintro ⟨before, m, after, heq, -⟩
  exact absurd heq.symm (by simp)

/-- A message that does not close may come first. -/
theorem closedOnce_cons_iff {m : μ} (hm : ∀ r', effect m ≠ .closing r') (ms : List μ) :
    ClosedOnce effect r (m :: ms) ↔ ClosedOnce effect r ms := by
  constructor
  · rintro ⟨before, c, after, heq, hc, hbefore, hafter⟩
    cases before with
    | nil =>
        obtain ⟨rfl, -⟩ := List.cons.inj heq
        exact absurd hc (hm r)
    | cons b before =>
        obtain ⟨-, rfl⟩ := List.cons.inj heq
        exact ⟨before, c, after, rfl, hc, fun b hb => hbefore b (List.mem_cons_of_mem _ hb), hafter⟩
  · rintro ⟨before, c, after, rfl, hc, hbefore, hafter⟩
    refine ⟨m :: before, c, after, rfl, hc, fun b hb => ?_, hafter⟩
    rcases List.mem_cons.mp hb with rfl | hb
    · exact hm
    · exact hbefore b hb

/-- Behind a message that closes, the others must give nothing. -/
theorem closedOnce_closing_iff {m : μ} {r' : ρ} (hm : effect m = .closing r') (ms : List μ) :
    ClosedOnce effect r (m :: ms) ↔ r' = r ∧ ∀ a ∈ ms, effect a = .silent := by
  constructor
  · rintro ⟨before, c, after, heq, hc, hbefore, hafter⟩
    cases before with
    | nil =>
        obtain ⟨rfl, rfl⟩ := List.cons.inj heq
        rw [hm] at hc
        exact ⟨Effect.closing.inj hc, hafter⟩
    | cons b before =>
        obtain ⟨rfl, -⟩ := List.cons.inj heq
        exact absurd hm (hbefore m (List.mem_cons_self ..) r')
  · rintro ⟨rfl, hafter⟩
    exact ⟨[], m, ms, rfl, hm, fun b hb => absurd hb List.not_mem_nil, hafter⟩

end ClosedOnce

namespace Blocks

variable {ending : ε → Option ρ} {effect : μ → Effect ρ} {ms : List μ} {items : List ε}

/-- A message that gives nothing but an ending. -/
theorem ends {m : μ} {e : ε} {r : ρ} (hm : effect m = .closing r) (he : ending e = some r)
    (h : Blocks ending effect ms items) : Blocks ending effect (m :: ms) (e :: items) :=
  @closing ε μ ρ ending effect m ms [] items e r hm (fun i hi => absurd hi List.not_mem_nil) he h

/-- A message that gives one item. -/
theorem passes {m : μ} {e : ε} (hm : effect m = .passing) (he : ending e = none)
    (h : Blocks ending effect ms items) : Blocks ending effect (m :: ms) (e :: items) := by
  refine @passing ε μ ρ ending effect m ms [e] items hm (List.cons_ne_nil e []) (fun i hi => ?_) h
  rw [List.mem_singleton.mp hi]
  exact he

/-- Nothing is given exactly when every message is silent. -/
theorem eq_nil_iff (h : Blocks ending effect ms items) :
    items = [] ↔ ∀ m ∈ ms, effect m = .silent := by
  induction h with
  | nil => simp
  | silent hm _ ih => rw [List.forall_mem_cons, ih, and_iff_right hm]
  | passing hm hne _ _ _ =>
      constructor
      · intro hnil
        exact absurd (List.append_eq_nil_iff.mp hnil).1 hne
      · intro hall
        rw [hall _ (List.mem_cons_self ..)] at hm
        cases hm
  | closing hm _ _ _ _ =>
      constructor
      · intro hnil
        exact absurd hnil (by simp)
      · intro hall
        rw [hall _ (List.mem_cons_self ..)] at hm
        cases hm

/-- A stream of blocks ends once exactly when it is closed once. -/
theorem endsOnce_iff (h : Blocks ending effect ms items) (r : ρ) :
    EndsOnce ending r items ↔ ClosedOnce effect r ms := by
  induction h with
  | nil => exact iff_of_false not_endsOnce_nil not_closedOnce_nil
  | silent hm _ ih =>
      rw [closedOnce_cons_iff (fun r' => by simp [hm]), ih]
  | passing hm _ hblock _ ih =>
      rw [closedOnce_cons_iff (fun r' => by simp [hm]), endsOnce_append_iff hblock, ih]
  | closing hm hblock he h _ =>
      rw [closedOnce_closing_iff hm, endsOnce_append_iff hblock, endsOnce_cons_iff he, h.eq_nil_iff]

end Blocks

end AuraGateway.Foundations.Endings
