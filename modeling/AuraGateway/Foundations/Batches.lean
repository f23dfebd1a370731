import Mathlib

/-!
# Batching neighbours

A loop over a list that holds the elements of one kind back in a batch, and hands the batch on in
front of the next element of another kind and at the end of the list (`batchFrom`). Its pieces are
the runs of the list (`runs_iff`): the batches are the maximal runs of the kind, and every other
element stands alone.

Where some of the other elements leave nothing behind, they still close the batch
(`batchSkipping`). The pieces are those of the list without these elements exactly when none of
them stands between two elements of the kind (`map_batchSkipping_eq_iff`).
-/

set_option autoImplicit false

namespace AuraGateway.Foundations.Batches

universe u v

variable {α : Type u} (held : α → Bool)

/-- The batch that waits, if there is one. -/
def flush (pending : List α) : List (List α) := if pending.isEmpty then [] else [pending]

/-- The pieces of a list, behind a batch that waits. -/
def batchFrom : List α → List α → List (List α)
  | pending, [] => flush pending
  | pending, a :: l =>
      if held a then batchFrom (pending ++ [a]) l else flush pending ++ [a] :: batchFrom [] l

/-- A batch of held elements. -/
def IsBatch (piece : List α) : Prop := piece ≠ [] ∧ ∀ a ∈ piece, held a = true

/-- The runs of a list: batches and single other elements, no two batches next to each other. -/
structure Runs (pieces : List (List α)) (l : List α) : Prop where
  flatten : pieces.flatten = l
  piece : ∀ p ∈ pieces, IsBatch held p ∨ ∃ a, held a = false ∧ p = [a]
  apart : pieces.IsChain fun p q => ¬ (IsBatch held p ∧ IsBatch held q)

section Pieces

variable {held}

theorem flush_nil : flush ([] : List α) = [] := rfl

theorem flush_of_ne_nil {pending : List α} (h : pending ≠ []) : flush pending = [pending] := by
  rw [flush, List.isEmpty_eq_false_iff.mpr h]
  rfl

theorem batchFrom_held {a : α} (h : held a = true) (pending l : List α) :
    batchFrom held pending (a :: l) = batchFrom held (pending ++ [a]) l := by
  rw [batchFrom, if_pos h]

theorem batchFrom_other {a : α} (h : held a = false) (pending l : List α) :
    batchFrom held pending (a :: l) = flush pending ++ [a] :: batchFrom held [] l := by
  rw [batchFrom, h]
  rfl

/-- A batch is taken up whole. -/
theorem batchFrom_append {p : List α} (h : ∀ a ∈ p, held a = true) (pending l : List α) :
    batchFrom held pending (p ++ l) = batchFrom held (pending ++ p) l := by
  induction p generalizing pending with
  | nil => rw [List.append_nil, List.nil_append]
  | cons a p ih =>
      obtain ⟨ha, hp⟩ := List.forall_mem_cons.mp h
      rw [List.cons_append, batchFrom_held ha, ih hp, List.append_assoc, List.singleton_append]

theorem not_isBatch_singleton {a : α} (h : held a = false) : ¬ IsBatch held [a] := by
  rintro ⟨-, hall⟩
  rw [hall a List.mem_cons_self] at h
  cases h

theorem isBatch_concat {pending : List α} {a : α} (hp : ∀ b ∈ pending, held b = true)
    (ha : held a = true) : IsBatch held (pending ++ [a]) := by
  refine ⟨List.concat_ne_nil a pending, fun b hb => ?_⟩
  rcases List.mem_append.mp hb with hb | hb
  · exact hp b hb
  · rw [List.mem_singleton.mp hb]
    exact ha

variable (held) in
/-- What waits comes first, in a batch with what is held behind it. -/
theorem batchFrom_of_ne_nil {pending : List α} (h : pending ≠ []) (l : List α) :
    ∃ more rest, (∀ a ∈ more, held a = true)
      ∧ batchFrom held pending l = (pending ++ more) :: rest := by
  induction l generalizing pending with
  | nil =>
      refine ⟨[], [], fun a ha => absurd ha List.not_mem_nil, ?_⟩
      rw [batchFrom, flush_of_ne_nil h, List.append_nil]
  | cons a l ih =>
      cases ha : held a with
      | true =>
          obtain ⟨more, rest, hmore, hrest⟩ := ih (List.concat_ne_nil a pending)
          refine ⟨a :: more, rest, List.forall_mem_cons.mpr ⟨ha, hmore⟩, ?_⟩
          rw [batchFrom_held ha, hrest, List.append_assoc]
          rfl
      | false =>
          refine ⟨[], [a] :: batchFrom held [] l, fun a ha => absurd ha List.not_mem_nil, ?_⟩
          rw [batchFrom_other ha, flush_of_ne_nil h, List.append_nil]
          rfl

/-- Others are pieces of their own. -/
theorem batchFrom_others {l : List α} (h : ∀ a ∈ l, held a = false) (m : List α) :
    batchFrom held [] (l ++ m) = l.map (fun a => [a]) ++ batchFrom held [] m := by
  induction l with
  | nil => rfl
  | cons a l ih =>
      obtain ⟨ha, hl⟩ := List.forall_mem_cons.mp h
      rw [List.cons_append, batchFrom_other ha, ih hl]
      rfl

/-- A run of held elements with others around it is a piece. -/
theorem batchFrom_run {before run after : List α} (hbefore : ∀ a ∈ before.getLast?, held a = false)
    (hrun : IsBatch held run) (hafter : ∀ a ∈ after.head?, held a = false) :
    batchFrom held [] (before ++ (run ++ after))
      = batchFrom held [] before ++ run :: batchFrom held [] after := by
  have hwaits : batchFrom held run after = run :: batchFrom held [] after := by
    cases after with
    | nil => exact flush_of_ne_nil hrun.1
    | cons a after =>
        have ha : held a = false := hafter a rfl
        rw [batchFrom_other ha, batchFrom_other ha, flush_of_ne_nil hrun.1]
        rfl
  have hfrom : ∀ pending, (before = [] → pending = []) →
      batchFrom held pending (before ++ (run ++ after))
        = batchFrom held pending before ++ run :: batchFrom held [] after := by
    clear hafter
    induction before with
    | nil =>
        intro pending hpending
        rw [hpending rfl, List.nil_append, batchFrom_append hrun.2, List.nil_append, hwaits]
        rfl
    | cons a before ih =>
        intro pending _
        have hlast : ∀ b ∈ before.getLast?, held b = false := by
          intro b hb
          refine hbefore b ?_
          rw [List.getLast?_cons, hb]
          rfl
        rw [List.cons_append]
        cases ha : held a with
        | true =>
            rw [batchFrom_held ha, batchFrom_held ha]
            refine ih hlast _ ?_
            rintro rfl
            -- a held element cannot be the last one in front of the run
            rw [hbefore a rfl] at ha
            cases ha
        | false =>
            rw [batchFrom_other ha, batchFrom_other ha, ih hlast [] fun _ => rfl, List.append_assoc]
            rfl
  exact hfrom [] fun _ => rfl

/-- The pieces behind a batch that waits are runs. -/
theorem runs_batchFrom {pending : List α} (hp : ∀ a ∈ pending, held a = true) (l : List α) :
    Runs held (batchFrom held pending l) (pending ++ l) := by
  induction l generalizing pending with
  | nil =>
      rw [List.append_nil, batchFrom]
      by_cases hnil : pending = []
      · subst hnil
        exact ⟨rfl, fun p hp => absurd hp List.not_mem_nil, List.isChain_nil⟩
      · rw [flush_of_ne_nil hnil]
        refine ⟨List.flatten_singleton, ?_, List.isChain_singleton _⟩
        intro p hmem
        rw [List.mem_singleton.mp hmem]
        exact .inl ⟨hnil, hp⟩
  | cons a l ih =>
      cases ha : held a with
      | true =>
          have hruns := ih (isBatch_concat hp ha).2
          rw [List.append_assoc, List.singleton_append] at hruns
          rw [batchFrom_held ha]
          exact hruns
      | false =>
          have hruns : Runs held (batchFrom held [] l) l := ih fun a ha => absurd ha List.not_mem_nil
          -- the other element stands alone, so that nothing is said of its neighbours
          have halone : Runs held ([a] :: batchFrom held [] l) (a :: l) := by
            refine ⟨?_, ?_, ?_⟩
            · rw [List.flatten_cons, hruns.flatten]
              rfl
            · exact List.forall_mem_cons.mpr ⟨.inr ⟨a, ha, rfl⟩, hruns.piece⟩
            · apply hruns.apart.cons
              rintro q - ⟨hbatch, -⟩
              exact not_isBatch_singleton ha hbatch
          rw [batchFrom_other ha]
          by_cases hnil : pending = []
          · subst hnil
            exact halone
          · rw [flush_of_ne_nil hnil, List.singleton_append]
            refine ⟨?_, ?_, ?_⟩
            · rw [List.flatten_cons, halone.flatten]
            · exact List.forall_mem_cons.mpr ⟨.inl ⟨hnil, hp⟩, halone.piece⟩
            · apply halone.apart.cons
              rintro q hq ⟨-, hbatch⟩
              obtain rfl := Option.some.inj hq
              exact not_isBatch_singleton ha hbatch

/-- Runs are the pieces of their list, and of a batch that waits when no batch follows it. -/
theorem batchFrom_flatten {pieces : List (List α)}
    (hpiece : ∀ p ∈ pieces, IsBatch held p ∨ ∃ a, held a = false ∧ p = [a])
    (hapart : pieces.IsChain fun p q => ¬ (IsBatch held p ∧ IsBatch held q)) :
    batchFrom held [] pieces.flatten = pieces
      ∧ ∀ pending, pending ≠ [] → (∀ q ∈ pieces.head?, ¬ IsBatch held q) →
        batchFrom held pending pieces.flatten = pending :: pieces := by
  induction pieces with
  | nil => exact ⟨rfl, fun pending hne _ => flush_of_ne_nil hne⟩
  | cons p pieces ih =>
      obtain ⟨hp, hrest⟩ := List.forall_mem_cons.mp hpiece
      obtain ⟨hfresh, hwaiting⟩ := ih hrest hapart.tail
      rw [List.flatten_cons]
      rcases hp with hbatch | ⟨a, ha, rfl⟩
      · refine ⟨?_, fun pending _ hhead => absurd hbatch (hhead p rfl)⟩
        rw [batchFrom_append hbatch.2, List.nil_append]
        refine hwaiting p hbatch.1 fun q hq hqbatch => ?_
        exact hapart.rel_head? hq ⟨hbatch, hqbatch⟩
      · rw [List.singleton_append]
        refine ⟨?_, fun pending hne _ => ?_⟩
        · rw [batchFrom_other ha, hfresh]
          rfl
        · rw [batchFrom_other ha, hfresh, flush_of_ne_nil hne]
          rfl

/-- The pieces of a list are its runs, and it has no others. -/
theorem runs_iff {pieces : List (List α)} {l : List α} :
    Runs held pieces l ↔ pieces = batchFrom held [] l := by
  constructor
  · intro h
    rw [← h.flatten]
    exact (batchFrom_flatten h.piece h.apart).1.symm
  · rintro rfl
    exact runs_batchFrom (fun a ha => absurd ha List.not_mem_nil) l

end Pieces

/-! ## Elements that leave nothing behind -/

variable (skipped : α → Bool)

/-- The pieces of a list where a skipped element closes the batch like any other. -/
def batchSkipping : List α → List α → List (List α)
  | pending, [] => flush pending
  | pending, a :: l =>
      if held a then batchSkipping (pending ++ [a]) l
      else flush pending ++ (if skipped a then [] else [[a]]) ++ batchSkipping [] l

/-- Skipped elements, at least one, stand between two held ones. -/
def Interrupted (l : List α) : Prop :=
  ∃ before a between b after, l = before ++ a :: between ++ b :: after
    ∧ held a = true ∧ held b = true ∧ between ≠ [] ∧ ∀ c ∈ between, skipped c = true

/-- Behind skipped elements, the next one is held. -/
def HeldNext (l : List α) : Prop :=
  ∃ between b after, l = between ++ b :: after ∧ held b = true ∧ ∀ c ∈ between, skipped c = true

section Skipping

variable {held skipped}

theorem batchSkipping_held {a : α} (h : held a = true) (pending l : List α) :
    batchSkipping held skipped pending (a :: l) = batchSkipping held skipped (pending ++ [a]) l := by
  rw [batchSkipping, if_pos h]

theorem batchSkipping_other {a : α} (h : held a = false) (pending l : List α) :
    batchSkipping held skipped pending (a :: l)
      = flush pending ++ (if skipped a then [] else [[a]]) ++ batchSkipping held skipped [] l := by
  rw [batchSkipping, h]
  rfl

theorem not_heldNext_nil : ¬ HeldNext held skipped [] := by
  rintro ⟨between, b, after, heq, -⟩
  exact absurd heq (List.append_ne_nil_of_right_ne_nil between (List.cons_ne_nil b after)).symm

/-- The next element decides, unless it is skipped. -/
theorem heldNext_cons (a : α) (l : List α) :
    HeldNext held skipped (a :: l) ↔
      held a = true ∨ skipped a = true ∧ HeldNext held skipped l := by
  constructor
  · rintro ⟨between, b, after, heq, hb, hskipped⟩
    cases between with
    | nil =>
        obtain ⟨rfl, -⟩ := List.cons.inj heq
        exact .inl hb
    | cons c between =>
        obtain ⟨rfl, rfl⟩ := List.cons.inj heq
        obtain ⟨hc, hrest⟩ := List.forall_mem_cons.mp hskipped
        exact .inr ⟨hc, between, b, after, rfl, hb, hrest⟩
  · rintro (ha | ⟨ha, between, b, after, rfl, hb, hskipped⟩)
    · exact ⟨[], a, l, rfl, ha, fun c hc => absurd hc List.not_mem_nil⟩
    · exact ⟨a :: between, b, after, rfl, hb, List.forall_mem_cons.mpr ⟨ha, hskipped⟩⟩

theorem not_interrupted_nil : ¬ Interrupted held skipped [] := by
  rintro ⟨before, a, between, b, after, heq, -⟩
  have hlength := congrArg List.length heq
  simp at hlength

/-- An interruption begins at the first element or comes later. -/
theorem interrupted_cons (a : α) (l : List α) :
    Interrupted held skipped (a :: l) ↔
      (held a = true ∧ (∃ c rest, l = c :: rest ∧ skipped c = true ∧ HeldNext held skipped rest))
        ∨ Interrupted held skipped l := by
  constructor
  · rintro ⟨before, a', between, b, after, heq, ha, hb, hne, hskipped⟩
    cases before with
    | nil =>
        obtain ⟨c, between, rfl⟩ := List.exists_cons_of_ne_nil hne
        obtain ⟨rfl, rfl⟩ := List.cons.inj heq
        obtain ⟨hc, hrest⟩ := List.forall_mem_cons.mp hskipped
        exact .inl ⟨ha, c, between ++ b :: after, rfl, hc, between, b, after, rfl, hb, hrest⟩
    | cons d before =>
        obtain ⟨-, rfl⟩ := List.cons.inj heq
        exact .inr ⟨before, a', between, b, after, rfl, ha, hb, hne, hskipped⟩
  · rintro (⟨ha, c, rest, rfl, hc, between, b, after, rfl, hb, hskipped⟩
      | ⟨before, a', between, b, after, rfl, ha, hb, hne, hskipped⟩)
    · exact ⟨[], a, c :: between, b, after, rfl, ha, hb, List.cons_ne_nil c between,
        List.forall_mem_cons.mpr ⟨hc, hskipped⟩⟩
    · exact ⟨a :: before, a', between, b, after, rfl, ha, hb, hne, hskipped⟩

theorem interrupted_cons_of_held {a : α} (ha : held a = true) (l : List α) :
    ¬ Interrupted held skipped (a :: l) ↔
      (¬ ∃ c rest, l = c :: rest ∧ skipped c = true ∧ HeldNext held skipped rest)
        ∧ ¬ Interrupted held skipped l := by
  rw [interrupted_cons, not_or, not_and]
  exact and_congr_left' ⟨fun h => h ha, fun h _ => h⟩

theorem interrupted_cons_of_other {a : α} (ha : held a = false) (l : List α) :
    Interrupted held skipped (a :: l) ↔ Interrupted held skipped l := by
  rw [interrupted_cons, ha]
  exact or_iff_right fun h => absurd h.1 Bool.false_ne_true

section InStep

variable {β : Type v} {f : List α → β} (hkinds : ∀ a, held a = true → skipped a = false)
  (hgrows : ∀ p q, IsBatch held p → IsBatch held q → f p ≠ f (p ++ q))

include hgrows in
/-- A held element joins a batch that the other loop has closed. -/
theorem closed_ne {pending : List α} (hp : IsBatch held pending) {a : α} (ha : held a = true)
    (rest : List β) (l : List α) :
    f pending :: rest ≠ (batchFrom held pending (a :: l)).map f := by
  obtain ⟨more, rest', hmore, hrest⟩ := batchFrom_of_ne_nil held (List.concat_ne_nil a pending) l
  rw [batchFrom_held ha, hrest, List.map_cons, List.append_assoc]
  intro heq
  refine hgrows pending ([a] ++ more) hp ⟨List.cons_ne_nil a more, ?_⟩ (List.cons.inj heq).1
  exact List.forall_mem_cons.mpr ⟨ha, hmore⟩

variable (held skipped f) in
/-- The two loops in step: with no batch, with one that waits, and with one that only the loop that
skips has closed. -/
structure InStep (l : List α) : Prop where
  fresh : (batchSkipping held skipped [] l).map f
      = (batchFrom held [] (l.filter fun a => !skipped a)).map f ↔ ¬ Interrupted held skipped l
  waiting : ∀ pending, IsBatch held pending →
    ((batchSkipping held skipped pending l).map f
        = (batchFrom held pending (l.filter fun a => !skipped a)).map f ↔
      (¬ ∃ c rest, l = c :: rest ∧ skipped c = true ∧ HeldNext held skipped rest)
        ∧ ¬ Interrupted held skipped l)
  closed : ∀ pending, IsBatch held pending →
    (f pending :: (batchSkipping held skipped [] l).map f
        = (batchFrom held pending (l.filter fun a => !skipped a)).map f ↔
      ¬ HeldNext held skipped l ∧ ¬ Interrupted held skipped l)

theorem inStep_nil : InStep held skipped f [] where
  fresh := iff_of_true rfl not_interrupted_nil
  waiting := fun _ _ => iff_of_true rfl
    ⟨fun ⟨c, rest, heq, _⟩ => List.cons_ne_nil c rest heq.symm, not_interrupted_nil⟩
  closed := fun pending hp => by
    refine iff_of_true ?_ ⟨not_heldNext_nil, not_interrupted_nil⟩
    exact congrArg (List.map f) (flush_of_ne_nil hp.1).symm

theorem filter_of_kept {a : α} (h : skipped a = false) (l : List α) :
    (a :: l).filter (fun a => !skipped a) = a :: l.filter fun a => !skipped a := by
  rw [List.filter_cons_of_pos]
  rw [h]
  rfl

/-- What is kept is not the first of some skipped elements. -/
theorem not_skipped_next {a : α} (h : skipped a = false) (l : List α) :
    ¬ ∃ c rest, a :: l = c :: rest ∧ skipped c = true ∧ HeldNext held skipped rest := by
  rintro ⟨c, rest, heq, hc, -⟩
  obtain ⟨rfl, -⟩ := List.cons.inj heq
  rw [h] at hc
  cases hc

include hkinds hgrows in
/-- A held element joins the batch of both loops, or only one of them still has it. -/
theorem InStep.cons_held {a : α} {l : List α} (h : InStep held skipped f l) (ha : held a = true) :
    InStep held skipped f (a :: l) := by
  have hone : IsBatch held ([] ++ [a]) :=
    isBatch_concat (fun b hb => absurd hb List.not_mem_nil) ha
  refine ⟨?_, fun pending hp => ?_, fun pending hp => ?_⟩ <;>
    rw [filter_of_kept (hkinds a ha), interrupted_cons_of_held ha]
  · rw [batchSkipping_held ha, batchFrom_held ha]
    exact h.waiting _ hone
  · rw [batchSkipping_held ha, batchFrom_held ha, h.waiting _ (isBatch_concat hp.2 ha)]
    exact (and_iff_right (not_skipped_next (hkinds a ha) l)).symm
  · exact iff_of_false (closed_ne hgrows hp ha _ _)
      fun h => h.1 ((heldNext_cons a l).mpr (.inl ha))

/-- A skipped element closes the batch of one loop only. -/
theorem InStep.cons_skipped {a : α} {l : List α} (h : InStep held skipped f l) (ha : held a = false)
    (hs : skipped a = true) : InStep held skipped f (a :: l) := by
  have hdropped : (a :: l).filter (fun a => !skipped a) = l.filter fun a => !skipped a := by
    rw [List.filter_cons_of_neg]
    rw [hs]
    exact Bool.false_ne_true
  have hleft : ∀ pending, batchSkipping held skipped pending (a :: l)
      = flush pending ++ batchSkipping held skipped [] l := by
    intro pending
    rw [batchSkipping_other ha, hs, if_pos rfl, List.append_nil]
  have hnext : HeldNext held skipped (a :: l) ↔ HeldNext held skipped l := by
    rw [heldNext_cons, ha, hs]
    exact ⟨fun h => (h.resolve_left Bool.false_ne_true).2, fun h => .inr ⟨rfl, h⟩⟩
  refine ⟨?_, fun pending hp => ?_, fun pending hp => ?_⟩ <;>
    rw [hdropped, hleft, interrupted_cons_of_other ha]
  · exact h.fresh
  · rw [flush_of_ne_nil hp.1, List.singleton_append, List.map_cons, h.closed pending hp]
    refine and_congr_left' (not_congr ⟨fun h => ⟨a, l, rfl, hs, h⟩, ?_⟩)
    rintro ⟨c, rest, heq, -, h⟩
    obtain ⟨rfl, rfl⟩ := List.cons.inj heq
    exact h
  · rw [hnext]
    exact h.closed pending hp

/-- Any other element closes the batch of both loops. -/
theorem InStep.cons_other {a : α} {l : List α} (h : InStep held skipped f l) (ha : held a = false)
    (hs : skipped a = false) : InStep held skipped f (a :: l) := by
  have hheads : ∀ pending, (batchSkipping held skipped pending (a :: l)).map f
        = (batchFrom held pending (a :: l.filter fun a => !skipped a)).map f ↔
      ¬ Interrupted held skipped l := by
    intro pending
    have hleft : batchSkipping held skipped pending (a :: l)
        = flush pending ++ [a] :: batchSkipping held skipped [] l := by
      rw [batchSkipping_other ha, hs, if_neg Bool.false_ne_true, List.append_assoc]
      rfl
    rw [hleft, batchFrom_other ha, List.map_append, List.map_append, List.append_cancel_left_eq]
    exact (List.cons_inj_right _).trans h.fresh
  have hnext : ¬ HeldNext held skipped (a :: l) := by
    rw [heldNext_cons, ha, hs]
    exact fun h => h.elim Bool.false_ne_true fun h => Bool.false_ne_true h.1
  refine ⟨?_, fun pending hp => ?_, fun pending hp => ?_⟩ <;>
    rw [filter_of_kept hs, interrupted_cons_of_other ha]
  · exact hheads []
  · rw [hheads, and_iff_right (not_skipped_next hs l)]
  · have hclose : f pending :: (batchSkipping held skipped [] (a :: l)).map f
        = (batchSkipping held skipped pending (a :: l)).map f := by
      rw [batchSkipping_other ha, batchSkipping_other ha, flush_of_ne_nil hp.1]
      rfl
    rw [hclose, hheads, and_iff_right hnext]

include hkinds hgrows in
/-- The loops stay in step over a whole list. -/
theorem inStep (l : List α) : InStep held skipped f l := by
  induction l with
  | nil => exact inStep_nil
  | cons a l ih =>
      cases ha : held a with
      | true => exact ih.cons_held hkinds hgrows ha
      | false =>
          cases hs : skipped a with
          | true => exact ih.cons_skipped ha hs
          | false => exact ih.cons_other ha hs

include hkinds hgrows in
/-- Skipped elements leave the pieces as they are exactly when none interrupts a run; it is enough to
look at something that a longer batch changes. -/
theorem map_batchSkipping_eq_iff (l : List α) :
    (batchSkipping held skipped [] l).map f
        = (batchFrom held [] (l.filter fun a => !skipped a)).map f ↔
      ¬ Interrupted held skipped l :=
  (inStep hkinds hgrows l).fresh

end InStep

end Skipping

end AuraGateway.Foundations.Batches
