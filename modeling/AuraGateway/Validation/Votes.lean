import AuraGateway.Validation.Fanout

/-!
# Self-consistency votes

A vote is right when the text of the selected candidate is a most frequent one, a tie of texts is
broken by the confidence over all tied candidates, and candidates without a confidence leave it to
the first one. The groups are visited in the order of a hash map, though, and the last of the
largest is taken; within it the longest candidate stands in for a missing confidence. So the vote
is right, whatever the order, exactly when no two candidates agree and all confidences compare, or
when one text is the most frequent and its first candidate wins if none of them was measured
(`votesRight_iff`).
-/

set_option autoImplicit false

namespace AuraGateway.Validation

open AuraGateway.RustStd AuraGateway.Types
open AuraGateway.Foundations.Selection AuraGateway.Foundations.FloatOrder
open AuraGateway.JsStd (CaseTable)
open AuraGateway.Provider (HashOrder)

/-! ## What a vote should select -/

def confidenceOf (c : Response) : Option Float32 := c.validation.bind (·.confidence)

/-- The length of a text, up to the cap. -/
def cappedLength (c : Response) : Nat := min c.text.utf8ByteSize 4000

section Votes

variable (table : CaseTable) (candidates : List Response)

/-- The normalised text of a candidate. -/
def answer (c : Response) : String := normalizeText table c.text

/-- The normalised texts. -/
def answers : List String := candidates.map (answer table)

/-- No text occurs more often. -/
def MostFrequent (t : String) : Prop :=
  t ∈ answers table candidates
    ∧ ∀ u ∈ answers table candidates, (answers table candidates).count u
      ≤ (answers table candidates).count t

/-- The candidate at an index is the one that a vote should select. -/
structure IsRightVote (i : Nat) : Prop where
  /-- Its text occurs a maximal number of times. -/
  frequent : ∃ t, (answers table candidates)[i]? = some t ∧ MostFrequent table candidates t
  /-- When several texts tie, no member of a tied group has a higher confidence. -/
  confident : ∀ t u, t ≠ u → MostFrequent table candidates t → MostFrequent table candidates u →
    ∀ c ∈ candidates, MostFrequent table candidates (answer table c) →
      ∀ x, confidenceOf c = some x → ∃ y, candidates[i]?.bind confidenceOf = some y ∧ x ≤ y
  /-- Without a confidence in its group it is the first of it. -/
  first : (∀ c ∈ candidates, (answers table candidates)[i]? = some (answer table c) →
      confidenceOf c = none) →
    ∀ j, j < i → (answers table candidates)[j]? ≠ (answers table candidates)[i]?

/-- One candidate is selected in every order of the groups, and it is the right one. -/
def VotesRight : Prop :=
  ∃ i, IsRightVote table candidates i
    ∧ ∀ order, (selectWinner table order candidates .mostFrequent).map Prod.fst = some i

/-- The candidates of a text. -/
def membersOf (t : String) : List Response := candidates.filter fun c => answer table c = t

/-- A confidence decides, or the first of the candidates is the longest. -/
def FirstWins : List Response → Prop
  | [] => True
  | first :: rest =>
      (∃ c ∈ first :: rest, (confidenceOf c).isSome = true)
        ∨ ∀ c ∈ rest, cappedLength c < cappedLength first

/-- The texts are all different and the confidences compare, or one text is the most frequent. -/
def Decided : Prop :=
  candidates ≠ [] ∧
    ((answers table candidates).Nodup
        ∧ (candidates.length = 1
          ∨ ∀ c ∈ candidates, ∀ x, confidenceOf c = some x → x.isNaN = false)
      ∨ ∃ t, 2 ≤ (answers table candidates).count t
        ∧ (∀ u ∈ answers table candidates, u ≠ t →
          (answers table candidates).count u < (answers table candidates).count t)
        ∧ FirstWins (membersOf table candidates t))

end Votes

/-! ## The selector by confidence -/

section Logprob

variable {candidates : List Response}

theorem mem_withConfidence {i : Nat} {x : Float32} :
    (i, x) ∈ withConfidence candidates ↔ candidates[i]?.bind confidenceOf = some x := by
  rw [withConfidence, List.mem_filterMap]
  constructor
  · rintro ⟨⟨c, j⟩, hc, h⟩
    obtain ⟨y, hy, heq⟩ := Option.map_eq_some_iff.mp h
    obtain ⟨rfl, rfl⟩ := Prod.mk.inj heq
    rw [List.mk_mem_zipIdx_iff_getElem?.mp hc]
    exact hy
  · intro h
    obtain ⟨c, hc, hx⟩ := Option.bind_eq_some_iff.mp h
    refine ⟨(c, i), List.mk_mem_zipIdx_iff_getElem?.mpr hc, ?_⟩
    exact Option.map_eq_some_iff.mpr ⟨x, hx, rfl⟩

/-- Confidences that compare: the selected one is the highest. -/
theorem selectByLogprob_confident {c : Response} (hc : c ∈ candidates)
    {x : Float32} (hx : confidenceOf c = some x)
    (hnum : ∀ c ∈ candidates, ∀ x, confidenceOf c = some x → x.isNaN = false) :
    ∃ i reason y, selectByLogprob candidates = some (i, reason)
      ∧ candidates[i]?.bind confidenceOf = some y
      ∧ ∀ c ∈ candidates, ∀ x, confidenceOf c = some x → x ≤ y := by
  have hmem : ∀ c ∈ candidates, ∀ x, confidenceOf c = some x →
      ∃ i, (i, x) ∈ withConfidence candidates := by
    intro c hc x hx
    obtain ⟨i, hi⟩ := List.mem_iff_getElem?.mp hc
    refine ⟨i, mem_withConfidence.mpr ?_⟩
    rw [hi]
    exact hx
  have hnumber : ∀ p ∈ withConfidence candidates, p.2.isNaN = false := by
    intro p hp
    obtain ⟨c, hget, hx⟩ := Option.bind_eq_some_iff.mp (mem_withConfidence.mp hp)
    exact hnum c (List.mem_of_getElem? hget) p.2 hx
  obtain ⟨_, hfirst⟩ := hmem c hc x hx
  obtain ⟨⟨i, y⟩, hmax⟩ := exists_lastMax (fun a b : Nat × Float32 => decide (b.2 < a.2))
    (List.ne_nil_of_mem hfirst)
  refine ⟨i, _, y, by rw [selectByLogprob, hmax], mem_withConfidence.mp (lastMax_mem hmax), ?_⟩
  intro c hc x hx
  obtain ⟨j, hj⟩ := hmem c hc x hx
  refine le_lastMax (r := fun a b : Nat × Float32 => a.2 ≤ b.2)
    (fun a b c => float32_le_trans) ?_ hmax (j, x) hj
  intro a ha b hb
  split
  · rename_i hgt
    exact float32_le_of_lt (of_decide_eq_true hgt)
  · rename_i hgt
    exact float32_le_of_not_lt (hnumber a ha) (hnumber b hb) fun h => hgt (decide_eq_true h)

/-- Without any confidence the first one is selected exactly when it is the longest. -/
theorem selectByLogprob_first_iff {c : Response} {rest : List Response}
    (hnone : ∀ c' ∈ c :: rest, confidenceOf c' = none) :
    (selectByLogprob (c :: rest)).map Prod.fst = some 0
      ↔ ∀ c' ∈ rest, cappedLength c' < cappedLength c := by
  have hunmeasured : withConfidence (c :: rest) = [] := by
    apply List.eq_nil_iff_forall_not_mem.mpr
    rintro ⟨i, x⟩ hmem
    obtain ⟨c', hget, hx⟩ := Option.bind_eq_some_iff.mp (mem_withConfidence.mp hmem)
    rw [hnone c' (List.mem_of_getElem? hget)] at hx
    cases hx
  -- the other places have greater indices
  have htail : ∀ p ∈ (rest.zipIdx 1).map fun p => (p.2, cappedLength p.1), p.1 ≠ 0 := by
    intro p hp
    obtain ⟨⟨c', i⟩, hc', rfl⟩ := List.mem_map.mp hp
    exact Nat.ne_of_gt (List.le_snd_of_mem_zipIdx hc')
  have hlengths : cappedLengths (c :: rest)
      = (0, cappedLength c) :: (rest.zipIdx 1).map fun p => (p.2, cappedLength p.1) := rfl
  obtain ⟨p, hp⟩ := exists_lastMax (fun a b : Nat × Nat => decide (b.2 < a.2))
    (l := cappedLengths (c :: rest)) (List.cons_ne_nil _ _)
  have hselect : (selectByLogprob (c :: rest)).map Prod.fst = some p.1 := by
    rw [selectByLogprob, hunmeasured, lastMax, hp]
    rfl
  have hhead : p.1 = 0 ↔ p = (0, cappedLength c) := by
    constructor
    · intro hzero
      have hmem := lastMax_mem hp
      rw [hlengths] at hmem
      rcases List.mem_cons.mp hmem with heq | hmem
      · exact heq
      · exact absurd hzero (htail p hmem)
    · intro heq
      rw [heq]
  rw [hselect, Option.some.injEq, hhead, ← Option.some.injEq, ← hp, hlengths,
    lastMax_eq_head_iff fun hmem => htail _ hmem rfl, List.forall_mem_map]
  constructor
  · intro h c' hc'
    rw [← List.zipIdx_map_fst 1 rest] at hc'
    obtain ⟨⟨_, i⟩, hmem, rfl⟩ := List.mem_map.mp hc'
    exact of_decide_eq_true (h _ hmem)
  · rintro h ⟨c', i⟩ hc'
    exact decide_eq_true (h c' (List.fst_mem_of_mem_zipIdx hc'))

end Logprob

/-! ## The groups -/

section Groups

variable {table : CaseTable} {candidates : List Response} {t : String}

theorem length_indicesOf (texts : List String) (t : String) :
    (indicesOf texts t).length = texts.count t := by
  rw [indicesOf, List.length_map, ← List.countP_eq_length_filter, List.count]
  conv => rhs; rw [← List.zipIdx_map_fst 0 texts, List.countP_map]
  apply List.countP_congr
  intro p _
  simp

/-- The indices of a text go up. -/
theorem pairwise_indicesOf (texts : List String) (t : String) :
    (indicesOf texts t).Pairwise (· < ·) := by
  have hsub : (indicesOf texts t).Sublist (texts.zipIdx.map (·.2)) :=
    List.filter_sublist.map _
  rw [List.zipIdx_map_snd] at hsub
  exact List.Pairwise.sublist hsub List.pairwise_lt_range'

theorem mem_answers {c : Response} (h : c ∈ candidates) : answer table c ∈ answers table candidates :=
  List.mem_map_of_mem h

/-- The members of a group with their places. -/
def places (table : CaseTable) (candidates : List Response) (t : String) : List (Response × Nat) :=
  candidates.zipIdx.filter fun p => answer table p.1 = t

theorem indicesOf_answers :
    indicesOf (answers table candidates) t = (places table candidates t).map (·.2) := by
  rw [indicesOf, answers, List.zipIdx_map, List.filter_map, List.map_map]
  simp only [places, Function.comp_def, Prod.map_fst, Prod.map_snd, id_eq]

theorem membersOf_eq : membersOf table candidates t = (places table candidates t).map (·.1) := by
  rw [membersOf]
  conv => lhs; rw [← List.zipIdx_map_fst 0 candidates, List.filter_map]
  simp only [places, Function.comp_def]

/-- The candidates at the indices of a text are the members of its group. -/
theorem mapM_indicesOf :
    (indicesOf (answers table candidates) t).mapM (fun i => candidates[i]?)
      = some (membersOf table candidates t) := by
  have hmapM : ∀ l : List (Response × Nat), (∀ p ∈ l, candidates[p.2]? = some p.1) →
      (l.map (·.2)).mapM (fun i => candidates[i]?) = some (l.map (·.1)) := by
    intro l
    induction l with
    | nil => exact fun _ => rfl
    | cons p l ih =>
        intro h
        rw [List.map_cons, List.mapM_cons, h p List.mem_cons_self,
          ih fun q hq => h q (List.mem_cons_of_mem p hq)]
        rfl
  rw [indicesOf_answers, membersOf_eq]
  apply hmapM
  intro p hp
  exact List.mk_mem_zipIdx_iff_getElem?.mp (List.mem_filter.mp hp).1

/-! ## The winning group -/

variable (table candidates) in
/-- The candidate that is picked once the group of a text is the largest. -/
def pickOf (t : String) : Option Nat :=
  if 1 < (answers table candidates).count t then do
    let (offset, _) ← selectByLogprob (membersOf table candidates t)
    (indicesOf (answers table candidates) t)[offset]?
  else (selectByLogprob candidates).map Prod.fst

theorem selectWinner_of_lastMax {order : HashOrder (String × List Nat)}
    (hmax : lastMax (fun a b : String × List Nat => decide (b.2.length < a.2.length))
        (order.visit (groupByText (answers table candidates)))
      = some (t, indicesOf (answers table candidates) t)) :
    (selectWinner table order candidates .mostFrequent).map Prod.fst
      = pickOf table candidates t := by
  have htexts : (candidates.map fun c => normalizeText table c.text) = answers table candidates := rfl
  simp only [selectWinner, htexts, hmax, Option.bind_eq_bind, Option.bind_some, pickOf,
    mapM_indicesOf, length_indicesOf]
  split
  · -- the index in the group leads to the one among the candidates
    cases selectByLogprob (membersOf table candidates t) with
    | none => rfl
    | some offset =>
        simp only [Option.bind_some]
        cases (indicesOf (answers table candidates) t)[offset.1]? <;> rfl
  · cases selectByLogprob candidates <;> rfl

variable (table) in
/-- Whatever the order, a most frequent text wins. -/
theorem exists_winning_text (order : HashOrder (String × List Nat)) (h : candidates ≠ []) :
    ∃ t, MostFrequent table candidates t
      ∧ (selectWinner table order candidates .mostFrequent).map Prod.fst
        = pickOf table candidates t := by
  have htexts : answers table candidates ≠ [] := fun hnil => h (List.map_eq_nil_iff.mp hnil)
  obtain ⟨⟨t, indices⟩, hmax⟩ :=
    exists_lastMax (fun a b : String × List Nat => decide (b.2.length < a.2.length))
      (visit_groupByText_ne_nil order htexts)
  obtain ⟨ht, rfl⟩ := mem_groupByText_iff.mp ((order.perm _).mem_iff.mp (lastMax_mem hmax))
  refine ⟨t, ⟨ht, fun u hu => ?_⟩, selectWinner_of_lastMax hmax⟩
  have hle := le_lastMax (r := fun a b : String × List Nat => a.2.length ≤ b.2.length)
    (fun a b c => Nat.le_trans) (by intro a _ b _; split <;> grind) hmax
    (u, indicesOf (answers table candidates) u)
    ((order.perm _).mem_iff.mpr (mem_groupByText_iff.mpr ⟨hu, rfl⟩))
  rwa [length_indicesOf, length_indicesOf] at hle

/-- Any most frequent text wins in some order: the one in which its group is visited last. -/
theorem exists_order (ht : MostFrequent table candidates t) :
    ∃ order, (selectWinner table order candidates .mostFrequent).map Prod.fst
      = pickOf table candidates t := by
  let order : HashOrder (String × List Nat) :=
    { visit := fun groups => groups.filter (fun g => g.1 ≠ t) ++ groups.filter fun g => g.1 = t
      perm := fun groups => by
        have hperm := List.filter_append_perm (fun g : String × List Nat => decide (g.1 ≠ t)) groups
        simpa only [ne_eq, decide_not, Bool.not_not] using hperm }
  refine ⟨order, selectWinner_of_lastMax ?_⟩
  set groups := groupByText (answers table candidates) with hgroups
  have hgroup : (t, indicesOf (answers table candidates) t) ∈ groups.filter fun g => g.1 = t :=
    List.mem_filter.mpr ⟨mem_groupByText_iff.mpr ⟨ht.1, rfl⟩, decide_eq_true rfl⟩
  have honly : ∀ g ∈ groups.filter fun g => g.1 = t,
      g = (t, indicesOf (answers table candidates) t) := by
    rintro ⟨u, indices⟩ hg
    obtain ⟨hmem, heq⟩ := List.mem_filter.mp hg
    have hu : u = t := of_decide_eq_true heq
    rw [(mem_groupByText_iff.mp hmem).2, hu]
  -- its group stands last
  have hlast : (groups.filter fun g => g.1 = t)
      = (groups.filter fun g => g.1 = t).dropLast
        ++ [(t, indicesOf (answers table candidates) t)] := by
    conv => lhs; rw [← List.dropLast_append_getLast (List.ne_nil_of_mem hgroup)]
    rw [List.append_cancel_left_eq, List.singleton_inj]
    exact honly _ (List.getLast_mem (List.ne_nil_of_mem hgroup))
  show lastMax _ (groups.filter (fun g => g.1 ≠ t) ++ groups.filter fun g => g.1 = t) = _
  rw [hlast, ← List.append_assoc, lastMax_concat, Option.some.injEq]
  cases hbest : lastMax (fun a b : String × List Nat => decide (b.2.length < a.2.length))
      (groups.filter (fun g => g.1 ≠ t) ++ (groups.filter fun g => g.1 = t).dropLast) with
  | none => rfl
  | some best =>
      have hmem : best ∈ groups := by
        rcases List.mem_append.mp (lastMax_mem hbest) with hmem | hmem
        · exact (List.mem_filter.mp hmem).1
        · exact (List.mem_filter.mp (List.dropLast_subset _ hmem)).1
      obtain ⟨hu, heq⟩ := mem_groupByText_iff.mp hmem
      have hle := ht.2 best.1 hu
      rw [Option.elim_some, if_neg]
      rw [heq, length_indicesOf, length_indicesOf, decide_eq_true_iff]
      exact Nat.not_lt.mpr hle

/-- The candidate of a group of several is in it. -/
theorem pickOf_of_agreement (hcount : 1 < (answers table candidates).count t) :
    ∃ offset reason i, selectByLogprob (membersOf table candidates t) = some (offset, reason)
      ∧ (indicesOf (answers table candidates) t)[offset]? = some i
      ∧ pickOf table candidates t = some i ∧ (answers table candidates)[i]? = some t := by
  have hlength : (membersOf table candidates t).length = (answers table candidates).count t := by
    rw [membersOf_eq, List.length_map, ← length_indicesOf, indicesOf_answers, List.length_map]
  have hne : membersOf table candidates t ≠ [] := by
    intro hnil
    rw [hnil, List.length_nil] at hlength
    omega
  obtain ⟨offset, reason, hselect, hlt⟩ := selectByLogprob_spec hne
  rw [hlength, ← length_indicesOf] at hlt
  have hget := List.getElem?_eq_getElem hlt
  refine ⟨offset, reason, _, hselect, hget, ?_, mem_indicesOf.mp (List.mem_of_getElem? hget)⟩
  rw [pickOf, if_pos hcount, hselect, Option.bind_eq_bind, Option.bind_some]
  exact hget

/-- Without any confidence the first of the group is picked exactly when it is the longest. -/
theorem firstWins_of_unmeasured
    (hnone : ∀ c ∈ membersOf table candidates t, confidenceOf c = none) :
    FirstWins (membersOf table candidates t)
      ↔ (membersOf table candidates t = []
        ∨ (selectByLogprob (membersOf table candidates t)).map Prod.fst = some 0) := by
  cases hmembers : membersOf table candidates t with
  | nil => exact iff_of_true trivial (Or.inl rfl)
  | cons c rest =>
      rw [hmembers] at hnone
      have hno : ¬ ∃ c' ∈ c :: rest, (confidenceOf c').isSome = true := by
        rintro ⟨c', hc', hsome⟩
        rw [hnone c' hc'] at hsome
        cases hsome
      rw [selectByLogprob_first_iff hnone, FirstWins, or_iff_right hno,
        or_iff_right (List.cons_ne_nil c rest)]

/-- An index of a text is the first one exactly when the text is not found before it. -/
theorem first_index_iff {texts : List String} {k i : Nat} (hget : (indicesOf texts t)[k]? = some i) :
    (∀ j, j < i → texts[j]? ≠ texts[i]?) ↔ k = 0 := by
  have htext := mem_indicesOf.mp (List.mem_of_getElem? hget)
  have hpairs := List.pairwise_iff_getElem.mp (pairwise_indicesOf texts t)
  obtain ⟨hk, hi⟩ := List.getElem?_eq_some_iff.mp hget
  constructor
  · intro h
    by_contra hpos
    have hlt := hpairs 0 k (by omega) hk (by omega)
    have hfirst := mem_indicesOf.mp (List.getElem_mem (Nat.zero_lt_of_lt hk))
    rw [hi] at hlt
    exact h _ hlt (hfirst.trans htext.symm)
  · rintro rfl j hj heq
    obtain ⟨k, hk', hj'⟩ := List.mem_iff_getElem.mp (mem_indicesOf.mpr (heq.trans htext))
    rcases Nat.eq_zero_or_pos k with rfl | hpos
    · omega
    · have hlt := hpairs 0 k hk hk' hpos
      omega

end Groups

/-! ## When votes are right -/

section Right

variable {table : CaseTable} {candidates : List Response} {t : String}

theorem mostFrequent_of_nodup (hnodup : (answers table candidates).Nodup)
    (ht : t ∈ answers table candidates) : MostFrequent table candidates t := by
  refine ⟨ht, fun u _ => ?_⟩
  rw [List.count_eq_one_of_mem hnodup ht]
  exact List.nodup_iff_count_le_one.mp hnodup u

/-- No two candidates agree: the confidence decides. -/
theorem votesRight_of_nodup (hne : candidates ≠ []) (hnodup : (answers table candidates).Nodup)
    (hnum : candidates.length = 1
      ∨ ∀ c ∈ candidates, ∀ x, confidenceOf c = some x → x.isNaN = false) :
    VotesRight table candidates := by
  obtain ⟨i, reason, hselect, hlt⟩ := selectByLogprob_spec hne
  refine ⟨i, ?_, ?_⟩
  · have hget : (answers table candidates)[i]? = some (answer table candidates[i]) := by
      rw [answers, List.getElem?_map, List.getElem?_eq_getElem hlt, Option.map_some]
    refine
      { frequent := ⟨_, hget, mostFrequent_of_nodup hnodup (List.mem_of_getElem? hget)⟩
        confident := ?_
        first := ?_ }
    · intro t u htu ht hu c hc _ x hx
      rcases hnum with hone | hnum
      · -- there are no two texts
        obtain ⟨c, rfl⟩ := List.length_eq_one_iff.mp hone
        exact absurd ((List.mem_singleton.mp ht.1).trans (List.mem_singleton.mp hu.1).symm) htu
      · obtain ⟨i', reason', y, hselect', hy, hmax⟩ := selectByLogprob_confident hc hx hnum
        rw [hselect] at hselect'
        obtain ⟨rfl, -⟩ := Prod.mk.inj (Option.some.inj hselect')
        exact ⟨y, hy, hmax c hc x hx⟩
    · intro _ j hj heq
      have hlength : i < (answers table candidates).length := by
        rw [answers, List.length_map]
        exact hlt
      exact absurd ((List.getElem?_inj (hj.trans hlength) hnodup).mp heq) (Nat.ne_of_lt hj)
  · intro order
    obtain ⟨t, -, heq⟩ := exists_winning_text table order hne
    rw [heq, pickOf, if_neg (Nat.not_lt.mpr (List.nodup_iff_count_le_one.mp hnodup t)), hselect]
    rfl

/-- One text is the most frequent: it wins in every order. -/
theorem votesRight_of_unique (hcount : 2 ≤ (answers table candidates).count t)
    (hunique : ∀ u ∈ answers table candidates, u ≠ t →
      (answers table candidates).count u < (answers table candidates).count t)
    (hfirst : FirstWins (membersOf table candidates t)) : VotesRight table candidates := by
  obtain ⟨offset, reason, i, hselect, hget, hpick, htext⟩ := pickOf_of_agreement hcount
  have ht : MostFrequent table candidates t := by
    refine ⟨List.mem_of_getElem? htext, fun u hu => ?_⟩
    by_cases heq : u = t
    · rw [heq]
    · exact (hunique u hu heq).le
  have honly : ∀ u, MostFrequent table candidates u → u = t := by
    intro u hu
    by_contra hne
    exact absurd (hu.2 t ht.1) (Nat.not_le.mpr (hunique u hu.1 hne))
  refine ⟨i, ?_, ?_⟩
  · refine
      { frequent := ⟨t, htext, ht⟩
        confident := fun u v huv hu hv => absurd ((honly u hu).trans (honly v hv).symm) huv
        first := ?_ }
    intro hnone
    rw [first_index_iff hget]
    have hunmeasured : ∀ c ∈ membersOf table candidates t, confidenceOf c = none := by
      intro c hc
      obtain ⟨hmem, heq⟩ := List.mem_filter.mp hc
      apply hnone c hmem
      rw [htext, of_decide_eq_true heq]
    rcases (firstWins_of_unmeasured hunmeasured).mp hfirst with hnil | hzero
    · rw [hnil] at hselect
      cases hselect
    · rw [hselect] at hzero
      exact Option.some.inj hzero
  · intro order
    have hne : candidates ≠ [] := by
      rintro rfl
      exact absurd ht.1 List.not_mem_nil
    obtain ⟨u, hu, heq⟩ := exists_winning_text table order hne
    rw [heq, honly u hu, hpick]

/-- Of two texts that tie, agreed on by several candidates each, either can win. -/
theorem unique_of_votesRight {i : Nat}
    (hsame : ∀ order, (selectWinner table order candidates .mostFrequent).map Prod.fst = some i)
    (ht : MostFrequent table candidates t) (hcount : 1 < (answers table candidates).count t) :
    (answers table candidates)[i]? = some t ∧ ∀ u ∈ answers table candidates, u ≠ t →
      (answers table candidates).count u < (answers table candidates).count t := by
  have hwins : ∀ u, MostFrequent table candidates u →
      1 < (answers table candidates).count u → (answers table candidates)[i]? = some u := by
    intro u hu hcount
    obtain ⟨order, horder⟩ := exists_order hu
    obtain ⟨-, -, i', -, -, hpick, htext⟩ := pickOf_of_agreement hcount
    rw [hsame order, hpick] at horder
    rw [Option.some.inj horder]
    exact htext
  refine ⟨hwins t ht hcount, fun u hu hne => ?_⟩
  by_contra hge
  have hle := not_lt.mp hge
  have hmost : MostFrequent table candidates u := ⟨hu, fun v hv => (ht.2 v hv).trans hle⟩
  have heq := (hwins u hmost (hcount.trans_le hle)).symm.trans (hwins t ht hcount)
  exact hne (Option.some.inj heq)

/-- Several candidates that do not agree all tie, and nothing is at least as high as what is not a
number. -/
theorem isNaN_of_right {i : Nat} (hright : IsRightVote table candidates i) (hne : candidates ≠ [])
    (hnodup : (answers table candidates).Nodup) (hlength : candidates.length ≠ 1) :
    ∀ c ∈ candidates, ∀ x, confidenceOf c = some x → x.isNaN = false := by
  intro c hc x hx
  obtain ⟨c₁, rest, hrest⟩ := List.exists_cons_of_ne_nil hne
  have hrest_ne : rest ≠ [] := by
    intro hnil
    rw [hrest, hnil] at hlength
    exact hlength rfl
  obtain ⟨c₂, hc₂⟩ := List.exists_mem_of_ne_nil rest hrest_ne
  have hmem : ∀ c' ∈ c₁ :: rest, MostFrequent table candidates (answer table c') := by
    intro c' hc'
    rw [← hrest] at hc'
    exact mostFrequent_of_nodup hnodup (mem_answers hc')
  have hdiffer : answer table c₁ ≠ answer table c₂ := by
    intro heq
    rw [hrest, answers, List.map_cons, List.nodup_cons, heq] at hnodup
    exact hnodup.1 (List.mem_map_of_mem hc₂)
  obtain ⟨y, -, hle⟩ := hright.confident _ _ hdiffer (hmem c₁ List.mem_cons_self)
    (hmem c₂ (List.mem_cons_of_mem c₁ hc₂)) c hc (hmem c (hrest ▸ hc)) x hx
  exact not_isNaN_of_le32 hle

/-- The first of an unmeasured group that is selected wins there. -/
theorem firstWins_of_right {i : Nat} (hright : IsRightVote table candidates i)
    (hsame : ∀ order, (selectWinner table order candidates .mostFrequent).map Prod.fst = some i)
    (ht : MostFrequent table candidates t) (hcount : 1 < (answers table candidates).count t) :
    FirstWins (membersOf table candidates t) := by
  by_cases hmeasured : ∃ c ∈ membersOf table candidates t, (confidenceOf c).isSome = true
  · cases hmembers : membersOf table candidates t with
    | nil => exact trivial
    | cons first rest =>
        rw [hmembers] at hmeasured
        exact Or.inl hmeasured
  · have hunmeasured : ∀ c ∈ membersOf table candidates t, confidenceOf c = none := by
      intro c hc
      by_contra hsome
      exact hmeasured ⟨c, hc, Option.isSome_iff_ne_none.mpr hsome⟩
    obtain ⟨offset, reason, i', hselect, hget, hpick, htext⟩ := pickOf_of_agreement hcount
    obtain ⟨order, horder⟩ := exists_order ht
    rw [hsame order, hpick] at horder
    obtain rfl := Option.some.inj horder
    have hzero : offset = 0 := by
      apply (first_index_iff hget).mp
      apply hright.first
      intro c hc heq
      rw [htext] at heq
      apply hunmeasured c
      exact List.mem_filter.mpr ⟨hc, decide_eq_true (Option.some.inj heq).symm⟩
    apply (firstWins_of_unmeasured hunmeasured).mpr
    right
    rw [hselect, hzero]
    rfl

/-- The vote is right, whatever the order of the groups, exactly when it is decided. -/
theorem votesRight_iff (table : CaseTable) (candidates : List Response) :
    VotesRight table candidates ↔ Decided table candidates := by
  constructor
  · rintro ⟨i, hright, hsame⟩
    obtain ⟨t, htext, ht⟩ := hright.frequent
    have hne : candidates ≠ [] := by
      rintro rfl
      cases htext
    refine ⟨hne, ?_⟩
    by_cases hcount : 1 < (answers table candidates).count t
    · right
      exact ⟨t, hcount, (unique_of_votesRight hsame ht hcount).2,
        firstWins_of_right hright hsame ht hcount⟩
    · left
      have hnodup : (answers table candidates).Nodup := by
        apply List.nodup_iff_count_le_one.mpr
        intro u
        by_cases hu : u ∈ answers table candidates
        · exact (ht.2 u hu).trans (Nat.not_lt.mp hcount)
        · rw [List.count_eq_zero_of_not_mem hu]
          exact Nat.zero_le 1
      refine ⟨hnodup, ?_⟩
      by_cases hlength : candidates.length = 1
      · exact Or.inl hlength
      · exact Or.inr (isNaN_of_right hright hne hnodup hlength)
  · rintro ⟨hne, ⟨hnodup, hnum⟩ | ⟨t, hcount, hunique, hfirst⟩⟩
    · exact votesRight_of_nodup hne hnodup hnum
    · exact votesRight_of_unique hcount hunique hfirst

/-! ### Unfair votes -/

/-- A completed answer without a confidence. -/
def said (text : String) : Response :=
  { Response.builder "resp_1" "gpt-5.4-mini" 0 with
    status := .completed
    output := [.assistant "msg_0" text] }

/-- Two answers with two votes each. -/
def splitVote : List Response := ["4", "4", "5", "5"].map said

/-- One answer, the second time with a full stop. -/
def fullStop : List Response := ["yes", "yes."].map said

def inOrder : HashOrder (String × List Nat) := ⟨id, fun l => List.Perm.refl l⟩

def reversed : HashOrder (String × List Nat) := ⟨List.reverse, List.reverse_perm⟩

/-- A split vote goes to the group that is visited last, and a longer text beats the first one. -/
theorem unfair_votes : ¬ VotesRight .fixed splitVote ∧ ¬ VotesRight .fixed fullStop := by
  constructor
  · rintro ⟨i, -, hsame⟩
    have hlast : (selectWinner .fixed inOrder splitVote .mostFrequent).map Prod.fst = some 3 := by
      decide +kernel
    have hfirst : (selectWinner .fixed reversed splitVote .mostFrequent).map Prod.fst = some 1 := by
      decide +kernel
    have hthree : some 3 = some i := hlast.symm.trans (hsame inOrder)
    have hone : some 1 = some i := hfirst.symm.trans (hsame reversed)
    exact absurd (hthree.trans hone.symm) (by decide)
  · rintro ⟨i, hright, hsame⟩
    have hsecond : (selectWinner .fixed inOrder fullStop .mostFrequent).map Prod.fst = some 1 := by
      decide +kernel
    obtain rfl := Option.some.inj ((hsame inOrder).symm.trans hsecond)
    have htexts : answers .fixed fullStop = ["yes", "yes"] := by decide +kernel
    refine hright.first ?_ 0 Nat.zero_lt_one (by rw [htexts]; rfl)
    intro c hc _
    rcases List.mem_cons.mp hc with rfl | hc
    · rfl
    · obtain rfl := List.mem_singleton.mp hc
      rfl

end Right

end AuraGateway.Validation
