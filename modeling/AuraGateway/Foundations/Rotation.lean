import Mathlib

/-!
# Taking turns

Turns are even when no member of a group has had more than one turn more than another. They
are even after every turn exactly when nobody has two turns in a round, where a round is as many
turns as the group has members (`even_prefixes_iff`).
-/

set_option autoImplicit false

namespace AuraGateway.Foundations.Rotation

variable {α : Type}

/-- Nobody has had more than one turn more than another. -/
def Even (group : Finset α) (count : α → Nat) : Prop :=
  ∀ a ∈ group, ∀ b ∈ group, count a ≤ count b + 1

/-- Nobody has two turns in a round of `k`; `round` holds those who had one in the current round. -/
def Spread (k : Nat) : List α → List α → Prop
  | _, [] => True
  | round, a :: turns =>
      a ∉ round ∧ Spread k (if round.length + 1 = k then [] else a :: round) turns

/-- Counts after some full rounds and the turns of the current one. -/
structure Rounds (group : Finset α) (round : List α) (count : α → Nat) : Prop where
  nodup : round.Nodup
  short : round.length < group.card
  members : ∀ a ∈ round, a ∈ group
  counted : ∃ q, ∀ a ∈ group, a ∈ round ∧ count a = q + 1 ∨ a ∉ round ∧ count a = q

variable {group : Finset α} {round : List α} {count : α → Nat}

theorem Rounds.start (hgroup : 0 < group.card) : Rounds group [] (fun _ => 0) where
  nodup := List.nodup_nil
  short := hgroup
  members := fun _ ha => absurd ha List.not_mem_nil
  counted := ⟨0, fun _ _ => .inr ⟨List.not_mem_nil, rfl⟩⟩

theorem Rounds.even (h : Rounds group round count) : Even group count := by
  obtain ⟨q, hq⟩ := h.counted
  intro a ha b hb
  rcases hq a ha with ⟨-, hca⟩ | ⟨-, hca⟩ <;> rcases hq b hb with ⟨-, hcb⟩ | ⟨-, hcb⟩ <;> omega

section Turns

variable [DecidableEq α]

/-- A round that is not full leaves a member out. -/
theorem exists_missing (hshort : round.length < group.card) : ∃ a ∈ group, a ∉ round := by
  have hcard : round.toFinset.card < group.card := (List.toFinset_card_le round).trans_lt hshort
  obtain ⟨a, ha, hmissing⟩ := Finset.exists_mem_notMem_of_card_lt_card hcard
  exact ⟨a, ha, fun hmem => hmissing (List.mem_toFinset.mpr hmem)⟩

/-- A full round has every member. -/
theorem mem_of_full (hnodup : round.Nodup) (hmembers : ∀ a ∈ round, a ∈ group)
    (hfull : round.length = group.card) {a : α} (ha : a ∈ group) : a ∈ round := by
  have hsub : round.toFinset ⊆ group := fun b hb => hmembers b (List.mem_toFinset.mp hb)
  have hcard : group.card ≤ round.toFinset.card := by
    rw [List.toFinset_card_of_nodup hnodup, hfull]
  rw [← Finset.eq_of_subset_of_card_le hsub hcard] at ha
  exact List.mem_toFinset.mp ha

instance decidableSpread (k : Nat) : (round turns : List α) → Decidable (Spread k round turns)
  | _, [] => isTrue trivial
  | round, a :: turns =>
      have := decidableSpread k (if round.length + 1 = k then [] else a :: round) turns
      inferInstanceAs (Decidable (a ∉ round ∧ _))

/-- The counts after one more turn. -/
def bump (count : α → Nat) (a : α) : α → Nat := fun b => count b + if a = b then 1 else 0

theorem bump_self (a : α) : bump count a a = count a + 1 := by
  rw [bump, if_pos rfl]

theorem bump_of_ne {a b : α} (h : a ≠ b) : bump count a b = count b := by
  rw [bump, if_neg h, Nat.add_zero]

/-- Counting from some counts on is counting from those after the first turn. -/
theorem count_cons_eq_bump (a : α) (turns : List α) :
    (fun b => count b + (a :: turns).count b) = fun b => bump count a b + turns.count b := by
  funext b
  rw [List.count_cons, bump]
  simp only [beq_iff_eq]
  omega

/-- A turn of somebody new in the round keeps the counts together. -/
theorem Rounds.bump (h : Rounds group round count) {a : α} (ha : a ∈ group) (hnew : a ∉ round) :
    Rounds group (if round.length + 1 = group.card then [] else a :: round)
      (Rotation.bump count a) := by
  obtain ⟨q, hq⟩ := h.counted
  have hnodup : (a :: round).Nodup := List.nodup_cons.mpr ⟨hnew, h.nodup⟩
  have hmembers : ∀ b ∈ a :: round, b ∈ group := List.forall_mem_cons.mpr ⟨ha, h.members⟩
  have hcount : ∀ b ∈ group, b ∈ a :: round ∧ Rotation.bump count a b = q + 1
      ∨ b ∉ a :: round ∧ Rotation.bump count a b = q := by
    intro b hb
    by_cases hab : a = b
    · subst hab
      rcases hq a ha with ⟨hmem, -⟩ | ⟨-, hca⟩
      · exact absurd hmem hnew
      · exact .inl ⟨List.mem_cons_self, by rw [bump_self, hca]⟩
    · rw [bump_of_ne hab]
      rcases hq b hb with ⟨hmem, hcb⟩ | ⟨hmem, hcb⟩
      · exact .inl ⟨List.mem_cons_of_mem a hmem, hcb⟩
      · refine .inr ⟨fun hcons => ?_, hcb⟩
        rcases List.mem_cons.mp hcons with rfl | hround
        · exact hab rfl
        · exact hmem hround
  split
  · -- the round is full and everybody has had one more turn
    rename_i hfull
    refine ⟨List.nodup_nil, Nat.zero_lt_of_lt h.short, fun _ hb => absurd hb List.not_mem_nil,
      q + 1, ?_⟩
    intro b hb
    have hall : b ∈ a :: round := mem_of_full hnodup hmembers hfull hb
    rcases hcount b hb with ⟨-, hcb⟩ | ⟨hmem, -⟩
    · exact .inr ⟨List.not_mem_nil, hcb⟩
    · exact absurd hall hmem
  · rename_i hopen
    have hshort := h.short
    exact ⟨hnodup, by rw [List.length_cons]; omega, hmembers, q, hcount⟩

/-- A second turn in one round puts somebody two turns ahead. -/
theorem Rounds.not_even_bump (h : Rounds group round count) {a : α} (ha : a ∈ group)
    (hmem : a ∈ round) : ¬ Even group (Rotation.bump count a) := by
  intro heven
  obtain ⟨q, hq⟩ := h.counted
  obtain ⟨b, hb, hmissing⟩ := exists_missing h.short
  have hne : a ≠ b := fun hab => hmissing (hab ▸ hmem)
  have hle := heven a ha b hb
  rw [bump_self, bump_of_ne hne] at hle
  rcases hq a ha with ⟨-, hca⟩ | ⟨hout, -⟩
  · rcases hq b hb with ⟨hin, -⟩ | ⟨-, hcb⟩
    · exact hmissing hin
    · omega
  · exact hout hmem

theorem Rounds.even_prefixes_iff {turns : List α} (h : Rounds group round count)
    (hturns : ∀ a ∈ turns, a ∈ group) :
    (∀ taken, taken <+: turns → Even group fun b => count b + taken.count b)
      ↔ Spread group.card round turns := by
  induction turns generalizing round count with
  | nil =>
      refine iff_of_true (fun taken htaken => ?_) trivial
      rw [List.prefix_nil.mp htaken]
      exact h.even
  | cons a turns ih =>
      obtain ⟨ha, hrest⟩ := List.forall_mem_cons.mp hturns
      -- counting starts after the first turn
      have hsplit : (∀ taken, taken <+: a :: turns → Even group fun b => count b + taken.count b)
          ↔ ∀ taken, taken <+: turns →
            Even group fun b => Rotation.bump count a b + taken.count b := by
        constructor
        · intro hall taken htaken
          rw [← count_cons_eq_bump]
          exact hall _ (List.cons_prefix_cons.mpr ⟨rfl, htaken⟩)
        · intro hall taken htaken
          rcases List.prefix_cons_iff.mp htaken with rfl | ⟨rest, rfl, hbegin⟩
          · exact h.even
          · rw [count_cons_eq_bump]
            exact hall rest hbegin
      rw [hsplit, Spread]
      constructor
      · intro hall
        have hnew : a ∉ round := fun hmem => h.not_even_bump ha hmem (hall [] List.nil_prefix)
        exact ⟨hnew, (ih (h.bump ha hnew) hrest).mp hall⟩
      · rintro ⟨hnew, hspread⟩
        exact (ih (h.bump ha hnew) hrest).mpr hspread

/-- Turns are even after every turn exactly when nobody has two in a round. -/
theorem even_prefixes_iff {turns : List α} (hturns : ∀ a ∈ turns, a ∈ group) :
    (∀ taken, taken <+: turns → Even group fun b => taken.count b)
      ↔ Spread group.card [] turns := by
  rcases Nat.eq_zero_or_pos group.card with hzero | hpos
  · -- an empty group takes no turns
    obtain rfl := Finset.card_eq_zero.mp hzero
    have hnil : turns = [] := List.eq_nil_iff_forall_not_mem.mpr fun a ha =>
      absurd (hturns a ha) (Finset.notMem_empty a)
    subst hnil
    exact iff_of_true (fun _ _ a ha => absurd ha (Finset.notMem_empty a)) trivial
  · rw [← (Rounds.start hpos).even_prefixes_iff hturns]
    simp only [Nat.zero_add]

end Turns

/-- An entry is not among those before it. -/
theorem getElem_notMem_take {members : List α} (hnodup : members.Nodup) {i : Nat}
    (hi : i < members.length) : members[i] ∉ members.take i := by
  have hsplit : (members.take i ++ [members[i]]).Nodup := by
    rw [← List.take_succ_eq_append_getElem hi]
    exact hnodup.sublist (List.take_sublist (i + 1) members)
  exact fun hmem => (List.disjoint_of_nodup_append hsplit) hmem (List.mem_singleton_self _)

/-- The entry of a list that a counter points to. -/
def pointed (members : List α) (counter : Nat) : Option α := members[counter % members.length]?

theorem pointed_eq_some {members : List α} (counter : Nat)
    (h : counter % members.length < members.length) :
    pointed members counter = some members[counter % members.length] :=
  List.getElem?_eq_getElem h

/-- Turns by consecutive numbers are spread. -/
theorem spread_cycle {members : List α} (hnodup : members.Nodup) (n len : Nat) :
    Spread members.length (members.take (n % members.length)).reverse
      ((List.range' n len).filterMap (pointed members)) := by
  induction len generalizing n with
  | zero => trivial
  | succ len ih =>
      rw [List.range'_succ]
      have hnext := ih (n + 1)
      rcases Nat.eq_zero_or_pos members.length with hzero | hpos
      · -- without members nobody takes a turn
        obtain rfl := List.length_eq_zero_iff.mp hzero
        rw [List.filterMap_cons_none (show pointed [] n = none from List.getElem?_nil)]
        simpa using hnext
      · have hlt : n % members.length < members.length := Nat.mod_lt n hpos
        have hmod : (n + 1) % members.length = (n % members.length + 1) % members.length :=
          (Nat.mod_add_mod n members.length 1).symm
        rw [List.filterMap_cons_some (pointed_eq_some n hlt), Spread, List.mem_reverse,
          List.length_reverse, List.length_take_of_le hlt.le]
        refine ⟨getElem_notMem_take hnodup hlt, ?_⟩
        by_cases hfull : n % members.length + 1 = members.length
        · rw [if_pos hfull]
          rwa [hmod, hfull, Nat.mod_self] at hnext
        · rw [if_neg hfull]
          rwa [hmod, Nat.mod_eq_of_lt (by omega), List.take_succ_eq_append_getElem hlt,
            List.reverse_append] at hnext

end AuraGateway.Foundations.Rotation
