import Mathlib

/-!
# A queue worked off in batches

Each batch attempts the first items of a queue. Items that fail stay where they are and are
attempted again by the next batch; after a batch that is not full, or when no batch is left, the
work ends. `drain` lists the attempts in their order. When no item fails, each is attempted once
(`drain_of_none_fails`); with an item that fails, one is attempted (`exists_failing_mem_drain`).
The other items are done once each when a batch has room for all that fail
(`filter_drain_of_room`), and none is done when they fill the first batch (`drain_of_stuck`).
-/

set_option autoImplicit false

namespace AuraGateway.Foundations.BatchedQueue

universe u

variable {α : Type u} (size : Nat) (fails : α → Bool)

/-- The queue after a batch. -/
def afterBatch (queue : List α) : List α := (queue.take size).filter fails ++ queue.drop size

/-- The attempts of some batches. -/
def drain : Nat → List α → List α
  | 0, _ => []
  | n + 1, queue =>
      queue.take size ++ if queue.length < size then [] else drain n (afterBatch size fails queue)

variable {size fails}

theorem drain_succ_of_short (n : Nat) {queue : List α} (h : queue.length < size) :
    drain size fails (n + 1) queue = queue := by
  rw [drain, if_pos h, List.append_nil, List.take_of_length_le h.le]

theorem drain_succ_of_full (n : Nat) {queue : List α} (h : size ≤ queue.length) :
    drain size fails (n + 1) queue
      = queue.take size ++ drain size fails n (afterBatch size fails queue) := by
  rw [drain, if_neg (Nat.not_lt.mpr h)]

theorem afterBatch_of_none_fails {queue : List α} (h : ∀ a ∈ queue.take size, fails a = false) :
    afterBatch size fails queue = queue.drop size := by
  have hnone : (queue.take size).filter fails = [] := by
    rw [List.filter_eq_nil_iff]
    intro a ha
    rw [h a ha]
    exact Bool.false_ne_true
  rw [afterBatch, hnone, List.nil_append]

/-- Without failures each item is attempted once, in order. -/
theorem drain_of_none_fails {n : Nat} {queue : List α} (h : ∀ a ∈ queue, fails a = false)
    (hlen : queue.length ≤ size * n) : drain size fails n queue = queue := by
  induction n generalizing queue with
  | zero =>
      have hnil : queue = [] := List.length_eq_zero_iff.mp (by omega)
      rw [hnil, drain]
  | succ n ih =>
      rcases Nat.lt_or_ge queue.length size with hshort | hfull
      · exact drain_succ_of_short n hshort
      · rw [drain_succ_of_full n hfull,
          afterBatch_of_none_fails fun a ha => h a (List.mem_of_mem_take ha)]
        rw [Nat.mul_succ] at hlen
        rw [ih (fun a ha => h a (List.mem_of_mem_drop ha)) (by rw [List.length_drop]; omega),
          List.take_append_drop]

/-- An item that fails is not overlooked: it or one before it is attempted. -/
theorem exists_failing_mem_drain {n : Nat} {queue : List α} (hlen : queue.length ≤ size * n)
    {a : α} (ha : a ∈ queue) (hfails : fails a = true) :
    ∃ b ∈ drain size fails n queue, fails b = true := by
  induction n generalizing queue with
  | zero =>
      have hnil : queue = [] := List.length_eq_zero_iff.mp (by omega)
      rw [hnil] at ha
      exact absurd ha List.not_mem_nil
  | succ n ih =>
      rcases Nat.lt_or_ge queue.length size with hshort | hfull
      · exact ⟨a, by rwa [drain_succ_of_short n hshort], hfails⟩
      · rw [drain_succ_of_full n hfull]
        by_cases hfirst : ∃ b ∈ queue.take size, fails b = true
        · obtain ⟨b, hb, hfb⟩ := hfirst
          exact ⟨b, List.mem_append_left _ hb, hfb⟩
        · -- the batch is done, and the item is behind it
          have hnone : ∀ b ∈ queue.take size, fails b = false := by
            intro b hb
            by_contra hfb
            exact hfirst ⟨b, hb, by simpa using hfb⟩
          have hbehind : a ∈ queue.drop size := by
            rw [← List.take_append_drop size queue] at ha
            rcases List.mem_append.mp ha with htake | hdrop
            · rw [hnone a htake] at hfails
              cases hfails
            · exact hdrop
          rw [Nat.mul_succ] at hlen
          rw [afterBatch_of_none_fails hnone]
          obtain ⟨b, hb, hfb⟩ := ih (by rw [List.length_drop]; omega) hbehind
          exact ⟨b, List.mem_append_right _ hb, hfb⟩

/-! ## Items that do not fail -/

theorem filter_afterBatch (queue : List α) :
    (afterBatch size fails queue).filter (fun a => !fails a)
      = (queue.drop size).filter fun a => !fails a := by
  rw [afterBatch, List.filter_append, List.filter_filter]
  simp

theorem countP_afterBatch (queue : List α) :
    (afterBatch size fails queue).countP fails = queue.countP fails := by
  have hsplit : (queue.take size).countP fails + (queue.drop size).countP fails
      = queue.countP fails := by
    rw [← List.countP_append, List.take_append_drop]
  rw [afterBatch, List.countP_append, List.countP_filter, ← hsplit]
  simp

/-- A batch with room for all items that fail does the others of its share. -/
theorem filter_drain_of_room {n : Nat} {queue : List α}
    (hroom : (queue.filter fun a => !fails a).length ≤ (size - queue.countP fails) * n) :
    (drain size fails n queue).filter (fun a => !fails a) = queue.filter fun a => !fails a := by
  induction n generalizing queue with
  | zero =>
      have hnone : queue.filter (fun a => !fails a) = [] :=
        List.length_eq_zero_iff.mp (by omega)
      rw [hnone]
      rfl
  | succ n ih =>
      rcases Nat.lt_or_ge queue.length size with hshort | hfull
      · rw [drain_succ_of_short n hshort]
      · have hsplit : (queue.take size).filter (fun a => !fails a)
            ++ (queue.drop size).filter (fun a => !fails a) = queue.filter fun a => !fails a := by
          rw [← List.filter_append, List.take_append_drop]
        -- at most the items that fail take places of the batch
        have hshare : size - queue.countP fails
            ≤ ((queue.take size).filter fun a => !fails a).length := by
          have hall := List.length_eq_length_filter_add (l := queue.take size) fails
          have hle : (queue.take size).countP fails ≤ queue.countP fails :=
            (List.take_sublist size queue).countP_le
          rw [List.length_take_of_le hfull, ← List.countP_eq_length_filter] at hall
          omega
        have hrest : (drain size fails n (afterBatch size fails queue)).filter (fun a => !fails a)
            = (afterBatch size fails queue).filter fun a => !fails a := by
          apply ih
          rw [filter_afterBatch, countP_afterBatch]
          rw [← hsplit, List.length_append, Nat.mul_succ] at hroom
          omega
        rw [drain_succ_of_full n hfull, List.filter_append, hrest,
          filter_afterBatch, hsplit]

/-- Items that fail and fill the first batch keep all others from being attempted. -/
theorem drain_of_stuck {n : Nat} {queue : List α} (hfull : size ≤ queue.length)
    (hstuck : ∀ a ∈ queue.take size, fails a = true) :
    ∀ a ∈ drain size fails n queue, fails a = true := by
  have hsame : afterBatch size fails queue = queue := by
    rw [afterBatch, List.filter_eq_self.mpr hstuck, List.take_append_drop]
  induction n with
  | zero => exact fun a ha => absurd ha List.not_mem_nil
  | succ n ih =>
      rw [drain_succ_of_full n hfull, hsame]
      exact List.forall_mem_append.mpr ⟨hstuck, ih⟩

/-! ## Queues of keyed items -/

section Keyed

universe v

variable {κ : Type v}

/-- The queue after a batch is the queue without what the batch did. -/
theorem afterBatch_eq_filter [DecidableEq κ] {key : α → κ} {queue : List α}
    (hkeys : (queue.map key).Nodup) :
    afterBatch size fails queue = queue.filter fun a =>
      decide (key a ∉ ((queue.take size).filter fun a => !fails a).map key) := by
  have hinj : ∀ a ∈ queue, ∀ b ∈ queue, key a = key b → a = b := fun a ha b hb =>
    List.inj_on_of_nodup_map hkeys ha hb
  have hsplit := List.take_append_drop size queue
  have htake : (queue.take size).filter fails = (queue.take size).filter fun a =>
      decide (key a ∉ ((queue.take size).filter fun a => !fails a).map key) := by
    refine List.filter_congr fun a ha => ?_
    have hin : a ∈ queue := List.mem_of_mem_take ha
    by_cases hfa : fails a = true
    · rw [hfa, eq_comm, decide_eq_true_eq]
      intro hmem
      obtain ⟨b, hb, hkey⟩ := List.mem_map.mp hmem
      obtain ⟨hbtake, hbfails⟩ := List.mem_filter.mp hb
      obtain rfl := hinj b (List.mem_of_mem_take hbtake) a hin hkey
      rw [hfa] at hbfails
      cases hbfails
    · have hfa : fails a = false := by simpa using hfa
      rw [hfa, eq_comm, decide_eq_false_iff_not, not_not]
      exact List.mem_map_of_mem (List.mem_filter.mpr ⟨ha, by rw [hfa]; rfl⟩)
  have hdrop : queue.drop size = (queue.drop size).filter fun a =>
      decide (key a ∉ ((queue.take size).filter fun a => !fails a).map key) := by
    symm
    rw [List.filter_eq_self]
    intro a ha
    rw [decide_eq_true_eq]
    intro hmem
    obtain ⟨b, hb, hkey⟩ := List.mem_map.mp hmem
    -- a key of the batch and behind it would be there twice
    rw [← hsplit, List.map_append] at hkeys
    have hbtake := List.mem_map_of_mem (f := key) (List.mem_filter.mp hb).1
    rw [hkey] at hbtake
    exact List.disjoint_of_nodup_append hkeys hbtake (List.mem_map_of_mem ha)
  rw [afterBatch, htake]
  conv_lhs => rw [hdrop]
  rw [← List.filter_append, hsplit]

end Keyed

end AuraGateway.Foundations.BatchedQueue
