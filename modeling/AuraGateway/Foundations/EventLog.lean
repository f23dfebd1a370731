import Mathlib

/-!
# Event logs

A log lists events in the order in which they happened. An event that qualified when it
happened, judged by the events before it, stands in the log as long as no later event
cancels it (`Standing`); `standing_snoc` is the rule for one more event.

A counter over a sliding window may forget what has left the window: whatever is counted
at a later time is counted among what was kept (`within_within`).
-/

set_option autoImplicit false

namespace AuraGateway.Foundations.EventLog

universe u

section Standing

variable {α : Type u}

/-- An element of a log with one more event is the new event or was there before. -/
theorem snoc_eq_append_cons {log older newer : List α} {e x : α}
    (h : log ++ [x] = older ++ e :: newer) :
    (newer = [] ∧ e = x ∧ older = log) ∨
      ∃ newer', newer = newer' ++ [x] ∧ log = older ++ e :: newer' := by
  rcases List.eq_nil_or_concat newer with rfl | ⟨newer', y, rfl⟩
  · obtain ⟨rfl, hx⟩ := List.append_inj' h rfl
    exact Or.inl ⟨rfl, (List.singleton_inj.mp hx).symm, rfl⟩
  · have h' : log ++ [x] = (older ++ e :: newer') ++ [y] := by simpa using h
    obtain ⟨rfl, hx⟩ := List.append_inj' h' rfl
    obtain rfl := List.singleton_inj.mp hx
    exact Or.inr ⟨newer', by simp, rfl⟩

/-- `e` qualified when it was logged, and nothing logged after it cancels it. -/
def Standing (qualifies : List α → α → Prop) (cancels : α → Prop) (log : List α) (e : α) : Prop :=
  ∃ older newer, log = older ++ e :: newer ∧ qualifies older e ∧ ∀ x ∈ newer, ¬ cancels x

variable {qualifies : List α → α → Prop} {cancels : α → Prop} {log : List α} {e x : α}

theorem not_standing_nil : ¬ Standing qualifies cancels [] e := by
  rintro ⟨older, newer, h, -, -⟩
  exact absurd h (by simp)

theorem Standing.mem (h : Standing qualifies cancels log e) : e ∈ log := by
  obtain ⟨older, newer, rfl, -, -⟩ := h
  simp

/-- After one more event, what stood still stands unless the event cancels it, and the
event itself stands when it qualifies. -/
theorem standing_snoc :
    Standing qualifies cancels (log ++ [x]) e ↔
      (Standing qualifies cancels log e ∧ ¬ cancels x) ∨ (e = x ∧ qualifies log x) := by
  constructor
  · rintro ⟨older, newer, h, hq, hc⟩
    -- the log is cut at its last event or before it
    rcases snoc_eq_append_cons h with ⟨rfl, rfl, rfl⟩ | ⟨newer', rfl, rfl⟩
    · exact Or.inr ⟨rfl, hq⟩
    · refine Or.inl ⟨⟨older, newer', rfl, hq, ?_⟩, hc x (by simp)⟩
      intro z hz
      exact hc z (by simp [hz])
  · rintro (⟨⟨older, newer, rfl, hq, hc⟩, hx⟩ | ⟨rfl, hq⟩)
    · refine ⟨older, newer ++ [x], by simp, hq, ?_⟩
      intro z hz
      rcases List.mem_append.mp hz with hz | hz
      · exact hc z hz
      · obtain rfl := List.mem_singleton.mp hz
        exact hx
    · exact ⟨log, [], rfl, hq, by simp⟩

/-- An event that neither cancels nor qualifies changes nothing. -/
theorem standing_snoc_of_neutral (hc : ¬ cancels x) (hq : ¬ qualifies log x) :
    Standing qualifies cancels (log ++ [x]) e ↔ Standing qualifies cancels log e := by
  rw [standing_snoc]
  constructor
  · rintro (⟨he, -⟩ | ⟨-, he⟩)
    · exact he
    · exact absurd he hq
  · intro he
    exact Or.inl ⟨he, hc⟩

end Standing

section Window

/-- The instants less than `window` before `now`. -/
def within (window now : Nat) (ts : List Nat) : List Nat :=
  ts.filter fun t => decide (now - t < window)

variable {window now later : Nat}

theorem within_append (ts us : List Nat) :
    within window now (ts ++ us) = within window now ts ++ within window now us :=
  List.filter_append ts us

/-- What has left the window does not come back. -/
theorem within_within (h : now ≤ later) (ts : List Nat) :
    within window later (within window now ts) = within window later ts := by
  simp only [within]
  -- being in the later window is being in both, as time only passes
  rw [List.filter_filter]
  apply List.filter_congr
  intro t _
  simp only [Bool.and_eq_left_iff_imp, decide_eq_true_eq]
  omega

end Window

end AuraGateway.Foundations.EventLog
