import Mathlib

/-!
# Leftmost-first regular expressions

A regular expression is read the way a backtracking engine reads it. Where it is tried, its parses
stand in the order of preference: an alternative before the next one, a greedy repetition from the
longest run down, a lazy one from the shortest run up. What is found in a text is the first parse at
the first place where there is one (`find`).

A match is found exactly where one occurs (`find_isSome_iff`), and it stands at the beginning exactly
when the expression matches there (`before_eq_nil_iff`). An expression that ends in a greedy run
leaves nothing of it behind (`Exhausts.find`).
-/

set_option autoImplicit false

namespace AuraGateway.Foundations.LeftmostRegex

universe u

/-- Regular expressions over classes of characters, with tests of the two characters at a place,
repeated classes and numbered groups. -/
inductive Regex (α : Type u) where
  | empty
  | one (p : α → Bool)
  | look (p : Option α → Option α → Bool)
  | seq (r s : Regex α)
  | alt (r s : Regex α)
  | many (p : α → Bool) (greedy : Bool)
  | group (i : Nat) (r : Regex α)

/-- What a parse takes of a text, what it leaves, and its groups. -/
structure Parse (α : Type u) where
  taken : List α
  rest : List α
  groups : List (Nat × List α)

/-- A parse that is found behind other text. -/
structure Found (α : Type u) extends Parse α where
  before : List α

variable {α : Type u}

namespace Regex

/-- One or more characters of a class, as many as possible. -/
def plus (p : α → Bool) : Regex α := .seq (.one p) (.many p true)

/-- One or more characters of a class, as few as possible. -/
def plusLazy (p : α → Bool) : Regex α := .seq (.one p) (.many p false)

def opt (r : Regex α) : Regex α := .alt r .empty

/-- Expressions in a row. -/
def seqs : List (Regex α) → Regex α
  | [] => .empty
  | [r] => r
  | r :: rs => .seq r (seqs rs)

end Regex

/-- The runs of a class at the beginning of a text, the shortest first. -/
def runs (p : α → Bool) : List α → List (Parse α)
  | [] => [⟨[], [], []⟩]
  | a :: t =>
      ⟨[], a :: t, []⟩ ::
        if p a then (runs p t).map fun m => { m with taken := a :: m.taken } else []

/-- The parses at the beginning of a text that stands behind `prev`, in the order of preference. -/
def parses : Regex α → Option α → List α → List (Parse α)
  | .empty, _, t => [⟨[], t, []⟩]
  | .one _, _, [] => []
  | .one p, _, a :: t => if p a then [⟨[a], t, []⟩] else []
  | .look p, prev, t => if p prev t.head? then [⟨[], t, []⟩] else []
  | .seq r s, prev, t => (parses r prev t).flatMap fun m =>
      (parses s (m.taken.getLast?.or prev) m.rest).map fun n =>
        ⟨m.taken ++ n.taken, n.rest, m.groups ++ n.groups⟩
  | .alt r s, prev, t => parses r prev t ++ parses s prev t
  | .many p greedy, _, t => if greedy then (runs p t).reverse else runs p t
  | .group i r, prev, t =>
      (parses r prev t).map fun m => { m with groups := m.groups ++ [(i, m.taken)] }

/-- The first parse at the first place that has one. -/
def find (r : Regex α) (prev : Option α) (t : List α) : Option (Found α) :=
  match (parses r prev t).head? with
  | some m => some { m with before := [] }
  | none =>
      match t with
      | [] => none
      | a :: t => (find r (some a) t).map fun f => { f with before := a :: f.before }

/-- An engine: what it finds of an expression in a text that stands behind a character, or behind
none. -/
abbrev Engine (α : Type u) := Regex α → Option α → List α → Option (Found α)

/-- The engine finds the leftmost match, and of those there the preferred one. -/
def LeftmostFirst (engine : Engine α) : Prop := ∀ r prev t, engine r prev t = find r prev t

/-- The text of a group; of one that takes no part in the parse, nothing. -/
def Parse.get (m : Parse α) (i : Nat) : List α := (m.groups.lookup i).getD []

/-- The expression matches at the beginning of a text. -/
def Begins (r : Regex α) (prev : Option α) (t : List α) : Prop := parses r prev t ≠ []

instance (r : Regex α) (prev : Option α) (t : List α) : Decidable (Begins r prev t) :=
  decidable_of_iff ((parses r prev t).isEmpty = false) List.isEmpty_eq_false_iff

/-- The expression matches somewhere in a text. -/
def Occurs (r : Regex α) : Option α → List α → Prop
  | prev, [] => Begins r prev []
  | prev, a :: t => Begins r prev (a :: t) ∨ Occurs r (some a) t

section Find

variable {r s : Regex α} {prev : Option α} {t : List α} {m : Parse α} {f : Found α}

theorem find_of_head (h : (parses r prev t).head? = some m) :
    find r prev t = some { m with before := [] } := by
  cases t with
  | nil => rw [find, h]
  | cons a t => rw [find, h]

theorem find_cons_of_nil {a : α} (h : parses r prev (a :: t) = []) :
    find r prev (a :: t)
      = (find r (some a) t).map fun f => { f with before := a :: f.before } := by
  rw [find, h, List.head?_nil]

theorem find_isSome_iff : (find r prev t).isSome = true ↔ Occurs r prev t := by
  induction t generalizing prev with
  | nil =>
      rw [find, Occurs, Begins]
      cases parses r prev [] with
      | nil => simp
      | cons m ms => simp
  | cons a t ih =>
      rw [Occurs, Begins]
      cases hparses : parses r prev (a :: t) with
      | nil => simp [find_cons_of_nil hparses, ih]
      | cons m ms => simp [find_of_head (r := r) (m := m) (by rw [hparses, List.head?_cons])]

instance : Decidable (Occurs r prev t) := decidable_of_iff _ find_isSome_iff

theorem before_eq_nil_iff (h : find r prev t = some f) : f.before = [] ↔ Begins r prev t := by
  rw [Begins]
  cases hparses : parses r prev t with
  | cons m ms =>
      rw [find_of_head (m := m) (by rw [hparses, List.head?_cons])] at h
      obtain rfl := Option.some.inj h
      simp
  | nil =>
      cases t with
      | nil =>
          rw [find, hparses] at h
          cases h
      | cons a t =>
          rw [find_cons_of_nil hparses, Option.map_eq_some_iff] at h
          obtain ⟨g, -, rfl⟩ := h
          simp

/-- What is found is a first parse. -/
theorem head_of_find (h : find r prev t = some f) :
    ∃ prev' t', (parses r prev' t').head? = some f.toParse := by
  induction t generalizing prev f with
  | nil =>
      cases hparses : (parses r prev []).head? with
      | none =>
          rw [find, hparses] at h
          cases h
      | some m =>
          rw [find_of_head hparses] at h
          obtain rfl := Option.some.inj h
          exact ⟨_, _, hparses⟩
  | cons a t ih =>
      cases hparses : (parses r prev (a :: t)).head? with
      | none =>
          rw [find_cons_of_nil (List.head?_eq_none_iff.mp hparses), Option.map_eq_some_iff] at h
          obtain ⟨g, hg, rfl⟩ := h
          exact ih (f := g) hg
      | some m =>
          rw [find_of_head hparses] at h
          obtain rfl := Option.some.inj h
          exact ⟨_, _, hparses⟩

example : (find (.many (· == 1) true) none [1, 1, 2]).map (·.taken) = some [1, 1] := by
  simp [find, parses, runs]

/-! ## Runs to the end -/

/-- The expression leaves nothing of a class behind. -/
def Exhausts (r : Regex α) (p : α → Bool) : Prop :=
  ∀ prev t m, (parses r prev t).head? = some m → ∀ a ∈ m.rest.head?, p a = false

variable {p : α → Bool}

theorem Exhausts.find (h : Exhausts r p) (hf : find r prev t = some f) :
    ∀ a ∈ f.rest.head?, p a = false := by
  obtain ⟨prev', t', hhead⟩ := head_of_find hf
  exact h prev' t' _ hhead

/-- The longest run is followed by something else. -/
theorem getLast_runs (p : α → Bool) (t : List α) :
    ∃ m, (runs p t).getLast? = some m ∧ ∀ a ∈ m.rest.head?, p a = false := by
  induction t with
  | nil => exact ⟨_, rfl, nofun⟩
  | cons a t ih =>
      rw [runs]
      cases ha : p a with
      | false =>
          refine ⟨_, rfl, fun b hb => ?_⟩
          obtain rfl := Option.some.inj hb
          exact ha
      | true =>
          obtain ⟨m, hlast, hrest⟩ := ih
          refine ⟨{ m with taken := a :: m.taken }, ?_, hrest⟩
          rw [if_pos rfl, List.getLast?_cons, List.getLast?_map, hlast]
          rfl

theorem exhausts_many (p : α → Bool) : Exhausts (.many p true) p := by
  intro prev t m hm
  rw [parses, if_pos rfl, List.head?_reverse] at hm
  obtain ⟨m', hlast, hrest⟩ := getLast_runs p t
  obtain rfl := Option.some.inj (hlast.symm.trans hm)
  exact hrest

theorem Exhausts.seq (h : Exhausts s p) : Exhausts (.seq r s) p := by
  intro prev t m hm
  rw [parses, List.head?_flatMap] at hm
  obtain ⟨m', -, hm⟩ := List.exists_of_findSome?_eq_some hm
  rw [List.head?_map, Option.map_eq_some_iff] at hm
  obtain ⟨n, hn, rfl⟩ := hm
  exact h _ _ n hn

theorem Exhausts.group (i : Nat) (h : Exhausts r p) : Exhausts (.group i r) p := by
  intro prev t m hm
  rw [parses, List.head?_map, Option.map_eq_some_iff] at hm
  obtain ⟨n, hn, rfl⟩ := hm
  exact h _ _ n hn

theorem exhausts_plus (p : α → Bool) : Exhausts (.plus p) p := (exhausts_many p).seq

theorem exhausts_seqs (rs : List (Regex α)) (h : Exhausts r p) :
    Exhausts (Regex.seqs (rs ++ [r])) p := by
  induction rs with
  | nil => exact h
  | cons r' rs ih =>
      cases rs with
      | nil => exact ih.seq
      | cons r'' rs => exact ih.seq

/-! ## What is taken -/

/-- An expression can take one text and leave another. -/
def Takes (r : Regex α) (prev : Option α) (t w u : List α) : Prop :=
  ∃ m ∈ parses r prev t, m.taken = w ∧ m.rest = u

variable {w u : List α}

theorem begins_iff : Begins r prev t ↔ ∃ w u, Takes r prev t w u := by
  rw [Begins, List.ne_nil_iff_exists_cons]
  constructor
  · rintro ⟨m, ms, hparses⟩
    exact ⟨m.taken, m.rest, m, by rw [hparses]; exact List.mem_cons_self, rfl, rfl⟩
  · rintro ⟨w, u, m, hm, -⟩
    exact List.exists_cons_of_ne_nil (List.ne_nil_of_mem hm)

theorem takes_empty_iff : Takes .empty prev t w u ↔ w = [] ∧ u = t := by
  simp [Takes, parses, eq_comm]

theorem takes_one_iff : Takes (.one p) prev t w u ↔ ∃ a, p a = true ∧ w = [a] ∧ t = a :: u := by
  cases t with
  | nil => simp [Takes, parses]
  | cons a t =>
      cases ha : p a with
      | false =>
          simp only [Takes, parses, ha, Bool.false_eq_true, if_false, List.not_mem_nil, false_and,
            exists_false, false_iff, not_exists, not_and]
          rintro b hb - heq
          obtain ⟨rfl, -⟩ := List.cons.inj heq
          rw [ha] at hb
          cases hb
      | true =>
          simp only [Takes, parses, ha, if_true, List.mem_singleton, exists_eq_left]
          constructor
          · rintro ⟨rfl, rfl⟩
            exact ⟨a, ha, rfl, rfl⟩
          · rintro ⟨b, -, rfl, heq⟩
            obtain ⟨rfl, rfl⟩ := List.cons.inj heq
            exact ⟨rfl, rfl⟩

theorem takes_look_iff {q : Option α → Option α → Bool} :
    Takes (.look q) prev t w u ↔ q prev t.head? = true ∧ w = [] ∧ u = t := by
  cases hq : q prev t.head? <;> simp [Takes, parses, hq, eq_comm]

theorem takes_seq_iff : Takes (.seq r s) prev t w u ↔
    ∃ w₁ w₂ v, w = w₁ ++ w₂ ∧ Takes r prev t w₁ v ∧ Takes s (w₁.getLast?.or prev) v w₂ u := by
  constructor
  · rintro ⟨m, hm, rfl, rfl⟩
    rw [parses, List.mem_flatMap] at hm
    obtain ⟨m₁, hm₁, hm⟩ := hm
    obtain ⟨m₂, hm₂, rfl⟩ := List.mem_map.mp hm
    exact ⟨_, _, _, rfl, ⟨m₁, hm₁, rfl, rfl⟩, ⟨m₂, hm₂, rfl, rfl⟩⟩
  · rintro ⟨-, -, -, rfl, ⟨m₁, hm₁, rfl, rfl⟩, ⟨m₂, hm₂, rfl, rfl⟩⟩
    refine ⟨⟨m₁.taken ++ m₂.taken, m₂.rest, m₁.groups ++ m₂.groups⟩, ?_, rfl, rfl⟩
    rw [parses, List.mem_flatMap]
    exact ⟨m₁, hm₁, List.mem_map.mpr ⟨m₂, hm₂, rfl⟩⟩

theorem takes_seqs_nil_iff : Takes (Regex.seqs []) prev t w u ↔ w = [] ∧ u = t := takes_empty_iff

theorem takes_seqs_cons_iff {rs : List (Regex α)} : Takes (Regex.seqs (r :: rs)) prev t w u ↔
    ∃ w₁ w₂ v, w = w₁ ++ w₂ ∧ Takes r prev t w₁ v
      ∧ Takes (Regex.seqs rs) (w₁.getLast?.or prev) v w₂ u := by
  cases rs with
  | nil =>
      simp only [Regex.seqs, takes_empty_iff]
      constructor
      · exact fun h => ⟨w, [], u, (List.append_nil w).symm, h, rfl, rfl⟩
      · rintro ⟨w₁, _, _, rfl, h, rfl, rfl⟩
        rw [List.append_nil]
        exact h
  | cons r' rs => exact takes_seq_iff

theorem takes_alt_iff : Takes (.alt r s) prev t w u ↔ Takes r prev t w u ∨ Takes s prev t w u := by
  simp only [Takes, parses, List.mem_append, or_and_right, exists_or]

theorem takes_group_iff {i : Nat} : Takes (.group i r) prev t w u ↔ Takes r prev t w u := by
  simp [Takes, parses]

theorem mem_runs_iff : (∃ m ∈ runs p t, m.taken = w ∧ m.rest = u) ↔
    t = w ++ u ∧ ∀ a ∈ w, p a = true := by
  induction t generalizing w with
  | nil =>
      simp only [runs, List.mem_singleton, exists_eq_left]
      constructor
      · rintro ⟨rfl, rfl⟩
        exact ⟨rfl, nofun⟩
      · rintro ⟨heq, -⟩
        obtain ⟨rfl, rfl⟩ := List.append_eq_nil_iff.mp heq.symm
        exact ⟨rfl, rfl⟩
  | cons a t ih =>
      cases w with
      | nil =>
          constructor
          · rintro ⟨m, hm, hnil, rfl⟩
            rcases List.mem_cons.mp hm with rfl | hm
            · exact ⟨rfl, nofun⟩
            · split at hm
              · obtain ⟨m', -, rfl⟩ := List.mem_map.mp hm
                cases hnil
              · cases hm
          · rintro ⟨rfl, -⟩
            exact ⟨_, List.mem_cons_self, rfl, rfl⟩
      | cons b w =>
          have ih := ih (w := w)
          rw [List.cons_append, List.cons_eq_cons, List.forall_mem_cons]
          constructor
          · rintro ⟨m, hm, hw, hu⟩
            rcases List.mem_cons.mp hm with rfl | hm
            · cases hw
            · split at hm
              · rename_i ha
                obtain ⟨m', hm', rfl⟩ := List.mem_map.mp hm
                obtain ⟨rfl, htaken⟩ := List.cons.inj hw
                obtain ⟨ht, hall⟩ := ih.mp ⟨m', hm', htaken, hu⟩
                exact ⟨⟨rfl, ht⟩, ha, hall⟩
              · cases hm
          · rintro ⟨⟨rfl, ht⟩, ha, hall⟩
            obtain ⟨m, hm, hw, hu⟩ := ih.mpr ⟨ht, hall⟩
            refine ⟨{ m with taken := a :: m.taken }, List.mem_cons_of_mem _ ?_, congrArg _ hw, hu⟩
            rw [if_pos ha]
            exact List.mem_map.mpr ⟨m, hm, rfl⟩

theorem takes_many_iff {greedy : Bool} :
    Takes (.many p greedy) prev t w u ↔ t = w ++ u ∧ ∀ a ∈ w, p a = true := by
  rw [← mem_runs_iff]
  cases greedy with
  | false => exact Iff.rfl
  | true => simp [Takes, parses]

/-- One or more characters, greedy or not. -/
theorem takes_one_many_iff {greedy : Bool} : Takes (.seq (.one p) (.many p greedy)) prev t w u ↔
    w ≠ [] ∧ t = w ++ u ∧ ∀ a ∈ w, p a = true := by
  simp only [takes_seq_iff, takes_one_iff, takes_many_iff]
  constructor
  · rintro ⟨-, w₂, -, rfl, ⟨a, ha, rfl, rfl⟩, rfl, hall⟩
    exact ⟨List.cons_ne_nil a w₂, rfl, List.forall_mem_cons.mpr ⟨ha, hall⟩⟩
  · rintro ⟨hne, rfl, hall⟩
    obtain ⟨a, w, rfl⟩ := List.exists_cons_of_ne_nil hne
    obtain ⟨ha, hall⟩ := List.forall_mem_cons.mp hall
    exact ⟨[a], w, w ++ u, rfl, ⟨a, ha, rfl, rfl⟩, rfl, hall⟩

/-- Where an expression occurs. -/
theorem occurs_iff : Occurs r prev t ↔
    ∃ before t', t = before ++ t' ∧ Begins r (before.getLast?.or prev) t' := by
  induction t generalizing prev with
  | nil =>
      rw [Occurs]
      constructor
      · exact fun h => ⟨[], [], rfl, h⟩
      · rintro ⟨before, t', heq, h⟩
        obtain ⟨rfl, rfl⟩ := List.append_eq_nil_iff.mp heq.symm
        exact h
  | cons a t ih =>
      rw [Occurs, ih]
      constructor
      · rintro (h | ⟨before, t', rfl, h⟩)
        · exact ⟨[], a :: t, rfl, h⟩
        · refine ⟨a :: before, t', rfl, ?_⟩
          rw [List.getLast?_cons]
          cases hlast : before.getLast? <;> rw [hlast] at h <;> exact h
      · rintro ⟨before, t', heq, h⟩
        cases before with
        | nil =>
            obtain rfl := heq
            exact .inl h
        | cons b before =>
            obtain ⟨rfl, rfl⟩ := List.cons.inj heq
            refine .inr ⟨before, t', rfl, ?_⟩
            rw [List.getLast?_cons] at h
            cases hlast : before.getLast? <;> rw [hlast] at h <;> exact h

end Find

end AuraGateway.Foundations.LeftmostRegex
