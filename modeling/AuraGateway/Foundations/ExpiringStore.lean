import Mathlib.Data.List.Induction

/-!
# A store that forgets

Values are written under a key for a time; a key may also be deleted. What a key has at a time is
the value of its last write, if nothing deleted it since and its time is not over. Where the writes
are recorded in a log among other things, `exists_write` finds the entry of a value that is read.
-/

set_option autoImplicit false

namespace AuraGateway.Foundations.ExpiringStore

universe u v w

/-- A value and the time from which it is gone. -/
structure Entry (κ : Type u) (β : Type v) where
  key : κ
  value : β
  expires : Nat

/-- What is done to a store. -/
inductive Op (κ : Type u) (β : Type v) where
  | write (key : κ) (value : β) (expires : Nat)
  | delete (key : κ)

variable {κ : Type u} {β : Type v} [DecidableEq κ]

def Op.key : Op κ β → κ
  | .write k _ _ => k
  | .delete k => k

/-- The entries that live. -/
def alive (now : Nat) (s : List (Entry κ β)) : List (Entry κ β) :=
  s.filter fun e => now < e.expires

/-- What a key has. -/
def get (now : Nat) (k : κ) (s : List (Entry κ β)) : Option β :=
  ((alive now s).find? fun e => e.key = k).map Entry.value

def apply (s : List (Entry κ β)) : Op κ β → List (Entry κ β)
  | .write k v expires => ⟨k, v, expires⟩ :: s.filter fun e => e.key ≠ k
  | .delete k => s.filter fun e => e.key ≠ k

def run (ops : List (Op κ β)) : List (Entry κ β) := ops.foldl apply []

theorem run_concat (ops : List (Op κ β)) (op : Op κ β) : run (ops ++ [op]) = apply (run ops) op :=
  List.foldl_append

theorem get_cons (now : Nat) (k : κ) (e : Entry κ β) (s : List (Entry κ β)) :
    get now k (e :: s) = if e.key = k ∧ now < e.expires then some e.value else get now k s := by
  by_cases hlive : now < e.expires
  · by_cases hkey : e.key = k <;> simp [get, alive, hlive, hkey]
  · simp [get, alive, hlive]

/-- Other keys keep what they have. -/
theorem get_filter (now : Nat) {k k' : κ} (h : k ≠ k') (s : List (Entry κ β)) :
    get now k (s.filter fun e => e.key ≠ k') = get now k s := by
  induction s with
  | nil => rfl
  | cons e s ih =>
      by_cases hkey : e.key = k'
      · have hne : ¬ (e.key = k ∧ now < e.expires) := fun he => h (he.1.symm.trans hkey)
        rw [List.filter_cons_of_neg (by simpa using hkey), ih, get_cons, if_neg hne]
      · rw [List.filter_cons_of_pos (by simpa using hkey), get_cons, get_cons, ih]

theorem get_filter_self (now : Nat) (k : κ) (s : List (Entry κ β)) :
    get now k (s.filter fun e => e.key ≠ k) = none := by
  simp [get, alive]

/-- What a key has after a command that is about it. -/
def Op.found (now : Nat) : Op κ β → Option β
  | .write _ v expires => if now < expires then some v else none
  | .delete _ => none

theorem get_apply (now : Nat) (k : κ) (s : List (Entry κ β)) (op : Op κ β) :
    get now k (apply s op) = if op.key = k then op.found now else get now k s := by
  by_cases h : op.key = k
  · rw [if_pos h]
    subst h
    cases op with
    | write k v expires =>
        rw [apply, get_cons, Op.key, get_filter_self]
        by_cases hlive : now < expires <;> simp [Op.found, hlive]
    | delete k => exact get_filter_self now k s
  · rw [if_neg h]
    cases op with
    | write k' v expires =>
        rw [apply, get_cons, if_neg fun he => h he.1]
        exact get_filter now (Ne.symm h) s
    | delete k' => exact get_filter now (Ne.symm h) s

/-- What is read was written, has not expired, and is not touched since. -/
theorem exists_write {α : Type w} {f : α → Option (Op κ β)} {now : Nat} {k : κ} {v : β}
    {log : List α} (h : get now k (run (log.filterMap f)) = some v) :
    ∃ before a after expires, log = before ++ a :: after ∧ f a = some (.write k v expires)
      ∧ now < expires ∧ ∀ b ∈ after, ∀ op ∈ f b, op.key ≠ k := by
  induction log using List.reverseRecOn with
  | nil => cases h
  | append_singleton log a ih =>
      have hops : (log ++ [a]).filterMap f = log.filterMap f ++ (f a).toList := by
        rw [List.filterMap_append]
        cases hfa : f a <;> simp [hfa]
      rw [hops] at h
      -- the last entry is the write, or does not matter
      have hearlier : (∀ op ∈ f a, op.key ≠ k) → get now k (run (log.filterMap f)) = some v →
          ∃ before a' after expires, log ++ [a] = before ++ a' :: after
            ∧ f a' = some (.write k v expires) ∧ now < expires
            ∧ ∀ b ∈ after, ∀ op ∈ f b, op.key ≠ k := by
        intro hother hget
        obtain ⟨before, a', after, expires, rfl, hwrite, hlive, hafter⟩ := ih hget
        refine ⟨before, a', after ++ [a], expires, by simp, hwrite, hlive, fun b hb => ?_⟩
        obtain hb | hb := List.mem_append.mp hb
        · exact hafter b hb
        · rw [List.mem_singleton.mp hb]
          exact hother
      cases hfa : f a with
      | none =>
          rw [hfa, Option.toList_none, List.append_nil] at h
          exact hearlier (fun op hop => by rw [hfa] at hop; cases hop) h
      | some op =>
          rw [hfa, Option.toList_some, run_concat, get_apply] at h
          by_cases hkey : op.key = k
          · rw [if_pos hkey] at h
            cases op with
            | write k' v' expires =>
                obtain rfl : k' = k := hkey
                rw [Op.found] at h
                split at h
                · next hlive =>
                    cases h
                    exact ⟨log, a, [], expires, rfl, hfa, hlive, fun b hb => by cases hb⟩
                · cases h
            | delete k' => cases h
          · rw [if_neg hkey] at h
            refine hearlier (fun op' hop' => ?_) h
            rw [hfa] at hop'
            obtain rfl := Option.some.inj hop'
            exact hkey

end AuraGateway.Foundations.ExpiringStore
