import Mathlib

/-!
# Transactions that insert rows with unique keys

A store of committed rows and one session for each connection. A session buffers the
rows its transaction inserts until it commits. An insert waits while another session
holds its key uncommitted, and does not take place where the key is already visible.
A statement may fail, and a connection may be lost with its transaction, before or
after the statement on its way took effect.

Keys stay unique over everything committed and buffered (`Unique.exec`), and committed
rows only ever come from whole buffers (`Exec.committed_cases`).
-/

set_option autoImplicit false

namespace AuraGateway.Foundations.UniqueInserts

universe u v w

/-! ## Sessions and statements -/

/-- Where a session stands: outside a transaction, in one that has inserted some rows,
in one that a failed statement has aborted, or cut off from its client. The server ends
the transaction of a lost session when it notices. -/
inductive Session (ρ : Type u) where
  | idle
  | opened (rows : List ρ)
  | aborted
  | lost (rows : List ρ)

/-- The rows a session holds uncommitted. -/
def Session.pending {ρ : Type u} : Session ρ → List ρ
  | .idle => []
  | .opened rows => rows
  | .aborted => []
  | .lost rows => rows

/-- Statements of a transaction. `insertOrSkip` is an insert that does nothing on a
conflict of keys. -/
inductive Statement (ρ : Type u) where
  | begin
  | insert (row : ρ)
  | insertOrSkip (row : ρ)
  | commit
  | rollback

/-- What a statement did. -/
inductive Effect where
  | done
  | skipped
  | refused
  deriving DecidableEq

/-- A session after a statement that failed. A failed commit ends the transaction. -/
def Session.refuse {ρ : Type u} : Session ρ → Statement ρ → Session ρ
  | .idle, _ => .idle
  | .opened _, .commit => .idle
  | .opened _, _ => .aborted
  | .aborted, _ => .aborted
  | .lost rows, _ => .lost rows

/-- Committed rows, and a session for each connection. -/
structure Store (ι : Type v) (ρ : Type u) where
  committed : List ρ
  session : ι → Session ρ

variable {ι : Type v} {ρ : Type u} {κ : Type w} [DecidableEq ι]

namespace Store

def setSession (s : Store ι ρ) (i : ι) (x : Session ρ) : Store ι ρ :=
  { s with session := Function.update s.session i x }

/-- The rows a session sees, its own included. -/
def visible (s : Store ι ρ) (i : ι) : List ρ := s.committed ++ (s.session i).pending

/-- No other session holds the key uncommitted. -/
def Unlocked (key : ρ → κ) (s : Store ι ρ) (i : ι) (k : κ) : Prop :=
  ∀ j, j ≠ i → k ∉ (s.session j).pending.map key

/-- The connection is lost. -/
def lose (s : Store ι ρ) (i : ι) : Store ι ρ :=
  s.setSession i (.lost (s.session i).pending)

/-- The server ends the transaction of a lost connection. -/
def reap (s : Store ι ρ) (i : ι) : Store ι ρ := s.setSession i (.lost [])

/-- The session's buffer becomes visible to all. -/
def commitSession (s : Store ι ρ) (i : ι) : Store ι ρ :=
  { s.setSession i .idle with committed := s.committed ++ (s.session i).pending }

section

variable (s : Store ι ρ) (i j : ι) (x : Session ρ)

@[simp] theorem committed_setSession : (s.setSession i x).committed = s.committed := rfl

@[simp] theorem session_setSession_self : (s.setSession i x).session i = x := by
  simp [setSession]

@[simp] theorem session_setSession_of_ne (h : j ≠ i) :
    (s.setSession i x).session j = s.session j := by
  simp [setSession, h]

@[simp] theorem committed_commitSession :
    (s.commitSession i).committed = s.committed ++ (s.session i).pending := rfl

@[simp] theorem session_commitSession_self : (s.commitSession i).session i = .idle :=
  s.session_setSession_self i .idle

@[simp] theorem session_commitSession_of_ne (h : j ≠ i) :
    (s.commitSession i).session j = s.session j :=
  s.session_setSession_of_ne i j .idle h

end

end Store

/-- Executing a statement in a session. An insert is not executed while another session
holds its key. A rollback fails only with its connection. -/
inductive Exec (key : ρ → κ) (s : Store ι ρ) (i : ι) : Statement ρ → Effect → Store ι ρ → Prop where
  | begin (h : s.session i = .idle) : Exec key s i .begin .done (s.setSession i (.opened []))
  | insert {rows : List ρ} {row : ρ} (h : s.session i = .opened rows)
      (hwait : s.Unlocked key i (key row)) (hnew : key row ∉ (s.visible i).map key) :
      Exec key s i (.insert row) .done (s.setSession i (.opened (rows ++ [row])))
  | insertOrSkip {rows : List ρ} {row : ρ} (h : s.session i = .opened rows)
      (hwait : s.Unlocked key i (key row)) (hnew : key row ∉ (s.visible i).map key) :
      Exec key s i (.insertOrSkip row) .done (s.setSession i (.opened (rows ++ [row])))
  | skip {rows : List ρ} {row : ρ} (h : s.session i = .opened rows)
      (hwait : s.Unlocked key i (key row)) (hdup : key row ∈ (s.visible i).map key) :
      Exec key s i (.insertOrSkip row) .skipped s
  | commit {rows : List ρ} (h : s.session i = .opened rows) :
      Exec key s i .commit .done (s.commitSession i)
  | commitAborted (h : s.session i = .aborted) :
      Exec key s i .commit .done (s.setSession i .idle)
  | rollback (h : ∀ rows, s.session i ≠ .lost rows) :
      Exec key s i .rollback .done (s.setSession i .idle)
  | refuse {st : Statement ρ} (h : st = .rollback → ∃ rows, s.session i = .lost rows) :
      Exec key s i st .refused (s.setSession i ((s.session i).refuse st))

variable {key : ρ → κ} {s s' : Store ι ρ} {i j : ι} {st : Statement ρ} {e : Effect}

/-- A statement leaves the other sessions. -/
theorem Exec.other (h : Exec key s i st e s') (hne : j ≠ i) : s'.session j = s.session j := by
  cases h <;> simp [hne]

/-- Rows are committed by a commit alone, and then the whole buffer is. -/
theorem Exec.committed_cases (h : Exec key s i st e s') :
    s'.committed = s.committed ∨
      st = .commit ∧ e = .done ∧
        ∃ rows, s.session i = .opened rows ∧ s'.committed = s.committed ++ rows := by
  cases h with
  | commit hopen =>
      refine Or.inr ⟨rfl, rfl, _, hopen, ?_⟩
      rw [Store.committed_commitSession, hopen]
      rfl
  | skip => exact Or.inl rfl
  | _ => exact Or.inl (Store.committed_setSession _ _ _)

theorem pending_refuse (x : Session ρ) (st : Statement ρ) :
    (x.refuse st).pending <+: x.pending := by
  cases x with
  | idle => exact List.prefix_rfl
  | aborted => exact List.prefix_rfl
  | lost rows => exact List.prefix_rfl
  | opened rows => cases st <;> exact List.nil_prefix

/-! ## Keys stay unique -/

/-- No key occurs twice among the committed rows and the buffers. -/
structure Unique (key : ρ → κ) (s : Store ι ρ) : Prop where
  committed : (s.committed.map key).Nodup
  visible : ∀ i, ((s.visible i).map key).Nodup
  disjoint : ∀ i j, i ≠ j →
    List.Disjoint ((s.session i).pending.map key) ((s.session j).pending.map key)

namespace Unique

omit [DecidableEq ι] in
/-- Nothing is buffered at the start, so the committed rows alone decide. -/
theorem of_idle (hidle : ∀ i, s.session i = .idle) (h : (s.committed.map key).Nodup) :
    Unique key s where
  committed := h
  visible i := by
    rw [Store.visible, hidle i]
    simpa [Session.pending] using h
  disjoint i j _ := by
    rw [hidle i]
    exact List.disjoint_nil_left _

omit [DecidableEq ι] in
/-- Committed rows with one key are equal. -/
theorem eq_of_key_eq (h : Unique key s) {a b : ρ} (ha : a ∈ s.committed) (hb : b ∈ s.committed)
    (hkey : key a = key b) : a = b :=
  List.inj_on_of_nodup_map h.committed ha hb hkey

/-- A session may drop part of its buffer. -/
theorem setSession (h : Unique key s) {x : Session ρ} (hsub : x.pending <+: (s.session i).pending) :
    Unique key (s.setSession i x) where
  committed := h.committed
  visible j := by
    by_cases hj : j = i
    · subst hj
      have hsublist : List.Sublist ((s.setSession j x).visible j) (s.visible j) := by
        simp only [Store.visible, Store.committed_setSession, Store.session_setSession_self]
        exact (List.Sublist.refl _).append hsub.sublist
      exact (h.visible j).sublist (hsublist.map key)
    · have hsame : (s.setSession i x).visible j = s.visible j := by
        simp [Store.visible, hj]
      rw [hsame]
      exact h.visible j
  disjoint j k hne := by
    have hkeys : ∀ l, ((s.setSession i x).session l).pending.map key ⊆ (s.session l).pending.map key := by
      intro l
      by_cases hl : l = i
      · subst hl
        rw [Store.session_setSession_self]
        exact List.map_subset key hsub.subset
      · rw [Store.session_setSession_of_ne _ _ _ _ hl]
        exact List.Subset.refl _
    exact List.disjoint_of_subset_left (hkeys j)
      (List.disjoint_of_subset_right (hkeys k) (h.disjoint j k hne))

/-- A session may buffer a row whose key no one else holds. -/
theorem push (h : Unique key s) {rows : List ρ} {row : ρ} (hopen : s.session i = .opened rows)
    (hwait : s.Unlocked key i (key row)) (hnew : key row ∉ (s.visible i).map key) :
    Unique key (s.setSession i (.opened (rows ++ [row]))) where
  committed := h.committed
  visible j := by
    by_cases hj : j = i
    · subst hj
      have hsplit : (s.setSession j (.opened (rows ++ [row]))).visible j = s.visible j ++ [row] := by
        simp [Store.visible, hopen, Session.pending]
      rw [hsplit, List.map_append]
      refine List.Nodup.append (h.visible j) (List.nodup_singleton _) ?_
      intro k hk hrow
      rw [List.mem_singleton.mp hrow] at hk
      exact hnew hk
    · have hsame : (s.setSession i (.opened (rows ++ [row]))).visible j = s.visible j := by
        simp [Store.visible, hj]
      rw [hsame]
      exact h.visible j
  disjoint j k hne := by
    -- at most one of the two sessions is the one that inserted
    have hpush : ∀ l, l ≠ i →
        List.Disjoint ((rows ++ [row]).map key) ((s.session l).pending.map key) := by
      intro l hl x hx hx'
      rw [List.map_append] at hx
      rcases List.mem_append.mp hx with hold | hrow
      · have hdisjoint := h.disjoint i l (Ne.symm hl)
        rw [hopen] at hdisjoint
        exact hdisjoint hold hx'
      · rw [List.mem_singleton.mp hrow] at hx'
        exact hwait l hl hx'
    by_cases hj : j = i
    · subst hj
      rw [Store.session_setSession_self, Store.session_setSession_of_ne _ _ _ _ (Ne.symm hne)]
      exact hpush k (Ne.symm hne)
    · by_cases hk : k = i
      · subst hk
        rw [Store.session_setSession_self, Store.session_setSession_of_ne _ _ _ _ hj]
        exact (hpush j hj).symm
      · rw [Store.session_setSession_of_ne _ _ _ _ hj, Store.session_setSession_of_ne _ _ _ _ hk]
        exact h.disjoint j k hne

/-- A buffer may become visible. -/
theorem commitSession (h : Unique key s) : Unique key (s.commitSession i) where
  committed := h.visible i
  visible j := by
    by_cases hj : j = i
    · subst hj
      have hsame : (s.commitSession j).visible j = s.visible j := by
        simp [Store.visible, Session.pending]
      rw [hsame]
      exact h.visible j
    · have hsplit : (s.commitSession i).visible j = s.visible i ++ (s.session j).pending := by
        simp [Store.visible, hj]
      rw [hsplit, List.map_append]
      have hj' := h.visible j
      rw [Store.visible, List.map_append] at hj'
      refine List.Nodup.append (h.visible i) hj'.of_append_right ?_
      intro k hk hk'
      rw [Store.visible, List.map_append] at hk
      rcases List.mem_append.mp hk with hold | hown
      · exact List.disjoint_of_nodup_append hj' hold hk'
      · exact h.disjoint i j (Ne.symm hj) hown hk'
  disjoint j k hne := by
    have hkeys : ∀ l, ((s.commitSession i).session l).pending ⊆ (s.session l).pending := by
      intro l
      by_cases hl : l = i
      · subst hl
        rw [Store.session_commitSession_self]
        exact List.nil_subset _
      · rw [Store.session_commitSession_of_ne _ _ _ hl]
        exact List.Subset.refl _
    exact List.disjoint_of_subset_left (List.map_subset key (hkeys j))
      (List.disjoint_of_subset_right (List.map_subset key (hkeys k)) (h.disjoint j k hne))

theorem lose (h : Unique key s) : Unique key (s.lose i) := h.setSession List.prefix_rfl

theorem reap (h : Unique key s) : Unique key (s.reap i) := h.setSession List.nil_prefix

/-- Every statement keeps the keys unique. -/
theorem exec (h : Unique key s) (hexec : Exec key s i st e s') : Unique key s' := by
  cases hexec with
  | begin _ => exact h.setSession List.nil_prefix
  | insert hopen hwait hnew => exact h.push hopen hwait hnew
  | insertOrSkip hopen hwait hnew => exact h.push hopen hwait hnew
  | skip => exact h
  | commit _ => exact h.commitSession
  | commitAborted _ => exact h.setSession List.nil_prefix
  | rollback _ => exact h.setSession List.nil_prefix
  | refuse _ => exact h.setSession (pending_refuse _ _)

end Unique

end AuraGateway.Foundations.UniqueInserts
