import Mathlib

/-!
# Fixed windows

A counter admits calls up to a limit and lives for a while after the call that opened it; the
first call after that opens the next one. Splitting the instants of the calls into the windows
that open one after the other (`windows`), a counter admits the first calls of every window,
up to the limit (`admitted_eq`).

Two bounds on what is admitted are read off the windows alone: at most the limit in all
(`sum_take_le_iff`), and at most the limit in any interval as long as a window
(`admitted_interval_iff`). The second fails exactly when a burst straddles two windows that
follow each other.
-/

set_option autoImplicit false

namespace AuraGateway.Foundations.FixedWindow

/-- A counter: how many calls it has counted, and when it ends. -/
structure Cell where
  count : Nat
  ends : Nat
  deriving DecidableEq, Repr

/-- The count of a counter that has not ended. -/
def live (now : Nat) : Option Cell → Nat
  | some c => if now < c.ends then c.count else 0
  | none => 0

/-- Admit a call unless the limit is reached; the first one counted opens a new counter. -/
def admitCall (limit life now : Nat) (cell : Option Cell) : Bool × Option Cell :=
  if limit ≤ live now cell then (false, cell)
  else if live now cell = 0 then (true, some ⟨1, now + life⟩)
  else (true, cell.map fun c => { c with count := c.count + 1 })

/-- The calls admitted one after the other; a counter opened at `t` lives for `life t`. -/
def admitted (limit : Nat) (life : Nat → Nat) : Option Cell → List Nat → List Nat
  | _, [] => []
  | cell, t :: ts =>
      let (allowed, cell') := admitCall limit (life t) t cell
      if allowed then t :: admitted limit life cell' ts else admitted limit life cell' ts

/-- The windows of the calls after the ones in `opened`, whose window ends at `ends`. -/
def windowsFrom (life : Nat → Nat) (ends : Nat) (opened : List Nat) : List Nat → List (List Nat)
  | [] => [opened]
  | t :: ts =>
      if t < ends then windowsFrom life ends (opened ++ [t]) ts
      else opened :: windowsFrom life (t + life t) [t] ts

/-- The windows of a list of calls: the first call opens one, and so does every call that
comes when the last one has ended. -/
def windows (life : Nat → Nat) : List Nat → List (List Nat)
  | [] => []
  | t :: ts => windowsFrom life (t + life t) [t] ts

section Admission

variable {limit : Nat} {life : Nat → Nat}

theorem admit_of_zero (life now : Nat) (cell : Option Cell) :
    admitCall 0 life now cell = (false, cell) := by
  rw [admitCall, if_pos (Nat.zero_le _)]

theorem admitted_of_zero (cell : Option Cell) (ts : List Nat) : admitted 0 life cell ts = [] := by
  induction ts with
  | nil => rfl
  | cons t ts ih => simp only [admitted, admit_of_zero, Bool.false_eq_true, if_false, ih]

theorem admitted_sublist (ts : List Nat) (cell : Option Cell) :
    (admitted limit life cell ts).Sublist ts := by
  induction ts generalizing cell with
  | nil => exact List.Sublist.slnil
  | cons t ts ih =>
      simp only [admitted]
      split
      · exact (ih _).cons_cons t
      · exact (ih _).cons t

/-- A counter that has counted the calls in `opened`, as far as it admitted them, goes on with
the calls of its window and then with those of the next ones. -/
theorem take_append_admitted (life : Nat → Nat) (hlimit : 0 < limit) (ts : List Nat) (ends : Nat)
    (opened : List Nat) (hopened : opened ≠ []) :
    opened.take limit ++ admitted limit life (some ⟨min limit opened.length, ends⟩) ts
      = (windowsFrom life ends opened ts).flatMap (List.take limit) := by
  induction ts generalizing ends opened with
  | nil => simp [admitted, windowsFrom]
  | cons t ts ih =>
      have hlength : 0 < opened.length := List.length_pos_of_ne_nil hopened
      simp only [windowsFrom]
      by_cases hends : t < ends
      · rw [if_pos hends, ← ih ends (opened ++ [t]) (by simp)]
        -- the call falls in the window: it is admitted while there is room
        by_cases hfull : limit ≤ opened.length
        · have hmin : min limit opened.length = limit := Nat.min_eq_left hfull
          have hmin' : min limit (opened ++ [t]).length = limit := by
            rw [List.length_append]
            omega
          rw [hmin, hmin', List.take_append_of_le_length hfull]
          simp only [admitted, admitCall, live, if_pos hends, le_refl, if_true, Bool.false_eq_true,
            if_false]
        · have hmin : min limit opened.length = opened.length := by omega
          have hmin' : min limit (opened ++ [t]).length = opened.length + 1 := by
            rw [List.length_append, List.length_singleton]
            omega
          have htake : (opened ++ [t]).take limit = opened ++ [t] := by
            apply List.take_of_length_le
            rw [List.length_append, List.length_singleton]
            omega
          rw [hmin, hmin', htake, List.take_of_length_le (by omega)]
          have hnotzero : opened.length ≠ 0 := by omega
          simp only [admitted, admitCall, live, if_pos hends, if_neg hfull, if_neg hnotzero,
            Option.map_some, if_true, List.append_assoc, List.singleton_append]
      · rw [if_neg hends, List.flatMap_cons, ← ih (t + life t) [t] (by simp)]
        -- the window has ended: the call opens the next one
        have hone : min limit [t].length = 1 := by
          rw [List.length_singleton]
          omega
        have htake : [t].take limit = [t] := by
          apply List.take_of_length_le
          exact hlimit
        have hnot : ¬ limit ≤ 0 := by omega
        rw [hone, htake]
        simp only [admitted, admitCall, live, if_neg hends, if_neg hnot, if_true,
          List.singleton_append]

/-- A counter admits the first calls of every window, up to the limit. -/
theorem admitted_eq (limit : Nat) (life : Nat → Nat) (ts : List Nat) :
    admitted limit life none ts = (windows life ts).flatMap (List.take limit) := by
  rcases Nat.eq_zero_or_pos limit with rfl | hlimit
  · rw [admitted_of_zero]
    simp
  · cases ts with
    | nil => rfl
    | cons t ts =>
        have hnot : ¬ limit ≤ 0 := by omega
        have hone : min limit [t].length = 1 := by
          rw [List.length_singleton]
          omega
        have hstep := take_append_admitted life hlimit ts (t + life t) [t] (by simp)
        rw [hone, List.take_of_length_le hlimit] at hstep
        simp only [admitted, admitCall, live, if_neg hnot, if_true, windows, ← hstep,
          List.singleton_append]

end Admission

/-! ## The calls of the windows -/

section Windows

variable {life : Nat → Nat}

theorem flatten_windowsFrom (life : Nat → Nat) (ts : List Nat) (ends : Nat) (opened : List Nat) :
    (windowsFrom life ends opened ts).flatten = opened ++ ts := by
  induction ts generalizing ends opened with
  | nil => simp [windowsFrom]
  | cons t ts ih =>
      simp only [windowsFrom]
      split
      · rw [ih, List.append_assoc, List.singleton_append]
      · rw [List.flatten_cons, ih, List.singleton_append]

/-- The windows hold the calls, in order. -/
theorem flatten_windows (ts : List Nat) : (windows life ts).flatten = ts := by
  cases ts with
  | nil => rfl
  | cons t ts => rw [windows, flatten_windowsFrom, List.singleton_append]

theorem ne_nil_of_mem_windowsFrom (ts : List Nat) (ends : Nat) (opened : List Nat)
    (hopened : opened ≠ []) : ∀ w ∈ windowsFrom life ends opened ts, w ≠ [] := by
  induction ts generalizing ends opened with
  | nil =>
      intro w hw
      obtain rfl := List.mem_singleton.mp hw
      exact hopened
  | cons t ts ih =>
      simp only [windowsFrom]
      split
      · exact ih ends (opened ++ [t]) (by simp)
      · intro w hw
        rcases List.mem_cons.mp hw with rfl | hw
        · exact hopened
        · exact ih (t + life t) [t] (by simp) w hw

theorem ne_nil_of_mem_windows (ts : List Nat) : ∀ w ∈ windows life ts, w ≠ [] := by
  cases ts with
  | nil => exact nofun
  | cons t ts => exact ne_nil_of_mem_windowsFrom ts _ [t] (by simp)

theorem length_windowsFrom_le_one (ts : List Nat) (ends : Nat) (opened : List Nat) :
    (windowsFrom life ends opened ts).length ≤ 1 ↔ ∀ u ∈ ts, u < ends := by
  induction ts generalizing ends opened with
  | nil => simp [windowsFrom]
  | cons t ts ih =>
      simp only [windowsFrom]
      by_cases hends : t < ends
      · rw [if_pos hends, ih]
        simp [hends]
      · rw [if_neg hends]
        have hpos : 0 < (windowsFrom life (t + life t) [t] ts).length := by
          cases ts with
          | nil => simp [windowsFrom]
          | cons u us =>
              apply List.length_pos_of_ne_nil
              intro hnil
              have hflatten := flatten_windowsFrom life (u :: us) (t + life t) [t]
              rw [hnil] at hflatten
              exact nomatch hflatten
        constructor
        · intro hle
          rw [List.length_cons] at hle
          omega
        · intro hall
          exact absurd (hall t (List.mem_cons_self ..)) hends

/-- The calls are in one window exactly when none comes after the first one's has ended. -/
theorem length_windows_le_one (t : Nat) (ts : List Nat) :
    (windows life (t :: ts)).length ≤ 1 ↔ ∀ u ∈ ts, u < t + life t :=
  length_windowsFrom_le_one ts _ [t]

end Windows

/-! ## At most the limit in all -/

theorem length_flatMap_take_le (limit : Nat) (ws : List (List Nat)) :
    (ws.flatMap (List.take limit)).length ≤ ws.flatten.length := by
  induction ws with
  | nil => simp
  | cons w ws ih =>
      rw [List.flatMap_cons, List.flatten_cons, List.length_append, List.length_append]
      exact Nat.add_le_add (List.length_take_le' limit w) ih

theorem eq_nil_of_flatMap_take_eq_nil {limit : Nat} (hlimit : limit ≠ 0) {ws : List (List Nat)}
    (hws : ∀ w ∈ ws, w ≠ []) (h : ws.flatMap (List.take limit) = []) : ws = [] := by
  cases ws with
  | nil => rfl
  | cons w ws =>
      rw [List.flatMap_cons, List.append_eq_nil_iff, List.take_eq_nil_iff] at h
      rcases h.1 with hzero | hnil
      · exact absurd hzero hlimit
      · exact absurd hnil (hws w (List.mem_cons_self ..))

/-- What is admitted of all windows is at most the limit exactly when there are no two windows,
or no more calls than the limit. -/
theorem sum_take_le_iff (limit : Nat) (ws : List (List Nat)) (hws : ∀ w ∈ ws, w ≠ []) :
    (ws.flatMap (List.take limit)).length ≤ limit
      ↔ limit = 0 ∨ ws.flatten.length ≤ limit ∨ ws.length ≤ 1 := by
  constructor
  · intro hle
    by_cases hlimit : limit = 0
    · exact .inl hlimit
    refine .inr ?_
    by_cases hshort : ∀ w ∈ ws, w.length ≤ limit
    · -- no window is cut off
      have hall : ws.flatMap (List.take limit) = ws.flatMap id :=
        List.flatMap_congr fun w hw => List.take_of_length_le (hshort w hw)
      rw [hall, List.flatMap_id] at hle
      exact .inl hle
    · -- a window that is cut off leaves no room for another one
      push Not at hshort
      obtain ⟨w, hw, hlong⟩ := hshort
      obtain ⟨pre, post, rfl⟩ := List.append_of_mem hw
      rw [List.flatMap_append, List.flatMap_cons, List.length_append, List.length_append,
        List.length_take_of_le hlong.le] at hle
      have hpre : pre = [] := by
        apply eq_nil_of_flatMap_take_eq_nil hlimit
        · intro v hv
          exact hws v (by simp [hv])
        · exact List.length_eq_zero_iff.mp (by omega)
      have hpost : post = [] := by
        apply eq_nil_of_flatMap_take_eq_nil hlimit
        · intro v hv
          exact hws v (by simp [hv])
        · exact List.length_eq_zero_iff.mp (by omega)
      rw [hpre, hpost]
      exact .inr le_rfl
  · rintro (rfl | htotal | hone)
    · simp
    · exact (length_flatMap_take_le limit ws).trans htotal
    · rcases ws with _ | ⟨w, _ | ⟨v, ws⟩⟩
      · simp
      · simp
      · rw [List.length_cons, List.length_cons] at hone
        omega

/-! ## At most the limit in an interval -/

/-- Every element comes `width` or more after the one `limit` places before it. -/
def Spread (width limit : Nat) (ts : List Nat) : Prop :=
  ∀ i x y, ts[i]? = some x → ts[i + limit]? = some y → x + width ≤ y

/-- The elements in the interval of length `width` that begins at `a`. -/
def inInterval (width a : Nat) (ts : List Nat) : List Nat :=
  ts.filter fun t => decide (a ≤ t ∧ t < a + width)

section Interval

variable {width limit : Nat}

theorem Spread.of_cons {t : Nat} {ts : List Nat} (h : Spread width limit (t :: ts)) :
    Spread width limit ts := by
  intro i x y hx hy
  apply h (i + 1) x y
  · rw [List.getElem?_cons_succ]
    exact hx
  · rw [Nat.add_right_comm, List.getElem?_cons_succ]
    exact hy

theorem length_inInterval_le (a : Nat) {ts : List Nat} (hts : ts.Pairwise (· ≤ ·))
    (h : Spread width limit ts) : (inInterval width a ts).length ≤ limit := by
  induction ts with
  | nil => simp [inInterval]
  | cons t ts ih =>
      by_cases ht : a ≤ t ∧ t < a + width
      · -- what comes `limit` places after `t` is out of the interval, and so is all after it
        have hout : ((t :: ts).drop limit).filter
            (fun t => decide (a ≤ t ∧ t < a + width)) = [] := by
          rw [List.filter_eq_nil_iff]
          intro u hu hin
          have hin' : a ≤ u ∧ u < a + width := of_decide_eq_true hin
          cases hdrop : (t :: ts).drop limit with
          | nil =>
              rw [hdrop] at hu
              exact nomatch hu
          | cons v vs =>
              have hv : (t :: ts)[0 + limit]? = some v := by
                rw [Nat.zero_add, ← List.head?_drop, hdrop, List.head?_cons]
              have hspread := h 0 t v (by simp) hv
              have hsorted : (v :: vs).Pairwise (· ≤ ·) := by
                rw [← hdrop]
                exact hts.sublist (List.drop_sublist _ _)
              rw [hdrop] at hu
              rcases List.mem_cons.mp hu with rfl | hu
              · omega
              · have hvu := List.rel_of_pairwise_cons hsorted hu
                omega
        rw [inInterval, ← List.take_append_drop limit (t :: ts), List.filter_append, hout,
          List.append_nil]
        exact (List.length_filter_le _ _).trans (List.length_take_le _ _)
      · rw [inInterval, List.filter_cons, if_neg (by simpa using ht)]
        exact ih hts.of_cons h.of_cons

theorem spread_of_inInterval {ts : List Nat} (hts : ts.Pairwise (· ≤ ·))
    (h : ∀ a, (inInterval width a ts).length ≤ limit) : Spread width limit ts := by
  intro i x y hx hy
  by_contra hclose
  -- the elements from `i` on, `limit + 1` of them, are in the interval that begins at `x`
  have hbetween : ∀ u ∈ (ts.drop i).take (limit + 1), x ≤ u ∧ u < x + width := by
    intro u hu
    obtain ⟨j, hj, rfl⟩ := List.mem_take_iff_getElem.mp hu
    have hlt : i + limit < ts.length := (List.getElem?_eq_some_iff.mp hy).1
    have hj' : j ≤ limit := by omega
    have hmono : ∀ m n (hm : m < ts.length) (hn : n < ts.length), m ≤ n → ts[m] ≤ ts[n] := by
      intro m n hm hn hmn
      rcases Nat.lt_or_eq_of_le hmn with hlt | rfl
      · exact List.pairwise_iff_getElem.mp hts m n hm hn hlt
      · exact le_rfl
    rw [List.getElem_drop]
    have hxi := (List.getElem?_eq_some_iff.mp hx).2
    have hyi := (List.getElem?_eq_some_iff.mp hy).2
    have hlow := hmono i (i + j) (by omega) (by omega) (by omega)
    have hhigh := hmono (i + j) (i + limit) (by omega) (by omega) (by omega)
    omega
  have hlength : ((ts.drop i).take (limit + 1)).length = limit + 1 := by
    have hlt : i + limit < ts.length := (List.getElem?_eq_some_iff.mp hy).1
    rw [List.length_take, List.length_drop]
    omega
  have hfilter : inInterval width x ((ts.drop i).take (limit + 1))
      = (ts.drop i).take (limit + 1) := by
    apply List.filter_eq_self.mpr
    intro u hu
    exact decide_eq_true (hbetween u hu)
  have hsub : (inInterval width x ((ts.drop i).take (limit + 1))).Sublist
      (inInterval width x ts) :=
    ((List.take_sublist _ _).trans (List.drop_sublist _ _)).filter _
  have hle := hsub.length_le.trans (h x)
  rw [hfilter, hlength] at hle
  omega

/-- No interval holds more than the limit exactly when the elements are spread. -/
theorem inInterval_le_iff {ts : List Nat} (hts : ts.Pairwise (· ≤ ·)) :
    (∀ a, (inInterval width a ts).length ≤ limit) ↔ Spread width limit ts :=
  ⟨spread_of_inInterval hts, fun h a => length_inInterval_le a hts h⟩

theorem Spread.of_append_left {ts us : List Nat} (h : Spread width limit (ts ++ us)) :
    Spread width limit ts := by
  intro i x y hx hy
  apply h i x y
  · rw [List.getElem?_append_left (List.getElem?_eq_some_iff.mp hx).1]
    exact hx
  · rw [List.getElem?_append_left (List.getElem?_eq_some_iff.mp hy).1]
    exact hy

theorem Spread.of_append_right {ts us : List Nat} (h : Spread width limit (ts ++ us)) :
    Spread width limit us := by
  induction ts with
  | nil => exact h
  | cons t ts ih =>
      apply ih
      exact h.of_cons

/-- Three parts of which the last is far from the first: it is enough to look at two of them
at a time. -/
theorem spread_append_iff {ps qs rs : List Nat} (hps : ps.length ≤ limit)
    (hfar : ∀ x ∈ ps, ∀ y ∈ rs, x + width ≤ y) :
    Spread width limit (ps ++ (qs ++ rs))
      ↔ Spread width limit (ps ++ qs) ∧ Spread width limit (qs ++ rs) := by
  constructor
  · intro h
    refine ⟨?_, h.of_append_right⟩
    rw [← List.append_assoc] at h
    exact h.of_append_left
  · rintro ⟨hpq, hqr⟩ i x y hx hy
    rcases Nat.lt_or_ge i ps.length with hi | hi
    · rw [List.getElem?_append_left hi] at hx
      rw [List.getElem?_append_right (by omega)] at hy
      rcases Nat.lt_or_ge (i + limit - ps.length) qs.length with hj | hj
      · rw [List.getElem?_append_left hj] at hy
        apply hpq i x y
        · rw [List.getElem?_append_left hi]
          exact hx
        · rw [List.getElem?_append_right (by omega)]
          exact hy
      · rw [List.getElem?_append_right hj] at hy
        exact hfar x (List.mem_of_getElem? hx) y (List.mem_of_getElem? hy)
    · rw [List.getElem?_append_right hi] at hx
      rw [List.getElem?_append_right (by omega)] at hy
      apply hqr (i - ps.length) x y hx
      rw [← hy]
      congr 1
      omega

end Interval

/-! ## Windows of one length -/

section SameLength

variable {width limit : Nat}

/-- What comes after the window that is open begins when it has ended. -/
theorem le_of_mem_tail_windowsFrom (life : Nat → Nat) (ts : List Nat) (ends : Nat)
    (opened : List Nat) (hts : ts.Pairwise (· ≤ ·)) :
    ∀ w ∈ (windowsFrom life ends opened ts).tail, ∀ y ∈ w, ends ≤ y := by
  induction ts generalizing opened with
  | nil => simp [windowsFrom]
  | cons t ts ih =>
      simp only [windowsFrom]
      by_cases hends : t < ends
      · rw [if_pos hends]
        exact ih (opened ++ [t]) hts.of_cons
      · rw [if_neg hends, List.tail_cons]
        intro w hw y hy
        have hmem : y ∈ (windowsFrom life (t + life t) [t] ts).flatten :=
          List.mem_flatten.mpr ⟨w, hw, hy⟩
        rw [flatten_windowsFrom] at hmem
        rcases List.mem_cons.mp hmem with rfl | hmem
        · omega
        · have hty := List.rel_of_pairwise_cons hts hmem
          omega

theorem windowsFrom_eq_cons (life : Nat → Nat) (ts : List Nat) (ends : Nat) (opened : List Nat) :
    ∃ more ws, windowsFrom life ends opened ts = (opened ++ more) :: ws := by
  induction ts generalizing opened with
  | nil => exact ⟨[], [], by simp [windowsFrom]⟩
  | cons t ts ih =>
      simp only [windowsFrom]
      split
      · obtain ⟨more, ws, heq⟩ := ih (opened ++ [t])
        exact ⟨t :: more, ws, by rw [heq, List.append_assoc, List.singleton_append]⟩
      · exact ⟨[], _, by rw [List.append_nil]⟩

/-- Two windows that follow each other hold no burst: their calls, as far as they are
admitted, are spread. -/
def NoBurst (width limit : Nat) (w w' : List Nat) : Prop :=
  Spread width limit (w.take limit ++ w'.take limit)

theorem spread_take (w : List Nat) : Spread width limit (w.take limit) := by
  intro i x y _ hy
  have hlt := (List.getElem?_eq_some_iff.mp hy).1
  have hle := List.length_take_le limit w
  omega

theorem spread_windowsFrom_iff (hwidth : 0 < width) (ts : List Nat) (ends : Nat)
    (opened : List Nat) (hts : ts.Pairwise (· ≤ ·)) (hopened : ∀ x ∈ opened, x < ends) :
    Spread width limit ((windowsFrom (fun _ => width) ends opened ts).flatMap (List.take limit))
      ↔ (windowsFrom (fun _ => width) ends opened ts).IsChain (NoBurst width limit) := by
  induction ts generalizing ends opened with
  | nil =>
      simp only [windowsFrom, List.flatMap_cons, List.flatMap_nil, List.append_nil]
      exact iff_of_true (spread_take opened) (List.isChain_singleton opened)
  | cons t ts ih =>
      by_cases hends : t < ends
      · simp only [windowsFrom, if_pos hends]
        apply ih ends (opened ++ [t]) hts.of_cons
        intro x hx
        rcases List.mem_append.mp hx with hx | hx
        · exact hopened x hx
        · rwa [List.mem_singleton.mp hx]
      · simp only [windowsFrom, if_neg hends]
        have hnext : ∀ x ∈ [t], x < t + width := by
          intro x hx
          rw [List.mem_singleton.mp hx]
          omega
        have htail := ih (t + width) [t] hts.of_cons hnext
        have hlate := le_of_mem_tail_windowsFrom (fun _ => width) ts (t + width) [t]
          hts.of_cons
        obtain ⟨more, ws, heq⟩ := windowsFrom_eq_cons (fun _ => width) ts (t + width) [t]
        rw [heq] at htail hlate ⊢
        rw [List.flatMap_cons] at htail
        rw [List.flatMap_cons, List.flatMap_cons, List.isChain_cons_cons, ← htail]
        -- the windows after the next one are too late to meet this one in an interval
        apply spread_append_iff (List.length_take_le limit opened)
        intro x hx y hy
        obtain ⟨w, hw, hyw⟩ := List.mem_flatMap.mp hy
        have hxt := hopened x (List.mem_of_mem_take hx)
        have hty := hlate w hw y (List.mem_of_mem_take hyw)
        omega

/-- No interval as long as a window holds more than the limit of what is admitted exactly when
no burst straddles two windows that follow each other. -/
theorem admitted_interval_iff (hwidth : 0 < width) {ts : List Nat} (hts : ts.Pairwise (· ≤ ·)) :
    (∀ a, (inInterval width a (admitted limit (fun _ => width) none ts)).length ≤ limit)
      ↔ (windows (fun _ => width) ts).IsChain (NoBurst width limit) := by
  have hsorted : (admitted limit (fun _ => width) none ts).Pairwise (· ≤ ·) :=
    hts.sublist (admitted_sublist ts none)
  rw [inInterval_le_iff hsorted, admitted_eq]
  cases ts with
  | nil => simp [windows, Spread]
  | cons t ts =>
      apply spread_windowsFrom_iff hwidth ts (t + width) [t] hts.of_cons
      intro x hx
      rw [List.mem_singleton.mp hx]
      omega

end SameLength

end AuraGateway.Foundations.FixedWindow
