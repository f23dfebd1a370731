import AuraGateway.Foundations.Scanner

/-!
# Polled streams

A polled stream turns the pieces of a source into events. Between two events it runs a loop:
first the events that are due, then the next line of what it has buffered, then the next
piece of the source, whose elements are decoded onto the buffer (`Machine.step`). One line
can change the control state and give at most one event; several events are queued in the
control state and are due from then on.

What such a stream gives is determined by its lines: it is the control state driven through
the lines of the decoded source (`run_eq_drive`). Where the pieces of the source end does not
matter (`run_eq_of_flatten_eq`).
-/

set_option autoImplicit false

namespace AuraGateway.Foundations.PolledStream

universe u

variable {β γ ι ξ σ ε : Type u}

/-! ## The loop -/

/-- A scanner with the operation that appends what it has cut off to a buffer and carries
the rest over. -/
structure Decoder (β γ : Type u) extends Scanner β γ where
  push : List γ → List β → List β → List γ × List β
  push_eq : ∀ buffer pending piece,
    push buffer pending piece
      = (buffer ++ (toScanner.drain (pending ++ piece)).1, (toScanner.drain (pending ++ piece)).2)

/-- The control of a polled stream. Events that are due, and events at the end of the source,
use up a finite amount. -/
structure Machine (ι ξ σ ε : Type u) where
  /-- An event that is due before anything is read. -/
  ready : σ → Option (ε × σ)
  /-- What a line does. -/
  accept : σ → ι → Option ε × σ
  /-- The event of a fault of the source. -/
  failed : ξ → ε
  /-- An event at the end of the source. -/
  finish : σ → Option (ε × σ)
  due : σ → Nat
  due_of_ready : ∀ {c e c'}, ready c = some (e, c') → due c' < due c
  due_of_finish : ∀ {c e c'}, ready c = none → finish c = some (e, c') → due c' < due c

/-- A polled stream between two rounds of its loop. -/
structure Polled (β γ ξ σ : Type u) where
  control : σ
  buffer : List γ
  pending : List β
  source : List (Except ξ (List β))

/-- How a round of the loop ends. -/
inductive Outcome (ε τ : Type u) where
  | emit (event : ε) (next : τ)
  | again (next : τ)
  | ended

namespace Machine

variable (M : Machine ι ξ σ ε) (dec : Decoder β γ) (lines : Scanner γ ι)

/-- One round of the loop. -/
def step (s : Polled β γ ξ σ) : Outcome ε (Polled β γ ξ σ) :=
  match M.ready s.control with
  | some (e, c) => .emit e { s with control := c }
  | none =>
      match lines.scan s.buffer with
      | some (line, rest) =>
          match M.accept s.control line with
          | (some e, c) => .emit e { s with control := c, buffer := rest }
          | (none, c) => .again { s with control := c, buffer := rest }
      | none =>
          match s.source with
          | .ok piece :: source =>
              let pushed := dec.push s.buffer s.pending piece
              .again { s with buffer := pushed.1, pending := pushed.2, source := source }
          | .error fault :: source => .emit (M.failed fault) { s with source := source }
          | [] =>
              match M.finish s.control with
              | some (e, c) => .emit e { s with control := c }
              | none => .ended

/-- What a round can do. -/
inductive Round (s : Polled β γ ξ σ) : Outcome ε (Polled β γ ξ σ) → Prop where
  | due {e : ε} {c : σ} (hready : M.ready s.control = some (e, c)) :
      Round s (.emit e { s with control := c })
  | answer {line : ι} {rest : List γ} {e : ε} {c : σ} (hready : M.ready s.control = none)
      (hline : lines.scan s.buffer = some (line, rest))
      (haccept : M.accept s.control line = (some e, c)) :
      Round s (.emit e { s with control := c, buffer := rest })
  | silent {line : ι} {rest : List γ} {c : σ} (hready : M.ready s.control = none)
      (hline : lines.scan s.buffer = some (line, rest))
      (haccept : M.accept s.control line = (none, c)) :
      Round s (.again { s with control := c, buffer := rest })
  | read {piece : List β} {source : List (Except ξ (List β))} (hready : M.ready s.control = none)
      (hline : lines.scan s.buffer = none) (hsource : s.source = .ok piece :: source) :
      Round s (.again { s with
        buffer := (dec.push s.buffer s.pending piece).1
        pending := (dec.push s.buffer s.pending piece).2
        source := source })
  | fault {x : ξ} {source : List (Except ξ (List β))} (hready : M.ready s.control = none)
      (hline : lines.scan s.buffer = none) (hsource : s.source = .error x :: source) :
      Round s (.emit (M.failed x) { s with source := source })
  | finish {e : ε} {c : σ} (hready : M.ready s.control = none)
      (hline : lines.scan s.buffer = none) (hsource : s.source = [])
      (hfinish : M.finish s.control = some (e, c)) :
      Round s (.emit e { s with control := c })
  | ended (hready : M.ready s.control = none) (hline : lines.scan s.buffer = none)
      (hsource : s.source = []) (hfinish : M.finish s.control = none) : Round s .ended

theorem round_step (s : Polled β γ ξ σ) : M.Round dec lines s (M.step dec lines s) := by
  obtain ⟨control, buffer, pending, source⟩ := s
  rw [step]
  split
  · rename_i hready
    exact .due hready
  · rename_i hready
    split
    · rename_i hline
      split
      · rename_i haccept
        exact .answer hready hline haccept
      · rename_i haccept
        exact .silent hready hline haccept
    · rename_i hline
      split
      · rename_i hsource
        exact .read hready hline hsource
      · rename_i hsource
        exact .fault hready hline hsource
      · rename_i hsource
        split
        · rename_i hfinish
          exact .finish hready hline hsource hfinish
        · rename_i hfinish
          exact .ended hready hline hsource hfinish

/-- What a round uses up: pieces of the source, then text, then events that are due. -/
def rank (s : Polled β γ ξ σ) : Nat × Nat × Nat :=
  (s.source.length, s.buffer.length, M.due s.control)

/-- The order of what is used up. -/
abbrev Below (a b : Nat × Nat × Nat) : Prop :=
  Prod.Lex (· < ·) (Prod.Lex (· < ·) (· < ·)) a b

theorem below_of_due {s : Polled β γ ξ σ} {c : σ} (h : M.due c < M.due s.control) :
    Below (M.rank { s with control := c }) (M.rank s) :=
  Prod.Lex.right _ (Prod.Lex.right _ h)

theorem below_of_line {s : Polled β γ ξ σ} {line : ι} {rest : List γ}
    (h : lines.scan s.buffer = some (line, rest)) (c : σ) :
    Below (M.rank { s with control := c, buffer := rest }) (M.rank s) :=
  Prod.Lex.right _ (Prod.Lex.left _ _ (lines.length_of_scan h))

theorem below_of_source {s : Polled β γ ξ σ} {piece : Except ξ (List β)}
    {source : List (Except ξ (List β))} (h : s.source = piece :: source) (buffer : List γ)
    (pending : List β) : Below (M.rank ⟨s.control, buffer, pending, source⟩) (M.rank s) := by
  rw [rank, rank, h]
  exact Prod.Lex.left _ _ (Nat.lt_succ_self _)

theorem below_of_emit {s s' : Polled β γ ξ σ} {e : ε} (h : M.step dec lines s = .emit e s') :
    Below (M.rank s') (M.rank s) := by
  have hround := M.round_step dec lines s
  rw [h] at hround
  cases hround with
  | due hready => exact M.below_of_due (M.due_of_ready hready)
  | answer _ hline _ => exact M.below_of_line lines hline _
  | fault _ _ hsource => exact M.below_of_source hsource _ _
  | finish hready _ _ hfinish => exact M.below_of_due (M.due_of_finish hready hfinish)

theorem below_of_again {s s' : Polled β γ ξ σ} (h : M.step dec lines s = .again s') :
    Below (M.rank s') (M.rank s) := by
  have hround := M.round_step dec lines s
  rw [h] at hround
  cases hround with
  | silent _ hline _ => exact M.below_of_line lines hline _
  | read _ _ hsource => exact M.below_of_source hsource _ _

/-- The events of a polled stream, until it ends. -/
def run (s : Polled β γ ξ σ) : List ε :=
  match h : M.step dec lines s with
  | .emit e s' =>
      have := M.below_of_emit dec lines h
      e :: run s'
  | .again s' =>
      have := M.below_of_again dec lines h
      run s'
  | .ended => []
termination_by M.rank s
decreasing_by all_goals exact this

variable {dec lines}

theorem run_of_emit {s s' : Polled β γ ξ σ} {e : ε} (h : M.step dec lines s = .emit e s') :
    M.run dec lines s = e :: M.run dec lines s' := by
  rw [run]
  split <;> rename_i h' <;> rw [h] at h' <;> cases h'
  rfl

theorem run_of_again {s s' : Polled β γ ξ σ} (h : M.step dec lines s = .again s') :
    M.run dec lines s = M.run dec lines s' := by
  rw [run]
  split <;> rename_i h' <;> rw [h] at h' <;> cases h'
  rfl

theorem run_of_ended {s : Polled β γ ξ σ} (h : M.step dec lines s = .ended) :
    M.run dec lines s = [] := by
  rw [run]
  split <;> rename_i h' <;> rw [h] at h' <;> cases h'

end Machine

/-! ## The lines of a source -/

section Inputs

variable (dec : Decoder β γ) (lines : Scanner γ ι)

/-- The lines that the loop comes to, and the faults between them. -/
def inputs : List γ → List β → List (Except ξ (List β)) → List (ξ ⊕ ι)
  | buffer, _, [] => (lines.drain buffer).1.map .inr
  | buffer, pending, .ok piece :: source =>
      (lines.drain buffer).1.map .inr
        ++ inputs ((lines.drain buffer).2 ++ (dec.drain (pending ++ piece)).1)
            (dec.drain (pending ++ piece)).2 source
  | buffer, pending, .error fault :: source =>
      (lines.drain buffer).1.map .inr ++ .inl fault :: inputs (lines.drain buffer).2 pending source

/-- The lines of a whole input. -/
def linesOf (input : List β) : List ι := (lines.drain (dec.drain input).1).1

variable {dec lines}

theorem inputs_of_line {buffer rest : List γ} {line : ι} (h : lines.scan buffer = some (line, rest))
    (pending : List β) (source : List (Except ξ (List β))) :
    inputs dec lines buffer pending source = .inr line :: inputs dec lines rest pending source := by
  cases source with
  | nil => rw [inputs, inputs, Scanner.drain_of_some h, List.map_cons]
  | cons piece source =>
      cases piece with
      | ok piece => rw [inputs, inputs, Scanner.drain_of_some h, List.map_cons, List.cons_append]
      | error fault => rw [inputs, inputs, Scanner.drain_of_some h, List.map_cons, List.cons_append]

theorem inputs_ok {buffer : List γ} (h : lines.scan buffer = none) (pending piece : List β)
    (source : List (Except ξ (List β))) :
    inputs dec lines buffer pending (.ok piece :: source)
      = inputs dec lines (dec.push buffer pending piece).1 (dec.push buffer pending piece).2 source := by
  rw [inputs, Scanner.drain_of_none h, dec.push_eq, List.map_nil, List.nil_append]

theorem inputs_error {buffer : List γ} (h : lines.scan buffer = none) (pending : List β) (fault : ξ)
    (source : List (Except ξ (List β))) :
    inputs dec lines buffer pending (.error fault :: source)
      = .inl fault :: inputs dec lines buffer pending source := by
  rw [inputs, Scanner.drain_of_none h, List.map_nil, List.nil_append]

/-- Without faults, the lines are those of the whole source. -/
theorem inputs_map_ok {pending : List β} (h : dec.scan pending = none) (buffer : List γ)
    (pieces : List (List β)) :
    inputs (ξ := ξ) dec lines buffer pending (pieces.map .ok)
      = (lines.drain (buffer ++ (dec.drain (pending ++ pieces.flatten)).1)).1.map .inr := by
  induction pieces generalizing buffer pending with
  | nil =>
      rw [List.flatten_nil, List.append_nil, Scanner.drain_of_none h, List.append_nil]
      rfl
  | cons piece pieces ih =>
      have hdec := Scanner.drain_append (S := dec.toScanner) (pending ++ piece) pieces.flatten
      have hline := Scanner.drain_append (S := lines) buffer
        ((dec.drain (pending ++ piece)).1
          ++ (dec.drain ((dec.drain (pending ++ piece)).2 ++ pieces.flatten)).1)
      rw [List.map_cons, inputs, ih (Scanner.scan_drain _), List.flatten_cons,
        ← List.append_assoc pending, hdec, hline, List.map_append, List.append_assoc]

end Inputs

/-! ## What a stream gives -/

namespace Machine

variable (M : Machine ι ξ σ ε)

/-- The events that are due, and the control state after them. -/
def settle (c : σ) : List ε × σ :=
  match h : M.ready c with
  | some (e, c') =>
      have := M.due_of_ready h
      (e :: (settle c').1, (settle c').2)
  | none => ([], c)
termination_by M.due c

/-- The events from the end of the source on. -/
def close (c : σ) : List ε :=
  match h : M.ready c with
  | some (e, c') =>
      have := M.due_of_ready h
      e :: close c'
  | none =>
      match h' : M.finish c with
      | some (e, c') =>
          have := M.due_of_finish h h'
          e :: close c'
      | none => []
termination_by M.due c

/-- The control state driven through lines and faults. -/
def drive : σ → List (ξ ⊕ ι) → List ε
  | c, [] => M.close c
  | c, .inl fault :: rest => (M.settle c).1 ++ M.failed fault :: drive (M.settle c).2 rest
  | c, .inr line :: rest =>
      (M.settle c).1 ++ (M.accept (M.settle c).2 line).1.toList
        ++ drive (M.accept (M.settle c).2 line).2 rest

variable {M}

theorem settle_of_ready {c c' : σ} {e : ε} (h : M.ready c = some (e, c')) :
    M.settle c = (e :: (M.settle c').1, (M.settle c').2) := by
  rw [settle]
  split <;> rename_i h' <;> rw [h] at h' <;> cases h'
  rfl

theorem settle_of_none {c : σ} (h : M.ready c = none) : M.settle c = ([], c) := by
  rw [settle]
  split
  · rename_i h'
    rw [h] at h'
    cases h'
  · rfl

theorem close_of_ready {c c' : σ} {e : ε} (h : M.ready c = some (e, c')) :
    M.close c = e :: M.close c' := by
  rw [close]
  split <;> rename_i h' <;> rw [h] at h' <;> cases h'
  rfl

theorem close_of_finish {c c' : σ} {e : ε} (h : M.ready c = none)
    (h' : M.finish c = some (e, c')) : M.close c = e :: M.close c' := by
  rw [close]
  split <;> rename_i h₁ <;> rw [h] at h₁ <;> cases h₁
  split <;> rename_i h₂ <;> rw [h'] at h₂ <;> cases h₂
  rfl

theorem close_of_none {c : σ} (h : M.ready c = none) (h' : M.finish c = none) :
    M.close c = [] := by
  rw [close]
  split <;> rename_i h₁ <;> rw [h] at h₁ <;> cases h₁
  split
  · rename_i h₂
    rw [h'] at h₂
    cases h₂
  · rfl

/-- An event that is due comes first. -/
theorem drive_of_ready {c c' : σ} {e : ε} (h : M.ready c = some (e, c')) (rest : List (ξ ⊕ ι)) :
    M.drive c rest = e :: M.drive c' rest := by
  cases rest with
  | nil => exact close_of_ready h
  | cons x rest =>
      cases x with
      | inl fault => rw [drive, drive, settle_of_ready h, List.cons_append]
      | inr line => rw [drive, drive, settle_of_ready h, List.cons_append, List.cons_append]

/-- Nothing is due: the next line is handled. -/
theorem drive_line {c : σ} (h : M.ready c = none) (line : ι) (rest : List (ξ ⊕ ι)) :
    M.drive c (.inr line :: rest)
      = (M.accept c line).1.toList ++ M.drive (M.accept c line).2 rest := by
  rw [drive, settle_of_none h, List.nil_append]

theorem drive_fault {c : σ} (h : M.ready c = none) (fault : ξ) (rest : List (ξ ⊕ ι)) :
    M.drive c (.inl fault :: rest) = M.failed fault :: M.drive c rest := by
  rw [drive, settle_of_none h, List.nil_append]

/-- What is due comes first. -/
theorem drive_settle (c : σ) (rest : List (ξ ⊕ ι)) :
    M.drive c rest = (M.settle c).1 ++ M.drive (M.settle c).2 rest := by
  fun_induction M.settle c with
  | case1 c e c' h _ ih => rw [drive_of_ready h, ih, List.cons_append]
  | case2 c h => rfl

/-- Nothing is due after what was due. -/
theorem ready_settle (c : σ) : M.ready (M.settle c).2 = none := by
  fun_induction M.settle c with
  | case1 c e c' h _ ih => exact ih
  | case2 c h => exact h

/-! ## Lines in a row -/

variable (M) in
/-- The events of lines in a row, and the control state after them. -/
def feed : σ → List ι → List ε × σ
  | c, [] => ([], c)
  | c, line :: rest =>
      let answer := M.accept (M.settle c).2 line
      ((M.settle c).1 ++ answer.1.toList ++ (feed answer.2 rest).1, (feed answer.2 rest).2)

theorem drive_append (c : σ) (row : List ι) (rest : List (ξ ⊕ ι)) :
    M.drive c (row.map .inr ++ rest) = (M.feed c row).1 ++ M.drive (M.feed c row).2 rest := by
  induction row generalizing c with
  | nil => rfl
  | cons line row ih =>
      rw [List.map_cons, List.cons_append, drive, feed, ih]
      simp only [List.append_assoc]

theorem feed_cons {c : σ} (h : M.ready c = none) (line : ι) (row : List ι) :
    M.feed c (line :: row)
      = ((M.accept c line).1.toList ++ (M.feed (M.accept c line).2 row).1,
        (M.feed (M.accept c line).2 row).2) := by
  rw [feed, settle_of_none h]
  rfl

/-- The machine that reads its lines as messages and passes over the others. -/
def comap {μ : Type u} (M : Machine μ ξ σ ε) (read : ι → Option μ) : Machine ι ξ σ ε where
  ready := M.ready
  accept c line :=
    match read line with
    | none => (none, c)
    | some m => M.accept c m
  failed := M.failed
  finish := M.finish
  due := M.due
  due_of_ready := M.due_of_ready
  due_of_finish := M.due_of_finish

theorem settle_comap {μ : Type u} (M : Machine μ ξ σ ε) (read : ι → Option μ) (c : σ) :
    (M.comap read).settle c = M.settle c := by
  fun_induction M.settle c with
  | case1 c e c' h _ ih => rw [settle_of_ready (M := M.comap read) h, ih]
  | case2 c h => exact settle_of_none (M := M.comap read) h

theorem close_comap {μ : Type u} (M : Machine μ ξ σ ε) (read : ι → Option μ) (c : σ) :
    (M.comap read).close c = M.close c := by
  fun_induction M.close c with
  | case1 c e c' h _ ih => rw [close_of_ready (M := M.comap read) h, ih]
  | case2 c h e c' h' _ ih => rw [close_of_finish (M := M.comap read) h h', ih]
  | case3 c h h' => exact close_of_none (M := M.comap read) h h'

/-- What a line or a fault is for a machine that reads messages. -/
def readInput {μ : Type u} (read : ι → Option μ) : ξ ⊕ ι → Option (ξ ⊕ μ)
  | .inl fault => some (.inl fault)
  | .inr line => (read line).map .inr

/-- Lines that are no messages leave no trace. -/
theorem drive_comap_inputs {μ : Type u} (M : Machine μ ξ σ ε) (read : ι → Option μ) (c : σ)
    (inputs : List (ξ ⊕ ι)) :
    (M.comap read).drive c inputs = M.drive c (inputs.filterMap (readInput read)) := by
  induction inputs generalizing c with
  | nil => exact close_comap M read c
  | cons input inputs ih =>
      cases input with
      | inl fault =>
          rw [drive, settle_comap, ih, List.filterMap_cons_some (b := .inl fault) (by rfl), drive]
          rfl
      | inr line =>
          rw [drive, settle_comap, ih]
          cases hread : read line with
          | none =>
              have hnone : readInput (ξ := ξ) read (.inr line) = none := by simp [readInput, hread]
              rw [List.filterMap_cons_none hnone, drive_settle c]
              simp [comap, hread]
          | some m =>
              have hsome : readInput (ξ := ξ) read (.inr line) = some (.inr m) := by
                simp [readInput, hread]
              rw [List.filterMap_cons_some hsome, drive]
              simp [comap, hread]

theorem filterMap_readInput {μ : Type u} (read : ι → Option μ) (row : List ι) :
    (row.map (Sum.inr (α := ξ))).filterMap (readInput read)
      = (row.filterMap read).map .inr := by
  rw [List.filterMap_map, List.map_filterMap]
  rfl

theorem drive_comap {μ : Type u} (M : Machine μ ξ σ ε) (read : ι → Option μ) (c : σ)
    (row : List ι) :
    (M.comap read).drive c (row.map .inr) = M.drive c ((row.filterMap read).map .inr) := by
  rw [drive_comap_inputs, filterMap_readInput]

variable {dec : Decoder β γ} {lines : Scanner γ ι}

/-- A polled stream gives what its control state gives on its lines. -/
theorem run_eq_drive (s : Polled β γ ξ σ) :
    M.run dec lines s = M.drive s.control (inputs dec lines s.buffer s.pending s.source) := by
  -- over the rounds of the loop
  fun_induction M.run dec lines s with
  | case1 s e s' h _ ih =>
      have hround := M.round_step dec lines s
      rw [h] at hround
      cases hround with
      | due hready => rw [ih, drive_of_ready hready]
      | answer hready hline haccept =>
          rw [ih, inputs_of_line hline, drive_line hready, haccept]
          rfl
      | fault hready hline hsource => rw [ih, hsource, inputs_error hline, drive_fault hready]
      | finish hready hline hsource hfinish =>
          rw [ih, hsource, inputs, Scanner.drain_of_none hline, List.map_nil, drive, drive,
            close_of_finish hready hfinish]
  | case2 s s' h _ ih =>
      have hround := M.round_step dec lines s
      rw [h] at hround
      cases hround with
      | silent hready hline haccept =>
          rw [ih, inputs_of_line hline, drive_line hready, haccept]
          rfl
      | read hready hline hsource => rw [ih, hsource, inputs_ok hline]
  | case3 s h =>
      have hround := M.round_step dec lines s
      rw [h] at hround
      cases hround with
      | ended hready hline hsource hfinish =>
          rw [hsource, inputs, Scanner.drain_of_none hline, List.map_nil, drive,
            close_of_none hready hfinish]

/-- Without faults, a stream gives what its control state gives on the lines of the whole
source. -/
theorem run_start (c : σ) (pieces : List (List β)) :
    M.run dec lines ⟨c, [], [], pieces.map .ok⟩
      = M.drive c ((linesOf dec lines pieces.flatten).map .inr) := by
  have hnil : dec.scan [] = none := Scanner.scan_nil
  rw [run_eq_drive, inputs_map_ok hnil, List.nil_append, List.nil_append, linesOf]

/-- Where the pieces of the source end does not matter. -/
theorem run_eq_of_flatten_eq (c : σ) {pieces pieces' : List (List β)}
    (h : pieces.flatten = pieces'.flatten) :
    M.run dec lines ⟨c, [], [], pieces.map .ok⟩
      = M.run dec lines ⟨c, [], [], pieces'.map .ok⟩ := by
  rw [run_start, run_start, h]

end Machine

end AuraGateway.Foundations.PolledStream
