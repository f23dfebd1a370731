import AuraGateway.Foundations.LabelledRuns
import AuraGateway.Settings.Runtime

/-!
# Concurrent settings requests

A settings request stores its document in one statement and then writes nine values of
the process, each on its own: six flags, the router, the dropped models and the
overrides shown. Requests that run at the same time interleave these writes.

When all have finished, the stored document and the values need not come from one
request (`settings_torn`). They do in every run in which no request overwrites a value
that the request whose document is stored has already written (`settings_agree`).
-/

set_option autoImplicit false

namespace AuraGateway.Settings

open AuraGateway.Foundations.LabelledRuns AuraGateway.Types

/-! ## The values of the process -/

/-- The values a settings request writes one at a time. -/
inductive Cell where
  | payloadCapture
  | replayToolContext
  | cacheEnabled
  | rateLimitEnabled
  | cacheTtlSecs
  | defaultRateLimitRpm
  | autoRouter
  | routerDropped
  | gatewaySettings
  deriving DecidableEq, Repr

namespace Cell

/-- The order in which a request writes them. -/
def order : List Cell :=
  [.payloadCapture, .replayToolContext, .cacheEnabled, .rateLimitEnabled, .cacheTtlSecs,
    .defaultRateLimitRpm, .autoRouter, .routerDropped, .gatewaySettings]

/-- Write one value of the target. -/
def write (target : Process) (p : Process) : Cell → Process
  | .payloadCapture =>
      { p with runtime := { p.runtime with payloadCapture := target.runtime.payloadCapture } }
  | .replayToolContext =>
      { p with runtime := { p.runtime with replayToolContext := target.runtime.replayToolContext } }
  | .cacheEnabled =>
      { p with runtime := { p.runtime with cacheEnabled := target.runtime.cacheEnabled } }
  | .rateLimitEnabled =>
      { p with runtime := { p.runtime with rateLimitEnabled := target.runtime.rateLimitEnabled } }
  | .cacheTtlSecs =>
      { p with runtime := { p.runtime with cacheTtlSecs := target.runtime.cacheTtlSecs } }
  | .defaultRateLimitRpm =>
      { p with
        runtime := { p.runtime with defaultRateLimitRpm := target.runtime.defaultRateLimitRpm } }
  | .autoRouter => { p with autoRouter := target.autoRouter }
  | .routerDropped => { p with routerDropped := target.routerDropped }
  | .gatewaySettings => { p with gatewaySettings := target.gatewaySettings }

/-- Two processes agree on one value. -/
def Same (p q : Process) : Cell → Prop
  | .payloadCapture => p.runtime.payloadCapture = q.runtime.payloadCapture
  | .replayToolContext => p.runtime.replayToolContext = q.runtime.replayToolContext
  | .cacheEnabled => p.runtime.cacheEnabled = q.runtime.cacheEnabled
  | .rateLimitEnabled => p.runtime.rateLimitEnabled = q.runtime.rateLimitEnabled
  | .cacheTtlSecs => p.runtime.cacheTtlSecs = q.runtime.cacheTtlSecs
  | .defaultRateLimitRpm => p.runtime.defaultRateLimitRpm = q.runtime.defaultRateLimitRpm
  | .autoRouter => p.autoRouter = q.autoRouter
  | .routerDropped => p.routerDropped = q.routerDropped
  | .gatewaySettings => p.gatewaySettings = q.gatewaySettings

theorem mem_order (c : Cell) : c ∈ order := by
  cases c <;> decide

theorem same_write (target p : Process) (c : Cell) : Same (write target p c) target c := by
  cases c <;> rfl

/-- Writing one value leaves the others. -/
theorem same_write_of_ne {target p q : Process} {c c' : Cell} (hne : c' ≠ c)
    (h : Same p q c') : Same (write target p c) q c' := by
  cases c <;> cases c' <;> first | exact absurd rfl hne | exact h

/-- Processes that agree on every value are equal. -/
theorem eq_of_same {p q : Process} (h : ∀ c, Same p q c) : p = q := by
  obtain ⟨⟨_, _, _, _, _, _⟩, _, _, _⟩ := p
  obtain ⟨⟨_, _, _, _, _, _⟩, _, _, _⟩ := q
  have h₁ := h .payloadCapture
  have h₂ := h .replayToolContext
  have h₃ := h .cacheEnabled
  have h₄ := h .rateLimitEnabled
  have h₅ := h .cacheTtlSecs
  have h₆ := h .defaultRateLimitRpm
  have h₇ := h .autoRouter
  have h₈ := h .routerDropped
  have h₉ := h .gatewaySettings
  simp only [Same] at h₁ h₂ h₃ h₄ h₅ h₆ h₇ h₈ h₉
  subst h₁ h₂ h₃ h₄ h₅ h₆ h₇ h₈ h₉
  rfl

theorem same_foldl_write_of_same {target p : Process} {c : Cell} (cs : List Cell)
    (h : Same p target c) : Same (cs.foldl (write target) p) target c := by
  -- over the writes; a write of the same target cannot undo what it has written
  induction cs generalizing p with
  | nil => exact h
  | cons d rest ih =>
      apply ih
      by_cases hd : c = d
      · subst hd
        exact same_write target p c
      · exact same_write_of_ne hd h

/-- After a series of writes every value of the series is the target's. -/
theorem same_foldl_write {target p : Process} {c : Cell} {cs : List Cell} (h : c ∈ cs) :
    Same (cs.foldl (write target) p) target c := by
  induction cs generalizing p with
  | nil => cases h
  | cons d rest ih =>
      rcases List.mem_cons.mp h with rfl | hrest
      · exact same_foldl_write_of_same rest (same_write target p c)
      · exact ih hrest

/-- The writes of one request together apply its settings. -/
theorem foldl_write_order (target p : Process) : order.foldl (write target) p = target := by
  apply eq_of_same
  intro c
  exact same_foldl_write c.mem_order

end Cell

/-! ## Requests in flight -/

/-- How far a request has come: its document is not stored yet, some values are still to
be written, or the database refused the document. -/
inductive Stage where
  | received
  | applying (rest : List Cell)
  | failed
  deriving DecidableEq, Repr

/-- A request that has nothing left to do. -/
def Stage.Finished (s : Stage) : Prop := s = .applying [] ∨ s = .failed

section System

variable {ι : Type} [DecidableEq ι]

/-- The gateway with its requests in flight. `storedBy` only records which request stored
its document last; no step reads it. -/
structure InFlight (ι : Type) where
  stored : Option GatewaySettings
  process : Process
  stage : ι → Stage
  storedBy : Option ι := none

/-- One step of one request. -/
inductive SettingsStep (ι : Type) where
  | store (i : ι)
  | refuse (i : ι)
  | write (i : ι)
  deriving DecidableEq, Repr

variable (boot : Boot) (doc : ι → GatewaySettings)

/-- A request stores its document or is refused by the database; after storing it, it
writes its values in order. -/
inductive Steps : InFlight ι → SettingsStep ι → InFlight ι → Prop where
  | store {σ : InFlight ι} {i : ι} (h : σ.stage i = .received) :
      Steps σ (.store i)
        { σ with
          stored := some (doc i)
          stage := Function.update σ.stage i (.applying Cell.order)
          storedBy := some i }
  | refuse {σ : InFlight ι} {i : ι} (h : σ.stage i = .received) :
      Steps σ (.refuse i) { σ with stage := Function.update σ.stage i .failed }
  | write {σ : InFlight ι} {i : ι} {c : Cell} {rest : List Cell}
      (h : σ.stage i = .applying (c :: rest)) :
      Steps σ (.write i)
        { σ with
          process := Cell.write (applyGatewaySettings boot (doc i)) σ.process c
          stage := Function.update σ.stage i (.applying rest) }

/-- A write is in order when the request stored its document last, or when the request
that did has still to write the same value. -/
def InOrder (σ : InFlight ι) : SettingsStep ι → Prop
  | .write i => ∀ c rest, σ.stage i = .applying (c :: rest) → ∀ j ∈ σ.storedBy,
      i = j ∨ ∃ rest', σ.stage j = .applying rest' ∧ c ∈ rest'
  | _ => True

/-- Steps in which no write is out of order. -/
def OrderlySteps (σ : InFlight ι) (e : SettingsStep ι) (σ' : InFlight ι) : Prop :=
  Steps boot doc σ e σ' ∧ InOrder σ e

/-- The stored document and every value of the process come from one request. -/
def Agreed (σ : InFlight ι) : Prop :=
  ∃ i, σ.stored = some (doc i) ∧ σ.process = applyGatewaySettings boot (doc i)

/-- Requests that have just arrived. -/
def arrived (stored : Option GatewaySettings) (p : Process) : InFlight ι :=
  { stored, process := p, stage := fun _ => .received }

/-- What orderly runs keep: until a document is stored nothing has changed, and then every
value that the last storing request has written is still its own. -/
structure LatestKept (stored : Option GatewaySettings) (p : Process) (σ : InFlight ι) : Prop where
  untouched : σ.storedBy = none → σ.stored = stored ∧ σ.process = p ∧
    ∀ i rest, σ.stage i ≠ .applying rest
  latest : ∀ j ∈ σ.storedBy, σ.stored = some (doc j) ∧ ∃ rest, σ.stage j = .applying rest ∧
    ∀ c, c ∉ rest → Cell.Same σ.process (applyGatewaySettings boot (doc j)) c

variable {boot doc} {stored : Option GatewaySettings} {p : Process} {σ σ' : InFlight ι}

omit [DecidableEq ι] in
theorem LatestKept.start : LatestKept boot doc stored p (arrived stored p) where
  untouched := fun _ => ⟨rfl, rfl, fun _ _ => Stage.noConfusion⟩
  latest := fun _ hj => Option.noConfusion rfl (heq_of_eq hj)

/-- Storing a document starts a new last request, which has everything to write. -/
theorem LatestKept.store {i : ι} :
    LatestKept boot doc stored p
      { σ with
        stored := some (doc i)
        stage := Function.update σ.stage i (.applying Cell.order)
        storedBy := some i } where
  untouched := fun h => Option.noConfusion rfl (heq_of_eq h)
  latest := by
    rintro j hj
    obtain rfl : i = j := Option.some.inj hj
    refine ⟨rfl, Cell.order, Function.update_self .., ?_⟩
    intro c hc
    -- everything is still to be written, so nothing has to agree yet
    exact absurd c.mem_order hc

theorem LatestKept.refuse {i : ι} (h : LatestKept boot doc stored p σ)
    (hi : σ.stage i = .received) :
    LatestKept boot doc stored p { σ with stage := Function.update σ.stage i .failed } where
  untouched := by
    intro hnone
    obtain ⟨hs, hp, hno⟩ := h.untouched hnone
    refine ⟨hs, hp, ?_⟩
    intro k rest
    by_cases hk : k = i
    · subst hk
      simp
    · simpa [hk] using hno k rest
  latest := by
    intro j hj
    obtain ⟨hs, rest, hrest, hsame⟩ := h.latest j hj
    -- the refused request has stored nothing, so it is not the last one
    have hne : j ≠ i := by
      rintro rfl
      rw [hi] at hrest
      cases hrest
    exact ⟨hs, rest, by simpa [hne] using hrest, hsame⟩

/-- A write in order keeps the values of the last request. -/
theorem LatestKept.write {i : ι} {c : Cell} {rest : List Cell}
    (h : LatestKept boot doc stored p σ) (hi : σ.stage i = .applying (c :: rest))
    (ho : InOrder σ (.write i)) :
    LatestKept boot doc stored p
      { σ with
        process := Cell.write (applyGatewaySettings boot (doc i)) σ.process c
        stage := Function.update σ.stage i (.applying rest) } where
  untouched := by
    intro hnone
    exact absurd hi ((h.untouched hnone).2.2 i (c :: rest))
  latest := by
    intro j hj
    obtain ⟨hs, restj, hrestj, hsame⟩ := h.latest j hj
    refine ⟨hs, ?_⟩
    by_cases hij : i = j
    · -- the last request writes its next value
      subst hij
      rw [hi] at hrestj
      obtain rfl : c :: rest = restj := Stage.applying.inj hrestj
      refine ⟨rest, Function.update_self .., ?_⟩
      intro c' hc'
      by_cases hcc : c' = c
      · subst hcc
        exact Cell.same_write _ _ _
      · exact Cell.same_write_of_ne hcc (hsame c' (by simp [hcc, hc']))
    · -- another request writes a value the last one has still to write
      obtain ⟨rest', hrest', hmem⟩ := (ho c rest hi j hj).resolve_left hij
      rw [hrestj] at hrest'
      obtain rfl : restj = rest' := Stage.applying.inj hrest'
      refine ⟨restj, ?_, ?_⟩
      · simpa [Ne.symm hij] using hrestj
      · intro c' hc'
        have hcc : c' ≠ c := by
          rintro rfl
          exact hc' hmem
        exact Cell.same_write_of_ne hcc (hsame c' hc')

theorem LatestKept.step {e : SettingsStep ι} (h : LatestKept boot doc stored p σ)
    (hs : OrderlySteps boot doc σ e σ') : LatestKept boot doc stored p σ' := by
  obtain ⟨hstep, ho⟩ := hs
  cases hstep with
  | store hi => exact LatestKept.store
  | refuse hi => exact h.refuse hi
  | write hi => exact h.write hi ho

/-! ## A request alone -/

/-- The request that stored its document last may go on writing. -/
theorem run_writes (boot : Boot) (doc : ι → GatewaySettings) (σ : InFlight ι) {i : ι}
    (cs rest : List Cell) (hi : σ.stage i = .applying (cs ++ rest))
    (hlast : σ.storedBy = some i) :
    ∃ σ', Run (OrderlySteps boot doc) σ (cs.map fun _ => .write i) σ' ∧
      σ'.stored = σ.stored ∧ σ'.storedBy = some i ∧
      σ'.process = cs.foldl (Cell.write (applyGatewaySettings boot (doc i))) σ.process ∧
      σ'.stage = Function.update σ.stage i (.applying rest) := by
  -- over the writes still to make; the state before them varies
  induction cs generalizing σ with
  | nil =>
      refine ⟨σ, Run.nil, rfl, hlast, rfl, ?_⟩
      rw [List.nil_append] at hi
      rw [← hi, Function.update_eq_self]
  | cons c cs ih =>
      have hfirst : OrderlySteps boot doc σ (.write i)
          { σ with
            process := Cell.write (applyGatewaySettings boot (doc i)) σ.process c
            stage := Function.update σ.stage i (.applying (cs ++ rest)) } := by
        refine ⟨Steps.write hi, ?_⟩
        intro c' rest' _ j hj
        rw [hlast] at hj
        exact Or.inl (Option.some.inj hj)
      obtain ⟨σ', hrun, hs, hby, hp, hstage⟩ := ih
        { σ with
          process := Cell.write (applyGatewaySettings boot (doc i)) σ.process c
          stage := Function.update σ.stage i (.applying (cs ++ rest)) }
        (Function.update_self ..) hlast
      refine ⟨σ', Run.cons hfirst hrun, hs, hby, hp, ?_⟩
      simpa using hstage

/-- A request served alone stores its document and writes every value. -/
theorem run_alone (boot : Boot) (doc : ι → GatewaySettings) (σ : InFlight ι) {i : ι}
    (hi : σ.stage i = .received) :
    ∃ σ', Run (OrderlySteps boot doc) σ (.store i :: Cell.order.map fun _ => .write i) σ' ∧
      σ'.stored = some (doc i) ∧ σ'.process = applyGatewaySettings boot (doc i) ∧
      σ'.stage = Function.update σ.stage i (.applying []) := by
  obtain ⟨σ', hrun, hs, -, hp, hstage⟩ := run_writes boot doc
    { σ with
      stored := some (doc i)
      stage := Function.update σ.stage i (.applying Cell.order)
      storedBy := some i }
    Cell.order [] (Function.update_self ..) rfl
  refine ⟨σ', Run.cons ⟨Steps.store hi, trivial⟩ hrun, hs, ?_, ?_⟩
  · rw [hp, Cell.foldl_write_order]
  · simpa using hstage

/-- Served alone, an admitted request leaves the database row and the process that
`putSettings` leaves. -/
theorem run_alone_putSettings (boot : Boot) (doc : ι → GatewaySettings) (σ : InFlight ι) {i : ι} {codec : SettingsCodec} {g : Gateway} {body : Json}
    (hi : σ.stage i = .received) (hdb : boot.hasDatabase = true)
    (ha : admitSettings codec body = .ok (doc i)) :
    ∃ σ', Run (OrderlySteps boot doc) σ (.store i :: Cell.order.map fun _ => .write i) σ' ∧
      ({ process := σ'.process, row := σ'.stored.map codec.encode } : Gateway)
        = (putSettings boot codec g { body }).1 := by
  obtain ⟨σ', hrun, hs, hp, -⟩ := run_alone boot doc σ hi
  refine ⟨σ', hrun, ?_⟩
  rw [hs, hp]
  simp [putSettings, ha, saveGatewaySettings, hdb]

end System

/-- In every run of concurrent requests whose writes are all in order, once every request
has finished, the stored document and every value of the process come from one request, or
no document was stored and nothing has changed. -/
theorem settings_agree {ι : Type} [DecidableEq ι] (boot : Boot) (doc : ι → GatewaySettings)
    (stored : Option GatewaySettings) (p : Process) (steps : List (SettingsStep ι))
    (σ : InFlight ι) (hrun : Run (OrderlySteps boot doc) (arrived stored p) steps σ)
    (hdone : ∀ i, (σ.stage i).Finished) :
    Agreed boot doc σ ∨
      ((∀ i, σ.stage i = .failed) ∧ σ.stored = stored ∧ σ.process = p) := by
  have h : LatestKept boot doc stored p σ :=
    hrun.stateInvariant _ LatestKept.start fun _ _ _ hk hs => hk.step hs
  cases hj : σ.storedBy with
  | none =>
      obtain ⟨hs, hp, hno⟩ := h.untouched hj
      exact Or.inr ⟨fun i => (hdone i).resolve_left (hno i []), hs, hp⟩
  | some j =>
      obtain ⟨hs, rest, hrest, hsame⟩ := h.latest j hj
      obtain rfl : rest = [] := by
        rcases hdone j with hf | hf
        · rw [hrest] at hf
          exact Stage.applying.inj hf
        · rw [hrest] at hf
          cases hf
      exact Or.inl ⟨j, hs, Cell.eq_of_same fun c => hsame c List.not_mem_nil⟩

namespace Sample

/-- Payload capture switched on or off. -/
def switch (on : Bool) : GatewaySettings := { features := { payloadCapture := some on } }

theorem switch_valid (on : Bool) : (switch on).validate = .ok () := by
  cases on <;> rfl

end Sample

/-- Two requests, one after the other: the second one's document and values remain. -/
theorem settings_agree_sample :
    ∃ σ : InFlight Bool,
      Run (OrderlySteps Sample.boot Sample.switch) (arrived none (bootProcess Sample.boot))
        ((.store false :: Cell.order.map fun _ => .write false)
          ++ (.store true :: Cell.order.map fun _ => .write true)) σ ∧
      σ.stored = some (Sample.switch true) ∧
      (Agreed Sample.boot Sample.switch σ ∨ ((∀ i, σ.stage i = .failed) ∧
        σ.stored = none ∧ σ.process = bootProcess Sample.boot)) := by
  obtain ⟨σ₁, hrun₁, -, -, hstage₁⟩ := run_alone Sample.boot Sample.switch
    (arrived none (bootProcess Sample.boot)) (i := false) rfl
  obtain ⟨σ₂, hrun₂, hs₂, -, hstage₂⟩ := run_alone Sample.boot Sample.switch σ₁
    (i := true) (by simp [hstage₁, arrived])
  have hrun := hrun₁.append hrun₂
  refine ⟨σ₂, hrun, hs₂, ?_⟩
  refine settings_agree Sample.boot Sample.switch none _ _ σ₂ hrun ?_
  intro i
  left
  cases i
  · simp [hstage₂, hstage₁]
  · simp [hstage₂]

/-- One request has a value left to write when another stores its document and writes all
of its own; the first then writes its last value. Both finish, the stored document is the
second one's, and the overrides shown are the first one's. -/
theorem settings_torn :
    ∃ (steps : List (SettingsStep Bool)) (σ : InFlight Bool),
      (∀ i, (Sample.switch i).validate = .ok ()) ∧
      Run (Steps Sample.boot Sample.switch) (arrived none (bootProcess Sample.boot)) steps σ ∧
      (∀ i, (σ.stage i).Finished) ∧ σ.stored = some (Sample.switch true) ∧
      ¬Agreed Sample.boot Sample.switch σ := by
  -- the first request writes all but the overrides shown
  obtain ⟨σ₁, hrun₁, -, -, -, hstage₁⟩ := run_writes Sample.boot Sample.switch
    { arrived none (bootProcess Sample.boot) with
      stored := some (Sample.switch false)
      stage := Function.update (fun _ => .received) false (.applying Cell.order)
      storedBy := some false }
    Cell.order.dropLast [.gatewaySettings] (by simp [Cell.order]) rfl
  -- the second one is served in between
  obtain ⟨σ₂, hrun₂, hs₂, hp₂, hstage₂⟩ := run_alone Sample.boot Sample.switch σ₁
    (i := true) (by simp [hstage₁])
  have hlast : σ₂.stage false = .applying [.gatewaySettings] := by
    simp [hstage₂, hstage₁]
  have hrun := (Run.cons ⟨Steps.store rfl, trivial⟩ hrun₁).append hrun₂
  have htorn := (hrun.mono fun _ _ _ h => h.1).snoc (Steps.write hlast)
  refine ⟨_, _, Sample.switch_valid, htorn, ?_, hs₂, ?_⟩
  · intro i
    left
    cases i
    · simp
    · simp [hstage₂]
  · rintro ⟨i, hi, hp⟩
    have hdoc : Sample.switch true = Sample.switch i := Option.some.inj (hs₂.symm.trans hi)
    have hshown : Sample.switch false = Sample.switch i := congrArg Process.gatewaySettings hp
    have : some false = some true :=
      congrArg (fun s => s.features.payloadCapture) (hshown.trans hdoc.symm)
    cases this

end AuraGateway.Settings
