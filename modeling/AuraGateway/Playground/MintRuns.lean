import AuraGateway.Playground.MintKey

/-!
# Concurrent mints

In every run of any number of calls, for any users, with any failures: the stage of a call
determines what its transaction has inserted (`StageSession`), so everything committed is
pairs of a key and the `user_api_key` row that names it (`Minted`), and no two pairs are of
one user. From it follow the guarantees of `mint_safe`: a user has at most one row, no
other key inserted for the user is left, and a committed key is what every later
`getUserApiKey` returns.
-/

set_option autoImplicit false

namespace AuraGateway.Playground

open AuraGateway.Types AuraGateway.Storage AuraGateway.Auth
open AuraGateway.Foundations.LabelledRuns AuraGateway.Foundations.UniqueInserts

universe v

variable {ι : Type v} [DecidableEq ι]

/-! ## Stages and sessions -/

/-- What the session of a call holds at each stage. -/
def StageSession : Stage → Session Row → Prop
  | .insertApiKey _, x => x = .opened []
  | .insertUserApiKey m, x => ∃ id now, x = .opened [.apiKey (m.apiKeyRow id now)]
  | .commit m, x =>
      ∃ id now, x = .opened [.apiKey (m.apiKeyRow id now), .userApiKey m.userApiKey]
  | .rollbackLostRace, x => ∃ rows, x = .opened rows
  | .rollbackFailed, _ => True
  | .returned, x | .threw, x | .killed, x => x = .idle ∨ ∃ rows, x = .lost rows
  | _, x => x = .idle

theorem stageSession_afterSession (session : Option SessionUser) :
    StageSession (.afterSession session) .idle := by
  cases session with
  | none => exact Or.inl rfl
  | some user =>
      simp only [Stage.afterSession]
      split
      · exact Or.inl rfl
      · rfl

theorem stageSession_afterPreCheck (user : SessionUser) (generated : GeneratedApiKey)
    (rows : List Row) : StageSession (.afterPreCheck user generated rows) .idle := by
  simp only [Stage.afterPreCheck]
  split
  · rfl
  · exact Or.inl rfl

/-- A call that has not ended and sends no statement holds nothing. -/
theorem StageSession.idle {x : Stage} {session : Session Row} (h : StageSession x session)
    (hnone : ∀ id now, x.statement id now = none) (hrunning : x.ended = false) :
    session = .idle := by
  cases x with
  | getSession => exact h
  | preCheck user => exact h
  | getPlaygroundOrgId user generated => exact h
  | connect m => exact h
  | begin m => exact h
  | insertApiKey m => exact absurd (hnone 0 0) (by simp [Stage.statement])
  | insertUserApiKey m => exact absurd (hnone 0 0) (by simp [Stage.statement])
  | commit m => exact absurd (hnone 0 0) (by simp [Stage.statement])
  | rollbackLostRace => exact absurd (hnone 0 0) (by simp [Stage.statement])
  | rollbackFailed => exact absurd (hnone 0 0) (by simp [Stage.statement])
  | returned => cases hrunning
  | threw => cases hrunning
  | killed => cases hrunning

variable {s s' t : State ι} {store : Store ι Row} {i : ι} {st : Statement Row} {e : Effect}
variable {id : Uuid} {now : Int}

/-- A statement and the step of the call on its effect go together. -/
theorem StageSession.after {x : Stage} (h : StageSession x (s.store.session i))
    (hst : x.statement id now = some st) (hexec : Exec Row.key s.store i st e store) :
    StageSession (x.after e) (store.session i) := by
  -- over the stages that send a statement, then over what the statement can do
  cases x with
  | begin m =>
      cases hst
      cases hexec with
      | begin _ => exact Store.session_setSession_self _ _ _
      | refuse _ => trivial
  | insertApiKey m =>
      cases hst
      cases hexec with
      | insert hopen _ _ =>
          obtain rfl := Session.opened.inj (hopen.symm.trans h)
          exact ⟨id, now, Store.session_setSession_self _ _ _⟩
      | refuse _ => trivial
  | insertUserApiKey m =>
      cases hst
      obtain ⟨id', now', hrows⟩ := h
      cases hexec with
      | insertOrSkip hopen _ _ =>
          obtain rfl := Session.opened.inj (hopen.symm.trans hrows)
          exact ⟨id', now', Store.session_setSession_self _ _ _⟩
      | skip hopen _ _ => exact ⟨_, hopen⟩
      | refuse _ => trivial
  | commit m =>
      cases hst
      obtain ⟨id', now', hrows⟩ := h
      cases hexec with
      | commit _ => exact Or.inl (Store.session_commitSession_self _ _)
      | commitAborted haborted =>
          rw [hrows] at haborted
          cases haborted
      | refuse _ => trivial
  | rollbackLostRace =>
      cases hst
      cases hexec with
      | rollback _ => exact Or.inl (Store.session_setSession_self _ _ _)
      | refuse _ => trivial
  | rollbackFailed =>
      cases hst
      cases hexec with
      | rollback _ => exact Or.inl (Store.session_setSession_self _ _ _)
      | refuse hlost =>
          -- a rollback fails only with its connection
          obtain ⟨rows, hrows⟩ := hlost rfl
          refine Or.inr ⟨rows, ?_⟩
          rw [Store.session_setSession_self, hrows]
          rfl
  | _ => cases hst

/-- A call that does not hear of its statement goes on with its connection lost. -/
theorem stageSession_unheard {x : Stage} (hst : x.statement id now = some st) :
    StageSession (x.after .refused) ((store.lose i).session i) := by
  have hlost : (store.lose i).session i = .lost (store.session i).pending :=
    Store.session_setSession_self _ _ _
  cases x with
  | rollbackFailed => exact Or.inr ⟨_, hlost⟩
  | begin m => trivial
  | insertApiKey m => trivial
  | insertUserApiKey m => trivial
  | commit m => trivial
  | rollbackLostRace => trivial
  | _ => cases hst

omit [DecidableEq ι] in
/-- The server ending the transaction of a lost connection does not concern the stage. -/
theorem StageSession.reap {x : Stage} {rows : List Row} (h : StageSession x (.lost rows)) :
    StageSession x (.lost []) := by
  cases x with
  | rollbackFailed => trivial
  | returned => exact Or.inr ⟨[], rfl⟩
  | threw => exact Or.inr ⟨[], rfl⟩
  | killed => exact Or.inr ⟨[], rfl⟩
  | insertUserApiKey m =>
      obtain ⟨id, now, hrows⟩ := h
      cases hrows
  | commit m =>
      obtain ⟨id, now, hrows⟩ := h
      cases hrows
  | rollbackLostRace =>
      obtain ⟨rows', hrows⟩ := h
      cases hrows
  | _ => cases h

/-- Only a call at its last statement commits, and then both of its rows. -/
theorem committed_of_exec {x : Stage} (h : StageSession x (s.store.session i))
    (hst : x.statement id now = some st) (hexec : Exec Row.key s.store i st e store) :
    store.committed = s.store.committed ∨
      ∃ m id' now', x = .commit m ∧ store.committed
        = s.store.committed ++ [.apiKey (m.apiKeyRow id' now'), .userApiKey m.userApiKey] := by
  rcases hexec.committed_cases with hsame | ⟨rfl, -, rows, hopen, hrows⟩
  · exact Or.inl hsame
  · right
    cases x with
    | commit m =>
        obtain ⟨id', now', hsession⟩ := h
        obtain rfl := Session.opened.inj (hopen.symm.trans hsession)
        exact ⟨m, id', now', rfl, hrows⟩
    | _ => cases hst

/-! ## What is committed -/

/-- A committed mint, with the values the database chose. -/
structure Minted where
  mint : Mint
  id : Uuid
  now : Int

namespace Minted

variable (c : Minted)

def apiKey : ApiKey := c.mint.apiKeyRow c.id c.now

def rows : List Row := [.apiKey c.apiKey, .userApiKey c.mint.userApiKey]

end Minted

/-- Whatever the calls have done: keys are unique, each session is as its stage says, and
pairs of rows are all that was committed since. -/
structure Consistent (start s : State ι) : Prop where
  unique : Unique Row.key s.store
  sessions : ∀ i, StageSession (s.stage i) (s.store.session i)
  committed : ∃ minted : List Minted,
    s.store.committed = start.store.committed ++ minted.flatMap Minted.rows

variable {start : State ι} {userId : String} {sha256Hex : String → String} {ev : Event ι}

omit [DecidableEq ι] in
theorem Fresh.consistent (h : Fresh userId start) : Consistent start start where
  unique := Unique.of_idle h.sessions h.unique
  sessions i := by
    rw [h.stages i]
    exact h.sessions i
  committed := ⟨[], (List.append_nil _).symm⟩

/-- A step of one call leaves the stages and the sessions of the others. -/
theorem stageSession_update (hothers : ∀ j, j ≠ i → store.session j = s.store.session j) {x : Stage}
    (hsession : StageSession x (store.session i))
    (h : ∀ j, StageSession (s.stage j) (s.store.session j)) (j : ι) :
    StageSession (({ s with store }.setStage i x : State ι).stage j) (store.session j) := by
  by_cases hj : j = i
  · subst hj
    rw [State.stage_setStage_self]
    exact hsession
  · rw [State.stage_setStage_of_ne _ _ _ _ hj, hothers j hj]
    exact h j

theorem Store.session_lose_of_ne {j : ι} (hj : j ≠ i) : (store.lose i).session j = store.session j :=
  Store.session_setSession_of_ne _ _ _ _ hj

namespace Consistent

theorem setStage (h : Consistent start s) {x : Stage} (hx : StageSession x (s.store.session i)) :
    Consistent start (s.setStage i x) where
  unique := h.unique
  sessions := stageSession_update (fun _ _ => rfl) hx h.sessions
  committed := h.committed

theorem committed_exec (h : Consistent start s) (hst : (s.stage i).statement id now = some st)
    (hexec : Exec Row.key s.store i st e store) :
    ∃ minted : List Minted, store.committed = start.store.committed ++ minted.flatMap Minted.rows := by
  obtain ⟨minted, hminted⟩ := h.committed
  rcases committed_of_exec (h.sessions i) hst hexec with hsame | ⟨m, id', now', -, hrows⟩
  · exact ⟨minted, hsame.trans hminted⟩
  · refine ⟨minted ++ [⟨m, id', now'⟩], ?_⟩
    rw [hrows, hminted, List.flatMap_append, List.append_assoc]
    rfl

/-- Every step of every call keeps it. -/
theorem step (h : Consistent start s) (hstep : Step sha256Hex s ev s') : Consistent start s' := by
  cases hstep with
  | @getSession i hstage session =>
      have hidle := h.sessions i
      rw [hstage] at hidle
      apply h.setStage
      rw [hidle]
      exact stageSession_afterSession session
  | @preCheck i user hstage random =>
      have hidle := h.sessions i
      rw [hstage] at hidle
      apply h.setStage
      rw [hidle]
      exact stageSession_afterPreCheck _ _ _
  | @getPlaygroundOrgId i user generated hstage organizationId =>
      have hidle := h.sessions i
      rw [hstage] at hidle
      exact h.setStage hidle
  | @connect i m hstage =>
      have hidle := h.sessions i
      rw [hstage] at hidle
      exact h.setStage hidle
  | prepareFailed hnone hrunning =>
      exact h.setStage (Or.inl ((h.sessions _).idle hnone hrunning))
  | ran hst hexec =>
      exact
        { unique := h.unique.exec hexec
          sessions := stageSession_update (fun _ hj => hexec.other hj)
            ((h.sessions _).after hst hexec) h.sessions
          committed := h.committed_exec hst hexec }
  | unheard hst hexec =>
      -- the loss of the connection leaves what the statement committed
      have hcommitted := h.committed_exec hst hexec
      exact
        { unique := (h.unique.exec hexec).lose
          sessions := stageSession_update
            (fun _ hj => (Store.session_lose_of_ne hj).trans (hexec.other hj))
            (stageSession_unheard hst) h.sessions
          committed := hcommitted }
  | killed _ =>
      exact
        { unique := h.unique.lose
          sessions := stageSession_update (fun _ hj => Store.session_lose_of_ne hj)
            (Or.inr ⟨_, Store.session_setSession_self _ _ _⟩) h.sessions
          committed := h.committed }
  | @reaped i rows hlost =>
      refine { unique := h.unique.reap, sessions := ?_, committed := h.committed }
      intro j
      by_cases hj : j = i
      · subst hj
        have hsession := h.sessions j
        rw [hlost] at hsession
        show StageSession (s.stage j) ((s.store.reap j).session j)
        rw [Store.reap, Store.session_setSession_self]
        exact hsession.reap
      · show StageSession (s.stage j) ((s.store.reap i).session j)
        rw [Store.reap, Store.session_setSession_of_ne _ _ _ _ hj]
        exact h.sessions j

/-- Every run keeps it. -/
theorem run (h : Consistent start s) {evs : List (Event ι)}
    (hrun : Run (Step sha256Hex) s evs t) : Consistent start t := by
  apply hrun.stateInvariant (Consistent start) h
  intro a ev b ha hstep
  exact ha.step hstep

end Consistent

/-! ## The rows of a user -/

section Tables

variable (rows more : List Row)

theorem userApiKeys_append :
    userApiKeys userId (rows ++ more) = userApiKeys userId rows ++ userApiKeys userId more := by
  rw [userApiKeys, List.filterMap_append, List.filter_append]
  rfl

theorem mem_userApiKeys {k : UserApiKey} :
    k ∈ userApiKeys userId rows ↔ .userApiKey k ∈ rows ∧ k.userId = userId := by
  rw [userApiKeys, List.mem_filter, List.mem_filterMap, beq_iff_eq]
  constructor
  · rintro ⟨⟨row, hrow, hk⟩, huser⟩
    cases row with
    | apiKey k' => cases hk
    | userApiKey k' =>
        obtain rfl := Option.some.inj hk
        exact ⟨hrow, huser⟩
  · rintro ⟨hrow, huser⟩
    exact ⟨⟨_, hrow, rfl⟩, huser⟩

theorem mem_apiKeys {k : ApiKey} : k ∈ apiKeys rows ↔ .apiKey k ∈ rows := by
  rw [apiKeys, List.mem_filterMap]
  constructor
  · rintro ⟨row, hrow, hk⟩
    cases row with
    | apiKey k' =>
        obtain rfl := Option.some.inj hk
        exact hrow
    | userApiKey k' => cases hk
  · intro hrow
    exact ⟨_, hrow, rfl⟩

variable {rows}

/-- With unique keys a user has one row at most. -/
theorem userApiKeys_eq_singleton (hunique : (rows.map Row.key).Nodup) {k : UserApiKey}
    (hk : .userApiKey k ∈ rows) : userApiKeys k.userId rows = [k] := by
  -- the rows before and after it are of other users
  obtain ⟨pre, post, rfl⟩ := List.append_of_mem hk
  rw [List.map_append, List.map_cons, List.nodup_middle] at hunique
  have hother : ∀ k', .userApiKey k' ∈ pre ++ post → k'.userId ≠ k.userId := by
    intro k' hk' huser
    apply (List.nodup_cons.mp hunique).1
    rw [← List.map_append]
    refine List.mem_map.mpr ⟨_, hk', ?_⟩
    exact congrArg RowKey.userId huser
  have hnone : ∀ part, part ⊆ pre ++ post → userApiKeys k.userId part = [] := by
    intro part hpart
    rw [List.eq_nil_iff_forall_not_mem]
    intro k' hk'
    obtain ⟨hmem, huser⟩ := (mem_userApiKeys part).mp hk'
    exact hother k' (hpart hmem) huser
  rw [userApiKeys_append, hnone pre (List.subset_append_left _ _), List.nil_append,
    ← List.singleton_append, userApiKeys_append, hnone post (List.subset_append_right _ _),
    List.append_nil]
  simp [userApiKeys, Row.asUserApiKey]

end Tables

namespace Consistent

omit [DecidableEq ι] in
theorem userApiKeys_length_le (h : Consistent start s) :
    (userApiKeys userId s.store.committed).length ≤ 1 := by
  rcases hkeys : userApiKeys userId s.store.committed with _ | ⟨k, rest⟩
  · exact Nat.zero_le _
  · obtain ⟨hmem, huser⟩ :=
      (mem_userApiKeys s.store.committed).mp (hkeys ▸ List.mem_cons_self .. : k ∈ userApiKeys userId _)
    have hone := userApiKeys_eq_singleton h.unique.committed hmem
    rw [huser, hkeys] at hone
    rw [hone]
    exact Nat.le_refl _

omit [DecidableEq ι] in
/-- A key that was not there at the start is named by the only row of its user. -/
theorem named (h : Consistent start s) {k : ApiKey} (hk : k ∈ apiKeys s.store.committed)
    (hnew : k ∉ apiKeys start.store.committed) (huser : k.userId = some userId) :
    ∃ named, userApiKeys userId s.store.committed = [named] ∧ named.apiKeyId = k.keyId := by
  obtain ⟨minted, hminted⟩ := h.committed
  rw [mem_apiKeys] at hk hnew
  have hmem := hk
  rw [hminted, List.mem_append] at hmem
  obtain ⟨c, hc, hrow⟩ := List.mem_flatMap.mp (hmem.resolve_left hnew)
  -- of the two rows of a mint the first is the key
  have hkey : k = c.apiKey := by
    rcases List.mem_cons.mp hrow with heq | hrow
    · exact Row.apiKey.inj heq
    · cases List.mem_singleton.mp hrow
  subst hkey
  have hid : c.mint.user.id = userId := Option.some.inj huser
  -- the second is the row that names it
  have hnaming : .userApiKey c.mint.userApiKey ∈ s.store.committed := by
    rw [hminted]
    refine List.mem_append_right _ (List.mem_flatMap.mpr ⟨c, hc, ?_⟩)
    exact List.mem_cons_of_mem _ (List.mem_cons_self ..)
  refine ⟨c.mint.userApiKey, ?_, rfl⟩
  rw [← hid]
  exact userApiKeys_eq_singleton h.unique.committed hnaming

end Consistent

/-! ## Committed keys stay -/

/-- Committed rows stay committed. -/
theorem Step.committed_prefix (h : Step sha256Hex s ev s') :
    s.store.committed <+: s'.store.committed := by
  have hexec : ∀ {i st e} {store : Store ι Row}, Exec Row.key s.store i st e store →
      s.store.committed <+: store.committed := by
    intro i st e store hexec
    rcases hexec.committed_cases with hsame | ⟨-, -, rows, -, hrows⟩
    · rw [hsame]
    · rw [hrows]
      exact List.prefix_append _ _
  cases h with
  | ran _ h => exact hexec h
  | unheard _ h =>
      have hprefix := hexec h
      exact hprefix
  | _ => exact List.prefix_rfl

theorem committed_prefix_of_run {evs : List (Event ι)} (h : Run (Step sha256Hex) s evs t) :
    s.store.committed <+: t.store.committed := by
  apply h.stateInvariant (fun u => s.store.committed <+: u.store.committed) List.prefix_rfl
  intro a ev b ha hstep
  exact ha.trans hstep.committed_prefix

theorem getUserApiKey_of_mem {rows : List Row} (hunique : (rows.map Row.key).Nodup)
    {k : UserApiKey} (hk : .userApiKey k ∈ rows) :
    getUserApiKey k.userId rows = some k.apiKeySecret := by
  rw [getUserApiKey, userApiKeys_eq_singleton hunique hk]
  rfl

/-- A commit that took effect is of a call at its last statement, whose row is then there,
whether the call heard of it or not. -/
theorem Consistent.committed_row (h : Consistent start s) {heard : Bool}
    (hstep : Step sha256Hex s (.ran i .commit .done heard) s') :
    ∃ m, s.stage i = .commit m ∧ .userApiKey m.userApiKey ∈ s'.store.committed := by
  have hrow : ∀ {id now} {store : Store ι Row}, (s.stage i).statement id now = some .commit →
      Exec Row.key s.store i .commit .done store →
      ∃ m, s.stage i = .commit m ∧ .userApiKey m.userApiKey ∈ store.committed := by
    intro id now store hst hexec
    have hsession := h.sessions i
    rcases hstage : s.stage i with _ | _ | _ | _ | _ | _ | _ | m | _ | _ | _ | _ | _ <;>
      rw [hstage] at hst hsession <;> try cases hst
    obtain ⟨id', now', hopen⟩ := hsession
    refine ⟨m, rfl, ?_⟩
    cases hexec with
    | commit _ =>
        rw [Store.committed_commitSession, hopen]
        exact List.mem_append_right _ (List.mem_cons_of_mem _ (List.mem_cons_self ..))
    | commitAborted haborted =>
        rw [hopen] at haborted
        cases haborted
  cases hstep with
  | ran hst hexec => exact hrow hst hexec
  | unheard hst hexec =>
      have h := hrow hst hexec
      exact h

/-- Nothing is left open on a connection that an ended call gives back: it is outside a
transaction, or lost. -/
theorem released_session (hfresh : Fresh userId start) {evs : List (Event ι)}
    (hrun : Run (Step sha256Hex) start evs s) (hended : (s.stage i).ended = true) :
    s.store.session i = .idle ∨ ∃ rows, s.store.session i = .lost rows := by
  have hsession := (hfresh.consistent.run hrun).sessions i
  cases hstage : s.stage i with
  | returned =>
      rw [hstage] at hsession
      exact hsession
  | threw =>
      rw [hstage] at hsession
      exact hsession
  | killed =>
      rw [hstage] at hsession
      exact hsession
  | _ =>
      rw [hstage] at hended
      cases hended

/-- For every run of any number of calls from a state in which the user has no key: the
user has at most one `user_api_key` row; every key that the calls have inserted for the
user is the one that row names; and once a call for the user has committed, every later
`getUserApiKey` returns its key. -/
theorem mint_safe (sha256Hex : String → String) (userId : String) (start : State ι)
    (hfresh : Fresh userId start) :
    (∀ evs s, Run (Step sha256Hex) start evs s →
      (userApiKeys userId s.store.committed).length ≤ 1 ∧
      ∀ k ∈ apiKeys s.store.committed, k ∉ apiKeys start.store.committed →
        k.userId = some userId →
        ∃ named, userApiKeys userId s.store.committed = [named] ∧ named.apiKeyId = k.keyId) ∧
    ∀ evs s i heard s', Run (Step sha256Hex) start evs s →
      Step sha256Hex s (.ran i .commit .done heard) s' →
      ∃ m, s.stage i = .commit m ∧
        (m.user.id = userId → ∀ later t, Run (Step sha256Hex) s' later t →
          getUserApiKey userId t.store.committed = some m.generated.key) := by
  constructor
  · intro evs s hrun
    have h := hfresh.consistent.run hrun
    refine ⟨h.userApiKeys_length_le, ?_⟩
    intro k hk hnew huser
    exact h.named hk hnew huser
  · intro evs s i heard s' hrun hstep
    have h := hfresh.consistent.run hrun
    obtain ⟨m, hstage, hrow⟩ := h.committed_row hstep
    refine ⟨m, hstage, ?_⟩
    rintro rfl later t hlater
    have hunique := ((h.step hstep).run hlater).unique.committed
    exact getUserApiKey_of_mem hunique ((committed_prefix_of_run hlater).subset hrow)

namespace Sample

def user : SessionUser := { id := "u1", email := "u1@example.org", name := "" }

/-- Two calls have been made and nothing has been stored. -/
def twoCalls : State Bool where
  store := { committed := [], session := fun _ => .idle }
  stage := fun _ => .getSession

def random : List UInt8 := List.replicate 32 7

/-- Any function will do as the hash. -/
def hash (key : String) : String := key

def mint : Mint := { user, generated := generateApiKey hash random, organizationId := 1 }

theorem fresh : Fresh "u1" twoCalls where
  stages _ := rfl
  sessions _ := rfl
  unique := List.nodup_nil
  none := rfl

/-- No one else holds a key uncommitted. -/
theorem unlocked {s : Store Bool Row} (h : s.session false = .idle) (k : RowKey) :
    s.Unlocked Row.key true k := by
  intro j hj hk
  cases j with
  | true => exact hj rfl
  | false =>
      rw [h] at hk
      cases hk

/-- The first call comes to its commit. -/
theorem run_to_commit :
    ∃ evs s, Run (Step hash) twoCalls evs s ∧ s.stage true = .commit mint ∧
      s.store.session true
        = .opened [.apiKey (mint.apiKeyRow 1 0), .userApiKey mint.userApiKey] := by
  have h₁ : Run (Step hash) twoCalls _ (twoCalls.setStage true (.preCheck user)) :=
    Run.nil.snoc (.getSession rfl (some user))
  have h₂ : Run (Step hash) twoCalls _ _ := h₁.snoc (.preCheck (i := true) rfl random)
  have h₃ : Run (Step hash) twoCalls _ _ := h₂.snoc (.getPlaygroundOrgId (i := true) rfl 1)
  have h₄ : Run (Step hash) twoCalls _ _ := h₃.snoc (.connect (i := true) (m := mint) rfl)
  have h₅ : Run (Step hash) twoCalls _ _ :=
    h₄.snoc (@Step.ran Bool _ hash _ true 1 0 .begin .done _ rfl (.begin rfl))
  have h₆ : Run (Step hash) twoCalls _ _ :=
    h₅.snoc (@Step.ran Bool _ hash _ true 1 0 (.insert (.apiKey (mint.apiKeyRow 1 0))) .done _
      rfl (.insert rfl (unlocked rfl _)
        (by simp [Store.visible, Session.pending, twoCalls])))
  have h₇ : Run (Step hash) twoCalls _ _ :=
    h₆.snoc (@Step.ran Bool _ hash _ true 1 0 (.insertOrSkip (.userApiKey mint.userApiKey)) .done _
      rfl (.insertOrSkip rfl (unlocked rfl _)
        (by simp [Store.visible, Session.pending, twoCalls, Row.key])))
  exact ⟨_, _, h₇, rfl, rfl⟩

end Sample

/-- A call commits, and its key is found. -/
theorem mint_safe_sample :
    ∃ evs s s', Run (Step Sample.hash) Sample.twoCalls evs s ∧
      Step Sample.hash s (.ran true .commit .done true) s' ∧
      getUserApiKey "u1" s'.store.committed = some Sample.mint.generated.key := by
  obtain ⟨evs, s, hrun, hstage, hopen⟩ := Sample.run_to_commit
  have hst : (s.stage true).statement 1 0 = some .commit := by
    rw [hstage]
    rfl
  have hstep : Step Sample.hash s (.ran true .commit .done true) _ := .ran hst (.commit hopen)
  obtain ⟨m, hm, hkey⟩ :=
    (mint_safe Sample.hash "u1" Sample.twoCalls Sample.fresh).2 evs s true true _ hrun hstep
  obtain rfl := Stage.commit.inj (hm.symm.trans hstage)
  exact ⟨evs, s, _, hrun, hstep, hkey rfl [] _ .nil⟩

end AuraGateway.Playground
