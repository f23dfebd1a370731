import AuraGateway.Scraper.FamilyKey

/-!
# The pricing writer

One provider's scraped rows are written to `model_pricing` with versioning. The writer
reads the provider's open rows once, partitions them into families and matches every
scraped row by family: a row of no family is inserted, a row whose price moved replaces the
newest open row of its family, and the other open rows of a family are closed.

What the writer does is a list of writes, decided before the first one is made. A write is
one statement or one transaction.

Prices are whole millionths of a dollar: the scraper rounds them to six places, and the
table keeps six.
-/

set_option autoImplicit false

namespace AuraGateway.Scraper

open AuraGateway.JsStd

/-! ## Rows -/

inductive RowStatus where
  | success
  | needsReview
  | failed
  deriving DecidableEq

def RowStatus.text : RowStatus → String
  | .success => "success"
  | .needsReview => "needs_review"
  | .failed => "failed"

/-- A row every provider mapper produces. -/
structure ScrapedPrice where
  provider : String
  modelId : String
  modelName : String
  inputPerMillion : Int
  outputPerMillion : Int
  cachedInputPerMillion : Option Int
  reasoningPerMillion : Option Int
  batchInputPerMillion : Option Int
  batchOutputPerMillion : Option Int
  contextWindow : Option Int
  maxOutputTokens : Option Int
  capabilities : Option (List String)
  goodAt : Option String
  sourceUrl : String
  reasoning : Option String
  status : RowStatus
  failureReason : Option String
  deriving DecidableEq

/-- A row of `model_pricing`. It is open while `effectiveUntil` is null. -/
structure PricingRow where
  id : Nat
  providerId : Nat
  modelId : String
  modelName : String
  inputPerMillion : Int
  outputPerMillion : Int
  cachedInputPerMillion : Option Int
  reasoningPerMillion : Option Int
  batchInputPerMillion : Option Int
  batchOutputPerMillion : Option Int
  contextWindow : Option Int
  maxOutputTokens : Option Int
  capabilities : Option (List String)
  goodAt : Option String
  effectiveFrom : Nat
  effectiveUntil : Option Nat
  createdAt : Nat
  deriving DecidableEq

inductive ChangeKind where
  | insert
  | version
  | unchanged
  | flagged
  deriving DecidableEq

structure AfterPrices where
  inputPerMillion : Int
  outputPerMillion : Int
  batchInputPerMillion : Option Int
  batchOutputPerMillion : Option Int
  deriving DecidableEq

/-- One entry of the diff. `before` holds the input and the output price. -/
structure PriceChange where
  modelId : String
  kind : ChangeKind
  before : Option (Int × Int) := none
  after : Option AfterPrices := none
  sourceUrl : Option String := none
  reasoning : Option String := none
  note : Option String := none
  deriving DecidableEq

/-! ## The table -/

/-- `UNIQUE(provider_id, model_id, effective_from)`. -/
def PricingRow.versionKey (r : PricingRow) : Nat × String × Nat :=
  (r.providerId, r.modelId, r.effectiveFrom)

/-- The columns hold the row: `VARCHAR(100)`, `VARCHAR(200)`, `DECIMAL(10, 6)` and `INT`. -/
def PricingRow.Fits (r : PricingRow) : Prop :=
  r.modelId.length ≤ 100 ∧ r.modelName.length ≤ 200
    ∧ (∀ p ∈ r.inputPerMillion :: r.outputPerMillion ::
        (r.cachedInputPerMillion.toList ++ r.reasoningPerMillion.toList), p.natAbs < 10 ^ 10)
    ∧ ∀ n ∈ r.contextWindow.toList ++ r.maxOutputTokens.toList, -2 ^ 31 ≤ n ∧ n < 2 ^ 31

instance (r : PricingRow) : Decidable r.Fits :=
  inferInstanceAs (Decidable (_ ∧ _ ∧ _ ∧ _))

/-- `model_pricing` under its constraints. -/
structure PricingTable where
  rows : List PricingRow
  ids_nodup : (rows.map PricingRow.id).Nodup
  versions_nodup : (rows.map PricingRow.versionKey).Nodup

namespace PricingTable

/-- `UPDATE model_pricing SET effective_until = NOW() WHERE id = ANY(ids)`. -/
def close (t : PricingTable) (now : Nat) (ids : List Nat) : PricingTable where
  rows := t.rows.map fun r => if r.id ∈ ids then { r with effectiveUntil := some now } else r
  ids_nodup := by
    have hids : PricingRow.id ∘ (fun r =>
        if r.id ∈ ids then { r with effectiveUntil := some now } else r) = PricingRow.id := by
      funext r
      simp only [Function.comp]
      split <;> rfl
    rw [List.map_map, hids]
    exact t.ids_nodup
  versions_nodup := by
    have hkeys : PricingRow.versionKey ∘ (fun r =>
        if r.id ∈ ids then { r with effectiveUntil := some now } else r)
          = PricingRow.versionKey := by
      funext r
      simp only [Function.comp]
      split <;> rfl
    rw [List.map_map, hkeys]
    exact t.versions_nodup

/-- `INSERT INTO model_pricing`: refused where a key is taken or a value does not fit. -/
def insert (t : PricingTable) (r : PricingRow) : Option PricingTable :=
  if h : (r.id ∉ t.rows.map PricingRow.id
      ∧ r.versionKey ∉ t.rows.map PricingRow.versionKey) ∧ r.Fits then
    some {
      rows := t.rows ++ [r]
      ids_nodup := by
        simpa [List.nodup_append, List.map_append] using ⟨t.ids_nodup, by simpa using h.1.1⟩
      versions_nodup := by
        simpa [List.nodup_append, List.map_append] using ⟨t.versions_nodup, by simpa using h.1.2⟩
    }
  else none

/-- The open rows of a provider. -/
def openRows (t : PricingTable) (providerId : Nat) : List PricingRow :=
  t.rows.filter fun r => r.providerId = providerId ∧ r.effectiveUntil = none

end PricingTable

/-- `b` may follow `a` in `ORDER BY effective_from DESC, created_at DESC`. -/
def PricingRow.NotNewer (a b : PricingRow) : Prop :=
  b.effectiveFrom < a.effectiveFrom
    ∨ b.effectiveFrom = a.effectiveFrom ∧ b.createdAt ≤ a.createdAt

instance (a b : PricingRow) : Decidable (a.NotNewer b) :=
  inferInstanceAs (Decidable (_ ∨ _))

/-- What the query for the open rows may return. The order of ties is left to the database. -/
structure PricingTable.Selected (t : PricingTable) (providerId : Nat) (rows : List PricingRow) :
    Prop where
  perm : rows.Perm (t.openRows providerId)
  newestFirst : rows.Pairwise PricingRow.NotNewer

/-! ## Deduplication -/

variable (table : CaseTable)

/-- The keys of a scraped row. -/
def ScrapedPrice.keys (s : ScrapedPrice) (provider : String) : List String :=
  familyKeys table s.modelId (some s.modelName) (some provider)

structure Deduped where
  seen : List String
  rows : List ScrapedPrice
  dropped : List PriceChange

def duplicateChange (row : ScrapedPrice) : PriceChange where
  modelId := row.modelId
  kind := .unchanged
  note := some "duplicate row for this model on the pricing page; first occurrence kept"
  sourceUrl := some row.sourceUrl
  reasoning := row.reasoning

def dedupeStep (d : Deduped) (row : ScrapedPrice) : Deduped :=
  let keys := if row.status = .success then row.keys table row.provider else []
  if keys.any d.seen.contains then { d with dropped := d.dropped ++ [duplicateChange row] }
  else { d with seen := d.seen ++ keys, rows := d.rows ++ [row] }

/-- Drops repeat `success` rows for one family within one scrape; the first one is kept. -/
def dedupeScrapedRows (rows : List ScrapedPrice) : Deduped :=
  rows.foldl (dedupeStep table) ⟨[], [], []⟩

/-! ## The plan of a run -/

/-- A price is changed if input, output or cached input moved. -/
def pricesDiffer (cur : PricingRow) (next : ScrapedPrice) : Bool :=
  cur.inputPerMillion != next.inputPerMillion
    || cur.outputPerMillion != next.outputPerMillion
    || cur.cachedInputPerMillion != next.cachedInputPerMillion

/-- The atomic writes: closing rows, `insertRow`, and `versionRow`, which closes a row and
inserts its replacement in one transaction. An inserted row is a scraped row under a model
id. -/
inductive Write where
  | close (ids : List Nat)
  | insertRow (modelId : String) (row : ScrapedPrice)
  | versionRow (current : Nat) (modelId : String) (row : ScrapedPrice)
  deriving DecidableEq

/-- The accumulators of a run. -/
structure Progress where
  upserted : Nat
  unchanged : Nat
  flagged : Nat
  changes : List PriceChange
  touched : List (List PricingRow)
  writes : List Write

/-- A write that a dry run leaves out. -/
def Progress.write (p : Progress) (dryRun : Bool) (w : Write) : Progress :=
  if dryRun then p else { p with writes := p.writes ++ [w] }

def PricingRow.keys (r : PricingRow) (provider : String) : List String :=
  familyKeys table r.modelId (some r.modelName) (some provider)

def families (open' : List PricingRow) (provider : String) : List (List PricingRow) :=
  groupByFamily table PricingRow.modelId (fun r => some r.modelName) open' (some provider)

/-- The map from keys to families; a later entry overwrites an earlier one. -/
def familyByKey (fs : List (List PricingRow)) (provider : String) :
    List (String × List PricingRow) :=
  fs.foldl (fun m family => family.foldl (fun m r =>
    (r.keys table provider).foldl (fun m k => (k, family) :: m) m) m) []

/-- The family of a scraped row: that of the first of its keys which has one. -/
def familyOf (fs : List (List PricingRow)) (provider : String) (row : ScrapedPrice) :
    List PricingRow :=
  ((row.keys table provider).findSome? fun k => (familyByKey table fs provider).lookup k).getD []

def flaggedChange (row : ScrapedPrice) : PriceChange where
  modelId := row.modelId
  kind := .flagged
  note := some (row.failureReason.getD row.status.text)
  sourceUrl := some row.sourceUrl
  reasoning := row.reasoning

def afterPrices (row : ScrapedPrice) : AfterPrices :=
  ⟨row.inputPerMillion, row.outputPerMillion, row.batchInputPerMillion, row.batchOutputPerMillion⟩

def insertChange (row : ScrapedPrice) : PriceChange where
  modelId := row.modelId
  kind := .insert
  after := some (afterPrices row)
  sourceUrl := some row.sourceUrl
  reasoning := row.reasoning

/-- The note about the duplicates closed with a row. -/
def staleNote (stale : List PricingRow) : Option String :=
  if stale.isEmpty then none
  else some (" Closed " ++ toString stale.length ++ " duplicate open row(s) for the same model.")

def unchangedChange (current : PricingRow) (stale : List PricingRow) (row : ScrapedPrice) :
    PriceChange where
  modelId := current.modelId
  kind := .unchanged
  sourceUrl := some row.sourceUrl
  reasoning := row.reasoning
  note := staleNote stale

def versionChange (current : PricingRow) (stale : List PricingRow) (row : ScrapedPrice) :
    PriceChange where
  modelId := current.modelId
  kind := .version
  before := some (current.inputPerMillion, current.outputPerMillion)
  after := some (afterPrices row)
  sourceUrl := some row.sourceUrl
  reasoning := row.reasoning
  note := staleNote stale

/-- The body of the loop over the scraped rows. -/
def persistRow (fs : List (List PricingRow)) (provider : String) (dryRun : Bool) (p : Progress)
    (row : ScrapedPrice) : Progress :=
  if row.status ≠ .success then
    { p with flagged := p.flagged + 1, changes := p.changes ++ [flaggedChange row] }
  else
    match familyOf table fs provider row with
    | [] =>
        let p := { p with
          changes := p.changes ++ [insertChange row]
          upserted := p.upserted + 1 }
        p.write dryRun (.insertRow row.modelId row)
    | current :: stale =>
        let p := { p with touched := p.touched ++ [current :: stale] }
        let p := if stale = [] then p else p.write dryRun (.close (stale.map PricingRow.id))
        if !pricesDiffer current row then
          { p with
            unchanged := p.unchanged + 1
            changes := p.changes ++ [unchangedChange current stale row] }
        else
          let p := { p with
            changes := p.changes ++ [versionChange current stale row]
            upserted := p.upserted + 1 }
          p.write dryRun (.versionRow current.id current.modelId row)

def retiredChange (keep : PricingRow) (stale : List PricingRow) : PriceChange where
  modelId := keep.modelId
  kind := .unchanged
  note := some ("Not on the pricing page this run; closed " ++ toString stale.length
    ++ " duplicate open row(s) for the same model ("
    ++ ", ".intercalate (stale.map PricingRow.modelId) ++ ").")

instance (family : List PricingRow) (touched : List (List PricingRow)) :
    Decidable (family ∈ touched) :=
  inferInstance

/-- The body of the loop over the families: closes the duplicates of an untouched one. -/
def closeUntouched (dryRun : Bool) (p : Progress) (family : List PricingRow) : Progress :=
  if family ∈ p.touched then p
  else
    match family with
    | keep :: s :: stale =>
        let p := p.write dryRun (.close ((s :: stale).map PricingRow.id))
        { p with
          unchanged := p.unchanged + 1
          changes := p.changes ++ [retiredChange keep (s :: stale)] }
    | _ => p

/-- One provider's run over the open rows it selected: the diff, and the writes in the order
in which they are made. -/
def plan (selected : List PricingRow) (provider : String) (rows : List ScrapedPrice)
    (dryRun : Bool) : Progress :=
  let deduped := dedupeScrapedRows table rows
  let fs := families table selected provider
  let p : Progress := ⟨0, deduped.dropped.length, 0, deduped.dropped, [], []⟩
  fs.foldl (closeUntouched dryRun) (deduped.rows.foldl (persistRow table fs provider dryRun) p)

/-! ## Making the writes -/

/-- What the database adds to an inserted row, and the time of a statement. -/
structure Stamp where
  id : Nat
  now : Nat

/-- The row an insert makes out of a scraped row. -/
def newRow (providerId : Nat) (modelId : String) (row : ScrapedPrice) (stamp : Stamp) :
    PricingRow where
  id := stamp.id
  providerId := providerId
  modelId := modelId
  modelName := row.modelName
  inputPerMillion := row.inputPerMillion
  outputPerMillion := row.outputPerMillion
  cachedInputPerMillion := row.cachedInputPerMillion
  reasoningPerMillion := row.reasoningPerMillion
  batchInputPerMillion := row.batchInputPerMillion
  batchOutputPerMillion := row.batchOutputPerMillion
  contextWindow := row.contextWindow
  maxOutputTokens := row.maxOutputTokens
  capabilities := row.capabilities
  goodAt := row.goodAt
  effectiveFrom := stamp.now
  effectiveUntil := none
  createdAt := stamp.now

/-- One write; a refused one changes nothing. -/
def Write.apply (providerId : Nat) (stamp : Stamp) (t : PricingTable) :
    Write → Option PricingTable
  | .close ids => some (t.close stamp.now ids)
  | .insertRow modelId row => t.insert (newRow providerId modelId row stamp)
  | .versionRow current modelId row =>
      (t.close stamp.now [current]).insert (newRow providerId modelId row stamp)

/-- The table after some writes, whatever ids and times the database gives them. -/
inductive Wrote (providerId : Nat) : PricingTable → List Write → PricingTable → Prop where
  | nil (t : PricingTable) : Wrote providerId t [] t
  | cons {t t' t'' : PricingTable} {w : Write} {ws : List Write} (stamp : Stamp)
      (first : w.apply providerId stamp t = some t') (rest : Wrote providerId t' ws t'') :
      Wrote providerId t (w :: ws) t''

/-- The writes under given stamps. -/
def writeAll (providerId : Nat) (t : PricingTable) : List (Stamp × Write) → Option PricingTable
  | [] => some t
  | (stamp, w) :: ws => (w.apply providerId stamp t).bind fun t => writeAll providerId t ws

theorem wrote_of_writeAll {providerId : Nat} {ws : List (Stamp × Write)} {t t' : PricingTable}
    (h : writeAll providerId t ws = some t') : Wrote providerId t (ws.map Prod.snd) t' := by
  induction ws generalizing t with
  | nil =>
      obtain rfl := Option.some.inj h
      exact .nil t
  | cons sw ws ih =>
      obtain ⟨t₁, first, rest⟩ := Option.bind_eq_some_iff.mp h
      exact .cons sw.1 first (ih rest)

/-- The tables the writer reads. -/
structure Db where
  providers : List (String × Nat)
  pricing : PricingTable

/-- `SELECT id FROM providers WHERE name = $1`. -/
def Db.providerId (db : Db) (name : String) : Except String Nat :=
  match db.providers.lookup name with
  | some pid => .ok pid
  | none => .error ("provider '" ++ name ++ "' missing from providers table")

/-- A run of `persistProvider` that has made the writes `made` so far. -/
structure PersistProvider (db : Db) (provider : String) (rows : List ScrapedPrice)
    (dryRun : Bool) (pid : Nat) (selected : List PricingRow) (made : List Write)
    (t : PricingTable) : Prop where
  ofProvider : db.providerId provider = .ok pid
  ofSelected : db.pricing.Selected pid selected
  planned : made <+: (plan table selected provider rows dryRun).writes
  wrote : Wrote pid db.pricing made t

/-- A run that has made all its writes. -/
def Persisted (db : Db) (provider : String) (rows : List ScrapedPrice) (dryRun : Bool)
    (pid : Nat) (selected : List PricingRow) (t : PricingTable) : Prop :=
  PersistProvider table db provider rows dryRun pid selected
    (plan table selected provider rows dryRun).writes t

end AuraGateway.Scraper
