import AuraGateway.Storage.Rows

/-!
# Repositories

The statements the handlers send to the database, as functions on its tables: lookups
and listings read a database, the others return the database they leave. Inserts check
unique constraints first and foreign keys after, deletions cascade and clear references
as the schema's `ON DELETE` clauses say.

What the gateway does not compute is supplied by the `Session` a request runs in: the
clock, the id the database draws for a new row, calls that fail, and the parts of the
engine (collation, full-text search, the text of an error) that only the engine knows.
-/

set_option autoImplicit false

namespace AuraGateway.Storage

open AuraGateway.Types AuraGateway.Foundations.OwnedRows

/-! ## The session of a request -/

/-- Why a database call failed. -/
inductive DbError where
  | rowNotFound
  | uniqueViolation (constraint : String)
  | foreignKeyViolation (constraint : String)
  | negativeLimit
  | failed (text : String)
  deriving DecidableEq, Repr

/-- What is the database engine's own. -/
structure Engine where
  errorText : DbError → String
  collate : String → String → Bool
  textMatches : String → String → Bool
  textRank : String → String → Float32

/-- What a request meets outside the gateway. `fault n` is the failure of its `n`-th
database call, if that call fails. -/
structure Session where
  engine : Engine
  hasPool : Bool := true
  now : Timestamp
  newId : Uuid
  fault : Nat → Option String := fun _ => none

/-- A database call that the session may make fail. -/
def Session.call {α : Type} (s : Session) (n : Nat) (result : Except DbError α) :
    Except DbError α :=
  match s.fault n with
  | some text => .error (.failed text)
  | none => result

/-! ## SQL -/

/-- `ORDER BY`. -/
def orderBy {α : Type} (le : α → α → Bool) (rows : List α) : List α :=
  rows.insertionSort fun a b => le a b = true

/-- `LIMIT`. -/
def limited {α : Type} (limit : Int) (rows : List α) : Except DbError (List α) :=
  if limit < 0 then .error .negativeLimit else .ok (rows.take limit.toNat)

/-- The elements a `jsonb` value contributes to a concatenation. -/
def jsonbElements : Json → List Json
  | .array items => items
  | v => [v]

/-- `jsonb || jsonb`: objects are merged, the right one's values winning; anything else
is concatenated as arrays. -/
def jsonbConcat : Json → Json → Json
  | .object fields, .object patch =>
      .object ((fields.filter fun e => !(patch.any fun e' => e'.1 == e.1)) ++ patch)
  | a, b => .array (jsonbElements a ++ jsonbElements b)

/-- Some row with the given id is there. -/
def present {ρ : Type} (id : ρ → Uuid) (rows : List ρ) (target : Uuid) : Bool :=
  rows.any fun r => id r == target

/-- The reference points at one of the rows. -/
def refersTo {ρ : Type} (id : ρ → Uuid) (rows : List ρ) (r : Reference) : Bool :=
  r.target.any (present id rows)

/-- `ON DELETE SET NULL`. -/
def Reference.clear (r : Reference) : Reference := { r with target := none }

/-! ## Organizations -/

/-- New organization for insertion. -/
structure NewOrganization where
  name : String
  slug : String
  ownerId : String
  settings : Option Json

namespace OrganizationRepo

/-- Create a new organization. -/
def create (s : Session) (new : NewOrganization) (db : Database) :
    Except DbError (Organization × Database) :=
  if db.organizations.any fun o => o.slug == new.slug then
    .error (.uniqueViolation "organizations_slug_key")
  else
    let org : Organization :=
      { id := s.newId
        name := new.name
        slug := new.slug
        ownerId := new.ownerId
        settings := new.settings
        createdAt := s.now
        updatedAt := s.now }
    .ok (org, { db with organizations := db.organizations ++ [org] })

/-- Find organization by id. -/
def findById (id : Uuid) (db : Database) : Option Organization :=
  db.organizations.find? fun o => o.id == id

/-- List all organizations, newest first. -/
def listAll (limit : Nat) (offset : Nat) (db : Database) : List Organization :=
  ((orderBy (fun o₁ o₂ => decide (o₂.createdAt ≤ o₁.createdAt)) db.organizations).drop offset).take
    limit

/-- The row an update leaves. -/
def patched (s : Session) (name : Option String) (settings : Option Json) (o : Organization) :
    Organization :=
  { o with
    name := name.getD o.name
    settings :=
      match settings with
      | none => o.settings
      | some patch => some (jsonbConcat (o.settings.getD (.object [])) patch)
    updatedAt := s.now }

/-- Update organization: the name is replaced when given, the settings are merged. -/
def update (s : Session) (id : Uuid) (name : Option String) (settings : Option Json)
    (db : Database) : Except DbError (Organization × Database) :=
  match findById id db with
  -- the statement returns the row it has updated
  | none => .error .rowNotFound
  | some o =>
      .ok
        (patched s name settings o,
          { db with
            organizations := updateWhere (fun o => o.id == id) (patched s name settings)
              db.organizations })

/-- The settings column of an organization. -/
def getSettings (id : Uuid) (db : Database) : Option Json :=
  (findById id db).bind (·.settings)

/-- Delete organization, and with it everything below it in the tenant tree. -/
def delete (id : Uuid) (db : Database) : Database :=
  -- each level of the cascade goes by the rows the level above loses
  let orgs := db.organizations.filter fun o => o.id == id
  let teams := db.teams.filter fun t => present Organization.id orgs t.organizationId
  let endUsers := db.endUsers.filter fun u => present Organization.id orgs u.organizationId
  { db with
    organizations := deleteWhere (fun o => o.id == id) db.organizations
    organizationMembers := deleteWhere (refersTo Organization.id orgs) db.organizationMembers
    teams := deleteWhere (fun t => present Organization.id orgs t.organizationId) db.teams
    teamMembers := deleteWhere (refersTo Team.id teams) db.teamMembers
    projects := deleteWhere (fun p => present Team.id teams p.teamId) db.projects
    endUsers := deleteWhere (fun u => present Organization.id orgs u.organizationId) db.endUsers
    apiKeyUsage := updateWhere (refersTo EndUser.id endUsers) .clear db.apiKeyUsage
    feedbackSamples := deleteWhere
      (fun f => f.organizationId.any (present Organization.id orgs)) db.feedbackSamples }

end OrganizationRepo

/-! ## Teams -/

/-- New team for insertion. -/
structure NewTeam where
  organizationId : Uuid
  name : String
  slug : String
  description : Option String
  monthlyTokenLimit : Option Int
  settings : Option Json

namespace TeamRepo

/-- Create a new team. -/
def create (s : Session) (new : NewTeam) (db : Database) : Except DbError (Team × Database) :=
  -- a slug is unique within its organization
  if db.teams.any fun t => t.organizationId == new.organizationId && t.slug == new.slug then
    .error (.uniqueViolation "teams_organization_id_slug_key")
  else if present Organization.id db.organizations new.organizationId then
    let team : Team :=
      { id := s.newId
        organizationId := new.organizationId
        name := new.name
        slug := new.slug
        description := new.description
        monthlyTokenLimit := new.monthlyTokenLimit
        currentMonthTokens := 0
        usageResetMonth := none
        settings := new.settings
        createdAt := s.now
        updatedAt := s.now }
    .ok (team, { db with teams := db.teams ++ [team] })
  else .error (.foreignKeyViolation "teams_organization_id_fkey")

/-- Find team by id. -/
def findById (id : Uuid) (db : Database) : Option Team := db.teams.find? fun t => t.id == id

/-- Get all teams for an organization, by name. -/
def getByOrganization (s : Session) (organizationId : Uuid) (db : Database) : List Team :=
  orderBy (fun t₁ t₂ => s.engine.collate t₁.name t₂.name)
    (db.teams.filter fun t => t.organizationId == organizationId)

end TeamRepo

/-! ## Projects -/

/-- New project for insertion. -/
structure NewProject where
  teamId : Uuid
  name : String
  slug : String
  description : Option String
  monthlyTokenLimit : Option Int
  settings : Option Json

namespace ProjectRepo

/-- Create a new project. -/
def create (s : Session) (new : NewProject) (db : Database) :
    Except DbError (Project × Database) :=
  if db.projects.any fun p => p.teamId == new.teamId && p.slug == new.slug then
    .error (.uniqueViolation "projects_team_id_slug_key")
  else if present Team.id db.teams new.teamId then
    let project : Project :=
      { id := s.newId
        teamId := new.teamId
        name := new.name
        slug := new.slug
        description := new.description
        monthlyTokenLimit := new.monthlyTokenLimit
        currentMonthTokens := 0
        usageResetMonth := none
        status := "active"
        settings := new.settings
        createdAt := s.now
        updatedAt := s.now }
    .ok (project, { db with projects := db.projects ++ [project] })
  else .error (.foreignKeyViolation "projects_team_id_fkey")

/-- Find project by id. -/
def findById (id : Uuid) (db : Database) : Option Project :=
  db.projects.find? fun p => p.id == id

/-- Get all projects for a team, by name. -/
def getByTeam (s : Session) (teamId : Uuid) (db : Database) : List Project :=
  orderBy (fun p₁ p₂ => s.engine.collate p₁.name p₂.name)
    (db.projects.filter fun p => p.teamId == teamId)

end ProjectRepo

/-! ## End users -/

/-- New end user for insertion. -/
structure NewEndUser where
  organizationId : Uuid
  externalId : String
  name : Option String
  email : Option String
  metadata : Option Json

namespace EndUserRepo

/-- The row an upsert finds in its way. -/
def sameKey (new : NewEndUser) (u : EndUser) : Bool :=
  u.organizationId == new.organizationId && u.externalId == new.externalId

/-- The row an upsert leaves in place of an existing one. -/
def merged (s : Session) (new : NewEndUser) (u : EndUser) : EndUser :=
  { u with
    name := new.name.or u.name
    email := new.email.or u.email
    metadata := new.metadata.or u.metadata
    lastSeenAt := s.now
    updatedAt := s.now }

/-- Upsert an end user: creates if not exists, updates if exists. -/
def upsert (s : Session) (new : NewEndUser) (db : Database) :
    Except DbError (EndUser × Database) :=
  -- `ON CONFLICT` on the organization and the external id
  match db.endUsers.find? (sameKey new) with
  | some u =>
      .ok
        (merged s new u,
          { db with endUsers := updateWhere (sameKey new) (merged s new) db.endUsers })
  | none =>
      if present Organization.id db.organizations new.organizationId then
        let user : EndUser :=
          { id := s.newId
            organizationId := new.organizationId
            externalId := new.externalId
            name := new.name
            email := new.email
            totalInputTokens := 0
            totalOutputTokens := 0
            totalCostUsd := 0.0
            requestCount := 0
            rateLimitRpm := none
            monthlyTokenLimit := none
            currentMonthTokens := 0
            usageResetMonth := none
            isBlocked := false
            metadata := new.metadata
            firstSeenAt := s.now
            lastSeenAt := s.now
            createdAt := s.now
            updatedAt := s.now }
        .ok (user, { db with endUsers := db.endUsers ++ [user] })
      else .error (.foreignKeyViolation "end_users_organization_id_fkey")

/-- Find end user by id. -/
def findById (id : Uuid) (db : Database) : Option EndUser :=
  db.endUsers.find? fun u => u.id == id

/-- Get the end users of an organization, last seen first. -/
def getByOrganization (organizationId : Uuid) (limit : Nat) (offset : Nat) (db : Database) :
    List EndUser :=
  ((orderBy (fun u₁ u₂ => decide (u₂.lastSeenAt ≤ u₁.lastSeenAt))
    (db.endUsers.filter fun u => u.organizationId == organizationId)).drop offset).take limit

end EndUserRepo

/-! ## Conversations, messages and responses -/

namespace ConversationRepo

/-- Get conversation by id. -/
def getById (id : Uuid) (db : Database) : Option Conversation :=
  db.conversations.find? fun c => c.id == id

/-- Get conversations for a user, last updated first. -/
def getByUser (userId : String) (limit : Int) (db : Database) :
    Except DbError (List Conversation) :=
  limited limit (orderBy (fun c₁ c₂ => decide (c₂.updatedAt ≤ c₁.updatedAt))
    (db.conversations.filter fun c => c.userId == some userId))

/-- The conversation of a feedback sample goes with it. -/
def forget (f : FeedbackSample) : FeedbackSample := { f with conversationId := none }

/-- Delete conversation, with its messages and responses. -/
def delete (id : Uuid) (db : Database) : Database :=
  let gone := db.conversations.filter fun c => c.id == id
  { db with
    conversations := deleteWhere (fun c => c.id == id) db.conversations
    messages := deleteWhere (fun m => present Conversation.id gone m.conversationId) db.messages
    responses := deleteWhere (fun r => present Conversation.id gone r.conversationId) db.responses
    requestLogs := updateWhere (refersTo Conversation.id gone) .clear db.requestLogs
    feedbackSamples := updateWhere
      (fun f => f.conversationId.any (present Conversation.id gone)) forget db.feedbackSamples }

end ConversationRepo

namespace MessageRepo

/-- Get messages for a conversation, oldest first. -/
def getByConversation (conversationId : Uuid) (db : Database) : List Message :=
  orderBy (fun m₁ m₂ => decide (m₁.createdAt ≤ m₂.createdAt))
    (db.messages.filter fun m => m.conversationId == conversationId)

end MessageRepo

namespace ResponseRepo

/-- The response with an id. -/
def findById (responseId : String) (db : Database) : Option ResponseRecord :=
  db.responses.find? fun r => r.id == responseId

/-- Find conversation id by response id. -/
def findConversationByResponseId (responseId : String) (db : Database) : Option Uuid :=
  (findById responseId db).map (·.conversationId)

/-- The model that produced one response. -/
def findModelById (responseId : String) (db : Database) : Option String :=
  (findById responseId db).map (·.modelId)

/-- The output items of one response. -/
def findOutputItemsById (responseId : String) (db : Database) : Option Json :=
  (findById responseId db).map (·.outputItems)

/-- Get all responses in a conversation, oldest first. -/
def getByConversation (conversationId : Uuid) (db : Database) : List ResponseRecord :=
  orderBy (fun r₁ r₂ => decide (r₁.createdAt ≤ r₂.createdAt))
    (db.responses.filter fun r => r.conversationId == conversationId)

end ResponseRepo

/-! ## Feedback samples -/

/-- New feedback sample for insertion. -/
structure NewFeedbackSample where
  organizationId : Option Uuid
  inputText : String
  outputText : String
  modelId : Option String
  feedback : String
  feedbackReason : Option String
  feedbackBy : Option String
  tags : List String
  category : Option String
  responseId : Option String
  conversationId : Option Uuid
  confidenceScore : Option Float32
  metadata : Option Json

/-- Statistics for feedback samples. -/
structure FeedbackSampleStats where
  total : Nat
  approved : Nat
  rejected : Nat
  totalUses : Nat
  deriving DecidableEq, Repr

namespace FeedbackSampleRepo

/-- Create a new feedback sample. -/
def create (s : Session) (new : NewFeedbackSample) (db : Database) :
    Except DbError (FeedbackSample × Database) :=
  if !new.organizationId.all (present Organization.id db.organizations) then
    .error (.foreignKeyViolation "feedback_samples_organization_id_fkey")
  else if !new.conversationId.all (present Conversation.id db.conversations) then
    .error (.foreignKeyViolation "feedback_samples_conversation_id_fkey")
  else
    let sample : FeedbackSample :=
      { id := s.newId
        organizationId := new.organizationId
        inputText := new.inputText
        outputText := new.outputText
        modelId := new.modelId
        feedback := new.feedback
        feedbackReason := new.feedbackReason
        feedbackBy := new.feedbackBy
        tags := new.tags
        category := new.category
        responseId := new.responseId
        conversationId := new.conversationId
        confidenceScore := new.confidenceScore
        useCount := 0
        metadata := new.metadata
        createdAt := s.now
        updatedAt := s.now }
    .ok (sample, { db with feedbackSamples := db.feedbackSamples ++ [sample] })

/-- Find sample by id. -/
def findById (id : Uuid) (db : Database) : Option FeedbackSample :=
  db.feedbackSamples.find? fun f => f.id == id

/-- Most used first, then newest. -/
def moreUsed (f₁ f₂ : FeedbackSample) : Bool :=
  decide (f₂.useCount < f₁.useCount) ||
    f₁.useCount == f₂.useCount && decide (f₂.createdAt ≤ f₁.createdAt)

/-- Best match first, then most used. -/
def betterMatch (s : Session) (query : String) (f₁ f₂ : FeedbackSample) : Bool :=
  decide (s.engine.textRank query f₂.inputText < s.engine.textRank query f₁.inputText) ||
    s.engine.textRank query f₁.inputText == s.engine.textRank query f₂.inputText &&
      decide (f₂.useCount ≤ f₁.useCount)

/-- The samples of an organization, or of none, with the given feedback if any. -/
def ofOrganization (organizationId : Option Uuid) (feedback : Option String)
    (f : FeedbackSample) : Bool :=
  f.organizationId == organizationId && feedback.all fun v => f.feedback == v

/-- Search samples by text. -/
def search (s : Session) (organizationId : Option Uuid) (query : String)
    (feedback : Option String) (limit : Nat) (db : Database) : List FeedbackSample :=
  (orderBy (betterMatch s query) (db.feedbackSamples.filter fun f =>
    s.engine.textMatches query f.inputText && ofOrganization organizationId feedback f)).take limit

/-- Get samples that have any of the tags. -/
def getByTags (organizationId : Option Uuid) (tags : List String) (feedback : Option String)
    (limit : Nat) (db : Database) : List FeedbackSample :=
  (orderBy moreUsed (db.feedbackSamples.filter fun f =>
    (f.tags.any fun t => tags.contains t) && ofOrganization organizationId feedback f)).take limit

/-- Get samples by category. -/
def getByCategory (organizationId : Option Uuid) (category : String) (feedback : Option String)
    (limit : Nat) (db : Database) : List FeedbackSample :=
  (orderBy moreUsed (db.feedbackSamples.filter fun f =>
    f.category == some category && ofOrganization organizationId feedback f)).take limit

/-- Get recent samples for an organization. -/
def getRecent (organizationId : Option Uuid) (limit : Nat) (db : Database) :
    List FeedbackSample :=
  (orderBy (fun f₁ f₂ => decide (f₂.createdAt ≤ f₁.createdAt))
    (db.feedbackSamples.filter (ofOrganization organizationId none))).take limit

/-- Delete a sample. -/
def delete (id : Uuid) (db : Database) : Database :=
  { db with feedbackSamples := deleteWhere (fun f => f.id == id) db.feedbackSamples }

/-- Get sample statistics for an organization. -/
def getStats (organizationId : Option Uuid) (db : Database) : FeedbackSampleStats :=
  let samples := db.feedbackSamples.filter (ofOrganization organizationId none)
  { total := samples.length
    approved := samples.countP fun f => f.feedback == "approved"
    rejected := samples.countP fun f => f.feedback == "rejected"
    totalUses := (samples.map (·.useCount)).sum }

end FeedbackSampleRepo

end AuraGateway.Storage
