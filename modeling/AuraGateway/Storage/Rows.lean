import AuraGateway.Foundations.OwnedRows
import AuraGateway.Types.Request

/-!
# Stored rows

The tables the gateway keeps on behalf of organizations, with the columns its handlers
read or return, and the tables that only lose rows or references when a row they point
at is deleted (`Reference`).

No table but the tenant tree itself has a tenant column: conversations, messages,
responses and feedback samples do not say for whom they were stored. `Ownership` records
that beside the database, as the organization each id was drawn for.
-/

set_option autoImplicit false

namespace AuraGateway.Storage

open AuraGateway.Types AuraGateway.Foundations.OwnedRows

/-- A UUID, as a number. -/
abbrev Uuid := Nat

/-- A point in time, as the database records it. -/
abbrev Timestamp := Nat

/-! ## The tenant tree -/

/-- Organization record. -/
structure Organization where
  id : Uuid
  name : String
  slug : String
  ownerId : String
  settings : Option Json
  createdAt : Timestamp
  updatedAt : Timestamp

/-- Team record. -/
structure Team where
  id : Uuid
  organizationId : Uuid
  name : String
  slug : String
  description : Option String
  monthlyTokenLimit : Option Int
  currentMonthTokens : Int
  usageResetMonth : Option String
  settings : Option Json
  createdAt : Timestamp
  updatedAt : Timestamp

/-- Project record. -/
structure Project where
  id : Uuid
  teamId : Uuid
  name : String
  slug : String
  description : Option String
  monthlyTokenLimit : Option Int
  currentMonthTokens : Int
  usageResetMonth : Option String
  status : String
  settings : Option Json
  createdAt : Timestamp
  updatedAt : Timestamp

/-- End user record. -/
structure EndUser where
  id : Uuid
  organizationId : Uuid
  externalId : String
  name : Option String
  email : Option String
  totalInputTokens : Int
  totalOutputTokens : Int
  totalCostUsd : Float
  requestCount : Int
  rateLimitRpm : Option Int
  monthlyTokenLimit : Option Int
  currentMonthTokens : Int
  usageResetMonth : Option String
  isBlocked : Bool
  metadata : Option Json
  firstSeenAt : Timestamp
  lastSeenAt : Timestamp
  createdAt : Timestamp
  updatedAt : Timestamp

/-! ## Conversations and feedback -/

/-- Conversation record. -/
structure Conversation where
  id : Uuid
  userId : Option String
  title : Option String
  modelId : String
  metadata : Option Json
  createdAt : Timestamp
  updatedAt : Timestamp

/-- Message record. -/
structure Message where
  id : Uuid
  conversationId : Uuid
  role : String
  content : String
  metadata : Option Json
  createdAt : Timestamp

/-- Response record. -/
structure ResponseRecord where
  id : String
  conversationId : Uuid
  modelId : String
  status : String
  previousResponseId : Option String
  inputItems : Json
  outputItems : Json
  usageInputTokens : Option Int
  usageOutputTokens : Option Int
  usageCachedTokens : Option Int
  usageReasoningTokens : Option Int
  usageCostUsd : Option Float
  errorCode : Option String
  errorMessage : Option String
  incompleteReason : Option String
  metadata : Option Json
  createdAt : Timestamp
  updatedAt : Timestamp

/-- Feedback sample record. -/
structure FeedbackSample where
  id : Uuid
  organizationId : Option Uuid
  inputText : String
  outputText : String
  modelId : Option String
  feedback : String
  feedbackReason : Option String
  feedbackBy : Option String
  tags : List String
  category : Option String
  responseId : Option String
  conversationId : Option Uuid
  confidenceScore : Option Float32
  useCount : Nat
  metadata : Option Json
  createdAt : Timestamp
  updatedAt : Timestamp

/-- A row of a table of which only the reference matters: members of organizations and
teams, usage of end users, logs of conversations. -/
structure Reference where
  id : Uuid
  target : Option Uuid
  deriving DecidableEq, Repr

/-- The database. -/
structure Database where
  organizations : List Organization := []
  organizationMembers : List Reference := []
  teams : List Team := []
  teamMembers : List Reference := []
  projects : List Project := []
  endUsers : List EndUser := []
  apiKeyUsage : List Reference := []
  conversations : List Conversation := []
  messages : List Message := []
  responses : List ResponseRecord := []
  requestLogs : List Reference := []
  feedbackSamples : List FeedbackSample := []

/-! ## Ownership -/

/-- For which organization an id was drawn: a row's id, or the id a provider gave a
response. -/
structure Ownership where
  ofId : Uuid → Option Uuid
  ofResponse : String → Option Uuid

/-- What an organization owns, or no organization does. -/
def ownedBy (a : Uuid) : Option Uuid → Bool
  | none => true
  | some o => o == a

section Views

variable (own : Ownership) (a : Uuid)

/-- The rows an organization owns, for tables keyed by UUID. -/
def owns {ρ : Type} (id : ρ → Uuid) (r : ρ) : Bool := ownedBy a (own.ofId (id r))

/-- The responses an organization owns. -/
def ownsResponse (r : ResponseRecord) : Bool := ownedBy a (own.ofResponse r.id)

/-- The databases differ only in rows of other organizations. -/
structure Agree (db₁ db₂ : Database) : Prop where
  organizations : view (owns own a Organization.id) db₁.organizations =
    view (owns own a Organization.id) db₂.organizations
  organizationMembers : view (owns own a Reference.id) db₁.organizationMembers =
    view (owns own a Reference.id) db₂.organizationMembers
  teams : view (owns own a Team.id) db₁.teams = view (owns own a Team.id) db₂.teams
  teamMembers : view (owns own a Reference.id) db₁.teamMembers =
    view (owns own a Reference.id) db₂.teamMembers
  projects : view (owns own a Project.id) db₁.projects = view (owns own a Project.id) db₂.projects
  endUsers : view (owns own a EndUser.id) db₁.endUsers = view (owns own a EndUser.id) db₂.endUsers
  apiKeyUsage : view (owns own a Reference.id) db₁.apiKeyUsage =
    view (owns own a Reference.id) db₂.apiKeyUsage
  conversations : view (owns own a Conversation.id) db₁.conversations =
    view (owns own a Conversation.id) db₂.conversations
  messages : view (owns own a Message.id) db₁.messages = view (owns own a Message.id) db₂.messages
  responses : view (ownsResponse own a) db₁.responses = view (ownsResponse own a) db₂.responses
  requestLogs : view (owns own a Reference.id) db₁.requestLogs =
    view (owns own a Reference.id) db₂.requestLogs
  feedbackSamples : view (owns own a FeedbackSample.id) db₁.feedbackSamples =
    view (owns own a FeedbackSample.id) db₂.feedbackSamples

/-- Every row of another organization is still there, unchanged. -/
structure OthersKept (db db' : Database) : Prop where
  organizations : Kept (owns own a Organization.id) db.organizations db'.organizations
  organizationMembers :
    Kept (owns own a Reference.id) db.organizationMembers db'.organizationMembers
  teams : Kept (owns own a Team.id) db.teams db'.teams
  teamMembers : Kept (owns own a Reference.id) db.teamMembers db'.teamMembers
  projects : Kept (owns own a Project.id) db.projects db'.projects
  endUsers : Kept (owns own a EndUser.id) db.endUsers db'.endUsers
  apiKeyUsage : Kept (owns own a Reference.id) db.apiKeyUsage db'.apiKeyUsage
  conversations : Kept (owns own a Conversation.id) db.conversations db'.conversations
  messages : Kept (owns own a Message.id) db.messages db'.messages
  responses : Kept (ownsResponse own a) db.responses db'.responses
  requestLogs : Kept (owns own a Reference.id) db.requestLogs db'.requestLogs
  feedbackSamples : Kept (owns own a FeedbackSample.id) db.feedbackSamples db'.feedbackSamples

theorem OthersKept.refl (db : Database) : OthersKept own a db db :=
  ⟨.refl _, .refl _, .refl _, .refl _, .refl _, .refl _, .refl _, .refl _, .refl _, .refl _,
    .refl _, .refl _⟩

variable {own a}

theorem OthersKept.trans {db₁ db₂ db₃ : Database} (h₁ : OthersKept own a db₁ db₂)
    (h₂ : OthersKept own a db₂ db₃) : OthersKept own a db₁ db₃ :=
  { organizations := h₁.organizations.trans h₂.organizations
    organizationMembers := h₁.organizationMembers.trans h₂.organizationMembers
    teams := h₁.teams.trans h₂.teams
    teamMembers := h₁.teamMembers.trans h₂.teamMembers
    projects := h₁.projects.trans h₂.projects
    endUsers := h₁.endUsers.trans h₂.endUsers
    apiKeyUsage := h₁.apiKeyUsage.trans h₂.apiKeyUsage
    conversations := h₁.conversations.trans h₂.conversations
    messages := h₁.messages.trans h₂.messages
    responses := h₁.responses.trans h₂.responses
    requestLogs := h₁.requestLogs.trans h₂.requestLogs
    feedbackSamples := h₁.feedbackSamples.trans h₂.feedbackSamples }

end Views

/-- The references inside the tenant tree stay inside one organization: a row that names
an organization, a team or an end user was stored for the organization it leads to. -/
structure Consistent (own : Ownership) (db : Database) : Prop where
  organizations : ∀ r ∈ db.organizations, own.ofId r.id = some r.id
  organizationMembers : ∀ r ∈ db.organizationMembers, ∀ o ∈ r.target, own.ofId r.id = some o
  teams : ∀ r ∈ db.teams, own.ofId r.id = some r.organizationId
  teamMembers : ∀ r ∈ db.teamMembers, ∀ t ∈ r.target, own.ofId r.id = own.ofId t
  projects : ∀ r ∈ db.projects, own.ofId r.id = own.ofId r.teamId
  endUsers : ∀ r ∈ db.endUsers, own.ofId r.id = some r.organizationId
  apiKeyUsage : ∀ r ∈ db.apiKeyUsage, ∀ u ∈ r.target, own.ofId r.id = own.ofId u
  feedbackSamples : ∀ r ∈ db.feedbackSamples, ∀ o ∈ r.organizationId, own.ofId r.id = some o

end AuraGateway.Storage
