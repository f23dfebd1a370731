import AuraGateway.Storage.Repo

/-!
# Management routes

The organization, team, project, end-user, conversation and feedback endpoints. Each
handler reads the path ids and the body it is given and asks the repositories; the key
that authenticated the request is not among its arguments.

The handlers of the tenant tree answer errors as JSON with a code, the others as plain
text. `serve` is the router: one request against the database.
-/

set_option autoImplicit false

namespace AuraGateway.Management

open AuraGateway.Types AuraGateway.Storage

/-! ## Requests -/

structure CreateOrganizationRequest where
  name : String
  slug : String
  ownerId : String
  settings : Json := .null

structure UpdateOrganizationRequest where
  name : Option String
  settings : Option Json

structure CreateTeamRequest where
  name : String
  slug : String
  description : Option String
  monthlyTokenLimit : Option Int

structure CreateProjectRequest where
  name : String
  slug : String
  description : Option String

structure CreateEndUserRequest where
  externalId : String
  name : Option String
  email : Option String
  metadata : Option Json

/-- Query of the conversation list. -/
structure ListParams where
  userId : Option String
  limit : Int := 20

/-- Feedback signal from a user. -/
inductive FeedbackSignal where
  | thumbsUp
  | thumbsDown
  deriving DecidableEq, Repr

/-- The feedback string for the database. -/
def FeedbackSignal.asStr : FeedbackSignal → String
  | .thumbsUp => "approved"
  | .thumbsDown => "rejected"

structure SubmitFeedbackRequest where
  responseId : String
  signal : FeedbackSignal
  reason : Option String
  tags : List String := []
  category : Option String

/-- Query of the feedback list. -/
structure ListFeedbackQuery where
  category : Option String := none
  tags : Option (List String) := none
  feedback : Option String := none
  search : Option String := none
  limit : Nat := 50

/-- A request to one of the management routes. -/
inductive ManagementRequest where
  | createOrganization (req : CreateOrganizationRequest)
  | listOrganizations
  | getOrganization (orgId : Uuid)
  | updateOrganization (orgId : Uuid) (req : UpdateOrganizationRequest)
  | deleteOrganization (orgId : Uuid)
  | createTeam (orgId : Uuid) (req : CreateTeamRequest)
  | listTeams (orgId : Uuid)
  | getTeam (teamId : Uuid)
  | updateTeam (teamId : Uuid) (req : CreateTeamRequest)
  | deleteTeam (teamId : Uuid)
  | createProject (teamId : Uuid) (req : CreateProjectRequest)
  | listProjects (teamId : Uuid)
  | getProject (projectId : Uuid)
  | updateProject (projectId : Uuid) (req : CreateProjectRequest)
  | deleteProject (projectId : Uuid)
  | createEndUser (orgId : Uuid) (req : CreateEndUserRequest)
  | listEndUsers (orgId : Uuid)
  | getEndUser (userId : Uuid)
  | updateEndUser (userId : Uuid) (req : CreateEndUserRequest)
  | listConversations (params : ListParams)
  | getConversation (id : Uuid)
  | deleteConversation (id : Uuid)
  | submitFeedback (request : SubmitFeedbackRequest)
  | listFeedback (params : ListFeedbackQuery)
  | getFeedbackStats
  | getFeedback (id : Uuid)
  | deleteFeedback (id : Uuid)

/-! ## Replies -/

/-- Summary of a feedback sample. -/
structure FeedbackSampleSummary where
  id : Uuid
  input : String
  output : String
  modelId : Option String
  feedback : String
  reason : Option String
  tags : List String
  category : Option String
  useCount : Nat
  createdAt : Timestamp
  deriving DecidableEq, Repr

/-- Body of a reply. -/
inductive Body where
  | organization (row : Organization)
  | organizations (rows : List Organization)
  | team (row : Team)
  | teams (rows : List Team)
  | project (row : Project)
  | projects (rows : List Project)
  | endUser (row : EndUser)
  | endUsers (rows : List EndUser)
  | conversations (rows : List Conversation)
  | conversation (row : Conversation) (messages : List Message) (responses : List ResponseRecord)
  | feedbackRecorded (id : Uuid) (recorded : Bool) (message : String)
  | feedback (sample : FeedbackSampleSummary)
  | feedbackList (samples : List FeedbackSampleSummary) (total : Nat)
  | feedbackStats (stats : FeedbackSampleStats)
  | error (code message : String)
  | text (message : String)
  | empty

/-- Status and body. -/
structure Reply where
  status : Nat
  body : Body

/-- Reply without a database. -/
def databaseUnavailable : Reply :=
  { status := 503, body := .error "database_unavailable" "Database not configured" }

/-- The same from the routes that answer in plain text. -/
def databaseNotConfigured : Reply := { status := 503, body := .text "Database not configured" }

/-- A failed database call of the tenant tree. -/
def callFailed (s : Session) (code what : String) (e : DbError) : Reply :=
  { status := 500, body := .error code (what ++ ": " ++ s.engine.errorText e) }

/-- A failed database call of the other routes. -/
def internalError (s : Session) (e : DbError) : Reply :=
  { status := 500, body := .text (s.engine.errorText e) }

/-! ## Handlers that differ in names only -/

/-- Return one record. -/
def getRecord {ρ : Type} (s : Session) (noun title : String) (body : ρ → Body)
    (found : Option ρ) : Reply :=
  if s.hasPool then
    match s.call 0 (.ok found) with
    | .error e => callFailed s "get_failed" ("Failed to get " ++ noun) e
    | .ok none => { status := 404, body := .error "not_found" (title ++ " not found") }
    | .ok (some row) => { status := 200, body := body row }
  else databaseUnavailable

/-- Return a listing. -/
def listRecords {ρ : Type} (s : Session) (nouns : String) (body : List ρ → Body)
    (rows : List ρ) : Reply :=
  if s.hasPool then
    match s.call 0 (.ok rows) with
    | .error e => callFailed s "list_failed" ("Failed to list " ++ nouns) e
    | .ok rows => { status := 200, body := body rows }
  else databaseUnavailable

/-- Run a statement that changes the database, and return the row it returns. -/
def storeRecord {ρ : Type} (s : Session) (status : Nat) (code what : String) (body : ρ → Body)
    (result : Except DbError (ρ × Database)) (db : Database) : Reply × Database :=
  if s.hasPool then
    match s.call 0 result with
    | .error e => (callFailed s code what e, db)
    | .ok (row, db') => ({ status, body := body row }, db')
  else (databaseUnavailable, db)

/-- A route that is declared but does nothing. -/
def notImplemented (what : String) : Reply :=
  { status := 501, body := .error "not_implemented" (what ++ " not yet implemented") }

/-! ## Organizations -/

def newOrganization (req : CreateOrganizationRequest) : NewOrganization :=
  { name := req.name, slug := req.slug, ownerId := req.ownerId, settings := some req.settings }

def createOrganization (s : Session) (req : CreateOrganizationRequest) (db : Database) :
    Reply × Database :=
  storeRecord s 201 "create_failed" "Failed to create organization" .organization
    (OrganizationRepo.create s (newOrganization req) db) db

def listOrganizations (s : Session) (db : Database) : Reply :=
  listRecords s "organizations" .organizations (OrganizationRepo.listAll 100 0 db)

def getOrganization (s : Session) (orgId : Uuid) (db : Database) : Reply :=
  getRecord s "organization" "Organization" .organization (OrganizationRepo.findById orgId db)

def updateOrganization (s : Session) (orgId : Uuid) (req : UpdateOrganizationRequest)
    (db : Database) : Reply × Database :=
  storeRecord s 200 "update_failed" "Failed to update organization" .organization
    (OrganizationRepo.update s orgId req.name req.settings db) db

def deleteOrganization (s : Session) (orgId : Uuid) (db : Database) : Reply × Database :=
  storeRecord s 204 "delete_failed" "Failed to delete organization" (fun _ : Unit => .empty)
    (.ok ((), OrganizationRepo.delete orgId db)) db

/-! ## Teams -/

def newTeam (orgId : Uuid) (req : CreateTeamRequest) : NewTeam :=
  { organizationId := orgId
    name := req.name
    slug := req.slug
    description := req.description
    monthlyTokenLimit := req.monthlyTokenLimit
    settings := none }

def createTeam (s : Session) (orgId : Uuid) (req : CreateTeamRequest) (db : Database) :
    Reply × Database :=
  storeRecord s 201 "create_failed" "Failed to create team" .team
    (TeamRepo.create s (newTeam orgId req) db) db

def listTeams (s : Session) (orgId : Uuid) (db : Database) : Reply :=
  listRecords s "teams" .teams (TeamRepo.getByOrganization s orgId db)

def getTeam (s : Session) (teamId : Uuid) (db : Database) : Reply :=
  getRecord s "team" "Team" .team (TeamRepo.findById teamId db)

def updateTeam : Reply := notImplemented "Update team"

def deleteTeam : Reply := notImplemented "Delete team"

/-! ## Projects -/

def newProject (teamId : Uuid) (req : CreateProjectRequest) : NewProject :=
  { teamId
    name := req.name
    slug := req.slug
    description := req.description
    monthlyTokenLimit := none
    settings := none }

def createProject (s : Session) (teamId : Uuid) (req : CreateProjectRequest) (db : Database) :
    Reply × Database :=
  storeRecord s 201 "create_failed" "Failed to create project" .project
    (ProjectRepo.create s (newProject teamId req) db) db

def listProjects (s : Session) (teamId : Uuid) (db : Database) : Reply :=
  listRecords s "projects" .projects (ProjectRepo.getByTeam s teamId db)

def getProject (s : Session) (projectId : Uuid) (db : Database) : Reply :=
  getRecord s "project" "Project" .project (ProjectRepo.findById projectId db)

def updateProject : Reply := notImplemented "Update project"

def deleteProject : Reply := notImplemented "Delete project"

/-! ## End users -/

def newEndUser (orgId : Uuid) (req : CreateEndUserRequest) : NewEndUser :=
  { organizationId := orgId
    externalId := req.externalId
    name := req.name
    email := req.email
    metadata := req.metadata }

def createEndUser (s : Session) (orgId : Uuid) (req : CreateEndUserRequest) (db : Database) :
    Reply × Database :=
  storeRecord s 201 "create_failed" "Failed to create end-user" .endUser
    (EndUserRepo.upsert s (newEndUser orgId req) db) db

def listEndUsers (s : Session) (orgId : Uuid) (db : Database) : Reply :=
  listRecords s "end-users" .endUsers (EndUserRepo.getByOrganization orgId 100 0 db)

def getEndUser (s : Session) (userId : Uuid) (db : Database) : Reply :=
  getRecord s "end-user" "End-user" .endUser (EndUserRepo.findById userId db)

def updateEndUser : Reply := notImplemented "Update end-user"

/-! ## Conversations -/

/-- List conversations; without a user there are none. -/
def listConversations (s : Session) (params : ListParams) (db : Database) : Reply :=
  if s.hasPool then
    match params.userId with
    | none => { status := 200, body := .conversations [] }
    | some userId =>
        match s.call 0 (ConversationRepo.getByUser userId params.limit db) with
        | .error e => internalError s e
        | .ok rows => { status := 200, body := .conversations rows }
  else databaseNotConfigured

/-- Get conversation detail with messages and responses. -/
def getConversation (s : Session) (id : Uuid) (db : Database) : Reply :=
  if s.hasPool then
    match s.call 0 (.ok (ConversationRepo.getById id db)) with
    | .error e => internalError s e
    | .ok none => { status := 404, body := .text "Conversation not found" }
    | .ok (some conversation) =>
        match s.call 1 (.ok (MessageRepo.getByConversation id db)) with
        | .error e => internalError s e
        | .ok messages =>
            match s.call 2 (.ok (ResponseRepo.getByConversation id db)) with
            | .error e => internalError s e
            | .ok responses =>
                { status := 200, body := .conversation conversation messages responses }
  else databaseNotConfigured

/-- Delete conversation and all associated data. -/
def deleteConversation (s : Session) (id : Uuid) (db : Database) : Reply × Database :=
  if s.hasPool then
    match s.call 0 (.ok (ConversationRepo.delete id db)) with
    | .error e => (internalError s e, db)
    | .ok db' => ({ status := 204, body := .empty }, db')
  else (databaseNotConfigured, db)

/-! ## Feedback -/

/-- The text of the first item: its content, or the first text part of its content. -/
def firstContent (items : Json) : String :=
  (do
    let item ← (← items.asArray).head?
    match ← item.get "content" with
    | .string text => some text
    | .array parts => parts.findSome? fun p => (p.get "text").bind Json.asStr
    | _ => none : Option String).getD ""

/-- The sample a feedback request leaves about a response. -/
def newSample (request : SubmitFeedbackRequest) (conversationId : Uuid) (r : ResponseRecord) :
    NewFeedbackSample :=
  { organizationId := none
    inputText := firstContent r.inputItems
    outputText := firstContent r.outputItems
    modelId := some r.modelId
    feedback := request.signal.asStr
    feedbackReason := request.reason
    feedbackBy := none
    tags := request.tags
    category := request.category
    responseId := some request.responseId
    conversationId := some conversationId
    confidenceScore := none
    metadata := none }

def responseNotFound (responseId : String) : Reply :=
  { status := 404, body := .text ("Response " ++ responseId ++ " not found") }

/-- Record feedback on a response that was found. -/
def recordFeedback (s : Session) (request : SubmitFeedbackRequest) (conversationId : Uuid)
    (responses : List ResponseRecord) (db : Database) : Reply × Database :=
  match responses.find? fun r => r.id == request.responseId with
  | none => (responseNotFound request.responseId, db)
  | some r =>
      match s.call 2 (FeedbackSampleRepo.create s (newSample request conversationId r) db) with
      | .error e => (internalError s e, db)
      | .ok (sample, db') =>
          ({ status := 201
             body := .feedbackRecorded sample.id true "Feedback recorded successfully" }, db')

/-- Submit feedback on a response. -/
def submitFeedback (s : Session) (request : SubmitFeedbackRequest) (db : Database) :
    Reply × Database :=
  if s.hasPool then
    match s.call 0 (.ok (ResponseRepo.findConversationByResponseId request.responseId db)) with
    | .error e => (internalError s e, db)
    | .ok none => (responseNotFound request.responseId, db)
    | .ok (some conversationId) =>
        match s.call 1 (.ok (ResponseRepo.getByConversation conversationId db)) with
        | .error e => (internalError s e, db)
        | .ok responses => recordFeedback s request conversationId responses db
  else (databaseNotConfigured, db)

def summarize (f : FeedbackSample) : FeedbackSampleSummary :=
  { id := f.id
    input := f.inputText
    output := f.outputText
    modelId := f.modelId
    feedback := f.feedback
    reason := f.feedbackReason
    tags := f.tags
    category := f.category
    useCount := f.useCount
    createdAt := f.createdAt }

/-- The samples a query selects: by text, else by tags, else by category, else recent. -/
def selectFeedback (s : Session) (params : ListFeedbackQuery) (db : Database) :
    List FeedbackSample :=
  match params.search, params.tags, params.category with
  | some query, _, _ => FeedbackSampleRepo.search s none query params.feedback params.limit db
  | none, some tags, _ => FeedbackSampleRepo.getByTags none tags params.feedback params.limit db
  | none, none, some category =>
      FeedbackSampleRepo.getByCategory none category params.feedback params.limit db
  | none, none, none => FeedbackSampleRepo.getRecent none params.limit db

/-- List feedback samples. -/
def listFeedback (s : Session) (params : ListFeedbackQuery) (db : Database) : Reply :=
  if s.hasPool then
    match s.call 0 (.ok (selectFeedback s params db)) with
    | .error e => internalError s e
    | .ok samples =>
        { status := 200, body := .feedbackList (samples.map summarize) samples.length }
  else databaseNotConfigured

/-- Get feedback statistics. -/
def getFeedbackStats (s : Session) (db : Database) : Reply :=
  if s.hasPool then
    match s.call 0 (.ok (FeedbackSampleRepo.getStats none db)) with
    | .error e => internalError s e
    | .ok stats => { status := 200, body := .feedbackStats stats }
  else databaseNotConfigured

def sampleNotFound : Reply := { status := 404, body := .text "Sample not found" }

/-- Get a single feedback sample. -/
def getFeedback (s : Session) (id : Uuid) (db : Database) : Reply :=
  if s.hasPool then
    match s.call 0 (.ok (FeedbackSampleRepo.findById id db)) with
    | .error e => internalError s e
    | .ok none => sampleNotFound
    | .ok (some sample) => { status := 200, body := .feedback (summarize sample) }
  else databaseNotConfigured

/-- Delete a feedback sample, if it exists. -/
def deleteFeedback (s : Session) (id : Uuid) (db : Database) : Reply × Database :=
  if s.hasPool then
    match s.call 0 (.ok (FeedbackSampleRepo.findById id db)) with
    | .error e => (internalError s e, db)
    | .ok none => (sampleNotFound, db)
    | .ok (some _) =>
        match s.call 1 (.ok (FeedbackSampleRepo.delete id db)) with
        | .error e => (internalError s e, db)
        | .ok db' => ({ status := 204, body := .empty }, db')
  else (databaseNotConfigured, db)

/-! ## The router -/

/-- Serve one request. -/
def serve (s : Session) (db : Database) : ManagementRequest → Reply × Database
  | .createOrganization req => createOrganization s req db
  | .listOrganizations => (listOrganizations s db, db)
  | .getOrganization orgId => (getOrganization s orgId db, db)
  | .updateOrganization orgId req => updateOrganization s orgId req db
  | .deleteOrganization orgId => deleteOrganization s orgId db
  | .createTeam orgId req => createTeam s orgId req db
  | .listTeams orgId => (listTeams s orgId db, db)
  | .getTeam teamId => (getTeam s teamId db, db)
  | .updateTeam _ _ => (updateTeam, db)
  | .deleteTeam _ => (deleteTeam, db)
  | .createProject teamId req => createProject s teamId req db
  | .listProjects teamId => (listProjects s teamId db, db)
  | .getProject projectId => (getProject s projectId db, db)
  | .updateProject _ _ => (updateProject, db)
  | .deleteProject _ => (deleteProject, db)
  | .createEndUser orgId req => createEndUser s orgId req db
  | .listEndUsers orgId => (listEndUsers s orgId db, db)
  | .getEndUser userId => (getEndUser s userId db, db)
  | .updateEndUser _ _ => (updateEndUser, db)
  | .listConversations params => (listConversations s params db, db)
  | .getConversation id => (getConversation s id db, db)
  | .deleteConversation id => deleteConversation s id db
  | .submitFeedback request => submitFeedback s request db
  | .listFeedback params => (listFeedback s params db, db)
  | .getFeedbackStats => (getFeedbackStats s db, db)
  | .getFeedback id => (getFeedback s id db, db)
  | .deleteFeedback id => deleteFeedback s id db

end AuraGateway.Management
