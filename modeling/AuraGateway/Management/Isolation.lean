import AuraGateway.Management.Routes
import AuraGateway.Storage.Tenancy

/-!
# Isolation of the management routes

No handler compares the organization of a row with the organization of the key, so a
request acts on whatever rows its ids, its body and its filters select. This file says
what isolation that leaves: a run whose deletions and updates select rows of organization
`a` (or of none) leaves every other row in place, and a run whose queries select such
rows has the same replies on every two databases that differ only in rows of others.

One request can change the database in nine ways (`Stores`), and everything about the
rows it leaves is derived from that. For the two-run law each repository call is shown to
answer alike on agreeing databases (`Matches`). The cascade of a deleted organization
stays inside it because the references of the tenant tree do (`Consistent`).
-/

set_option autoImplicit false

namespace AuraGateway.Management

open AuraGateway.Types AuraGateway.Storage AuraGateway.Foundations.OwnedRows

/-! ## What a request selects -/

section Conditions

variable (own : Ownership) (a : Uuid) (s : Session) (db : Database)

/-- The rows that the request updates or deletes by its own conditions belong to `a` or
to nobody. A conversation takes its messages and responses with it, and is cut from the
logs and samples that name it. -/
def WritesOwn : ManagementRequest → Prop
  | .updateOrganization orgId _ | .deleteOrganization orgId =>
      Selects (owns own a Organization.id) (fun o => o.id == orgId) db.organizations
  | .createEndUser orgId req =>
      Selects (owns own a EndUser.id) (EndUserRepo.sameKey (newEndUser orgId req)) db.endUsers
  | .deleteConversation id =>
      Selects (owns own a Conversation.id) (fun c => c.id == id) db.conversations ∧
      Selects (owns own a Message.id) (fun m => m.conversationId == id) db.messages ∧
      Selects (ownsResponse own a) (fun r => r.conversationId == id) db.responses ∧
      Selects (owns own a Reference.id) (fun l => l.target == some id) db.requestLogs ∧
      Selects (owns own a FeedbackSample.id) (fun f => f.conversationId == some id)
        db.feedbackSamples
  | .deleteFeedback id =>
      Selects (owns own a FeedbackSample.id) (fun f => f.id == id) db.feedbackSamples
  | _ => True

/-- The samples a listing ranges over. -/
def listed (params : ListFeedbackQuery) (f : FeedbackSample) : Bool :=
  match params.search, params.tags, params.category with
  | some query, _, _ =>
      s.engine.textMatches query f.inputText &&
        FeedbackSampleRepo.ofOrganization none params.feedback f
  | none, some tags, _ =>
      (f.tags.any fun t => tags.contains t) &&
        FeedbackSampleRepo.ofOrganization none params.feedback f
  | none, none, some category =>
      f.category == some category && FeedbackSampleRepo.ofOrganization none params.feedback f
  | none, none, none => FeedbackSampleRepo.ofOrganization none none f

/-- The rows that the request's queries and constraint checks select belong to `a` or to
nobody. -/
def ReadsOwn : ManagementRequest → Prop
  | .createOrganization req =>
      Selects (owns own a Organization.id) (fun o => o.slug == req.slug) db.organizations
  | .listOrganizations => Selects (owns own a Organization.id) (fun _ => true) db.organizations
  | .getOrganization orgId | .updateOrganization orgId _ | .deleteOrganization orgId =>
      Selects (owns own a Organization.id) (fun o => o.id == orgId) db.organizations
  | .createTeam orgId req =>
      Selects (owns own a Team.id)
        (fun t => t.organizationId == orgId && t.slug == req.slug) db.teams ∧
      Selects (owns own a Organization.id) (fun o => o.id == orgId) db.organizations
  | .listTeams orgId =>
      Selects (owns own a Team.id) (fun t => t.organizationId == orgId) db.teams
  | .getTeam teamId => Selects (owns own a Team.id) (fun t => t.id == teamId) db.teams
  | .createProject teamId req =>
      Selects (owns own a Project.id)
        (fun p => p.teamId == teamId && p.slug == req.slug) db.projects ∧
      Selects (owns own a Team.id) (fun t => t.id == teamId) db.teams
  | .listProjects teamId =>
      Selects (owns own a Project.id) (fun p => p.teamId == teamId) db.projects
  | .getProject projectId =>
      Selects (owns own a Project.id) (fun p => p.id == projectId) db.projects
  | .createEndUser orgId req =>
      Selects (owns own a EndUser.id) (EndUserRepo.sameKey (newEndUser orgId req)) db.endUsers ∧
      Selects (owns own a Organization.id) (fun o => o.id == orgId) db.organizations
  | .listEndUsers orgId =>
      Selects (owns own a EndUser.id) (fun u => u.organizationId == orgId) db.endUsers
  | .getEndUser userId => Selects (owns own a EndUser.id) (fun u => u.id == userId) db.endUsers
  | .listConversations params =>
      ∀ userId ∈ params.userId,
        Selects (owns own a Conversation.id) (fun c => c.userId == some userId) db.conversations
  | .getConversation id =>
      Selects (owns own a Conversation.id) (fun c => c.id == id) db.conversations ∧
      Selects (owns own a Message.id) (fun m => m.conversationId == id) db.messages ∧
      Selects (ownsResponse own a) (fun r => r.conversationId == id) db.responses
  | .deleteConversation id =>
      Selects (owns own a Conversation.id) (fun c => c.id == id) db.conversations
  | .submitFeedback request =>
      Selects (ownsResponse own a) (fun r => r.id == request.responseId) db.responses ∧
      ∀ r ∈ db.responses, r.id = request.responseId →
        Selects (ownsResponse own a) (fun r' => r'.conversationId == r.conversationId)
          db.responses ∧
        Selects (owns own a Conversation.id) (fun c => c.id == r.conversationId) db.conversations
  | .listFeedback params =>
      Selects (owns own a FeedbackSample.id) (listed s params) db.feedbackSamples
  | .getFeedbackStats =>
      Selects (owns own a FeedbackSample.id) (FeedbackSampleRepo.ofOrganization none none)
        db.feedbackSamples
  | .getFeedback id | .deleteFeedback id =>
      Selects (owns own a FeedbackSample.id) (fun f => f.id == id) db.feedbackSamples
  | .updateTeam _ _ | .deleteTeam _ | .updateProject _ _ | .deleteProject _
  | .updateEndUser _ _ => True

/-- A row that the request adds to the tenant tree gets an id that is drawn for the
organization it is added to; a new organization is its own. -/
def DrawsFor : ManagementRequest → Prop
  | .createOrganization _ => own.ofId s.newId = some s.newId
  | .createTeam orgId _ | .createEndUser orgId _ => own.ofId s.newId = some orgId
  | .createProject teamId _ => own.ofId s.newId = own.ofId teamId
  | _ => True

end Conditions

/-! ## What a request stores -/

/-- The ways in which a request changes the database. -/
inductive Stores (s : Session) (db : Database) : ManagementRequest → Database → Prop where
  | quiet (req : ManagementRequest) : Stores s db req db
  | createOrganization {req : CreateOrganizationRequest} {row : Organization} {db' : Database}
      (h : OrganizationRepo.create s (newOrganization req) db = .ok (row, db')) :
      Stores s db (.createOrganization req) db'
  | updateOrganization {orgId : Uuid} {req : UpdateOrganizationRequest} {row : Organization}
      {db' : Database} (h : OrganizationRepo.update s orgId req.name req.settings db =
        .ok (row, db')) :
      Stores s db (.updateOrganization orgId req) db'
  | deleteOrganization (orgId : Uuid) :
      Stores s db (.deleteOrganization orgId) (OrganizationRepo.delete orgId db)
  | createTeam {orgId : Uuid} {req : CreateTeamRequest} {row : Team} {db' : Database}
      (h : TeamRepo.create s (newTeam orgId req) db = .ok (row, db')) :
      Stores s db (.createTeam orgId req) db'
  | createProject {teamId : Uuid} {req : CreateProjectRequest} {row : Project} {db' : Database}
      (h : ProjectRepo.create s (newProject teamId req) db = .ok (row, db')) :
      Stores s db (.createProject teamId req) db'
  | createEndUser {orgId : Uuid} {req : CreateEndUserRequest} {row : EndUser} {db' : Database}
      (h : EndUserRepo.upsert s (newEndUser orgId req) db = .ok (row, db')) :
      Stores s db (.createEndUser orgId req) db'
  | deleteConversation (id : Uuid) :
      Stores s db (.deleteConversation id) (ConversationRepo.delete id db)
  | submitFeedback {request : SubmitFeedbackRequest} {conversationId : Uuid}
      {r : ResponseRecord} {row : FeedbackSample} {db' : Database}
      (h : FeedbackSampleRepo.create s (newSample request conversationId r) db =
        .ok (row, db')) :
      Stores s db (.submitFeedback request) db'
  | deleteFeedback (id : Uuid) :
      Stores s db (.deleteFeedback id) (FeedbackSampleRepo.delete id db)

section Stores

variable {s : Session} {db : Database}

theorem call_eq_ok {α : Type} {n : Nat} {result : Except DbError α} {x : α}
    (h : s.call n result = .ok x) : result = .ok x := by
  simp only [Session.call] at h
  split at h
  · cases h
  · exact h

/-- A statement leaves the database it was given or the one it returns. -/
theorem storeRecord_cases {ρ : Type} (status : Nat) (code what : String) (body : ρ → Body)
    (result : Except DbError (ρ × Database)) :
    (storeRecord s status code what body result db).2 = db ∨
      ∃ row, result = .ok (row, (storeRecord s status code what body result db).2) := by
  simp only [storeRecord]
  split
  · split
    · exact Or.inl rfl
    · rename_i row db' h
      exact Or.inr ⟨row, call_eq_ok h⟩
  · exact Or.inl rfl

theorem recordFeedback_stores (request : SubmitFeedbackRequest) (conversationId : Uuid)
    (responses : List ResponseRecord) :
    Stores s db (.submitFeedback request)
      (recordFeedback s request conversationId responses db).2 := by
  simp only [recordFeedback]
  split
  · exact .quiet _
  · split
    · exact .quiet _
    · rename_i h
      exact .submitFeedback (call_eq_ok h)

theorem submitFeedback_stores (request : SubmitFeedbackRequest) :
    Stores s db (.submitFeedback request) (submitFeedback s request db).2 := by
  simp only [submitFeedback]
  split
  · split
    · exact .quiet _
    · exact .quiet _
    · split
      · exact .quiet _
      · exact recordFeedback_stores request _ _
  · exact .quiet _

theorem deleteConversation_stores (id : Uuid) :
    Stores s db (.deleteConversation id) (deleteConversation s id db).2 := by
  simp only [deleteConversation]
  split
  · split
    · exact .quiet _
    · rename_i h
      injection call_eq_ok h with h
      rw [← h]
      exact .deleteConversation id
  · exact .quiet _

theorem deleteFeedback_stores (id : Uuid) :
    Stores s db (.deleteFeedback id) (deleteFeedback s id db).2 := by
  simp only [deleteFeedback]
  split
  · split
    · exact .quiet _
    · exact .quiet _
    · split
      · exact .quiet _
      · rename_i h
        injection call_eq_ok h with h
        rw [← h]
        exact .deleteFeedback id
  · exact .quiet _

/-- Every request changes the database in one of these ways. -/
theorem serve_stores (req : ManagementRequest) : Stores s db req (serve s db req).2 := by
  -- A statement is carried out or not; the routes that read leave the database alone.
  have hstore : ∀ {ρ : Type} {status : Nat} {code what : String} {body : ρ → Body}
      {result : Except DbError (ρ × Database)},
      (∀ row db', result = .ok (row, db') → Stores s db req db') →
      Stores s db req (storeRecord s status code what body result db).2 := by
    intro ρ status code what body result hok
    rcases storeRecord_cases status code what body result with h | ⟨row, h⟩
    · rw [h]
      exact .quiet req
    · exact hok row _ h
  cases req with
  | createOrganization req => exact hstore fun row db' h => .createOrganization h
  | updateOrganization orgId req => exact hstore fun row db' h => .updateOrganization h
  | deleteOrganization orgId =>
      refine hstore fun row db' h => ?_
      injection h with h
      injection h with _ h
      rw [← h]
      exact .deleteOrganization orgId
  | createTeam orgId req => exact hstore fun row db' h => .createTeam h
  | createProject teamId req => exact hstore fun row db' h => .createProject h
  | createEndUser orgId req => exact hstore fun row db' h => .createEndUser h
  | deleteConversation id => exact deleteConversation_stores id
  | submitFeedback request => exact submitFeedback_stores request
  | deleteFeedback id => exact deleteFeedback_stores id
  | _ => exact .quiet _

end Stores

section Keeps

variable {own : Ownership} {a : Uuid} {s : Session} {db db' : Database}
  {req : ManagementRequest}

theorem Stores.kept (h : Stores s db req db') (hcons : Consistent own db)
    (hw : WritesOwn own a db req) : OthersKept own a db db' := by
  cases h with
  | quiet => exact OthersKept.refl own a db
  | createOrganization h =>
      obtain ⟨-, rfl⟩ := createOrganization_ok h
      exact { OthersKept.refl own a db with organizations := kept_append _ }
  | updateOrganization h =>
      rw [updateOrganization_ok h]
      exact { OthersKept.refl own a db with organizations := kept_updateWhere hw }
  | deleteOrganization orgId => exact deleteOrganization_kept hcons hw
  | createTeam h =>
      obtain ⟨-, -, rfl⟩ := createTeam_ok h
      exact { OthersKept.refl own a db with teams := kept_append _ }
  | createProject h =>
      obtain ⟨-, -, rfl⟩ := createProject_ok h
      exact { OthersKept.refl own a db with projects := kept_append _ }
  | createEndUser h => exact upsert_kept h hw
  | deleteConversation id =>
      obtain ⟨hconv, hmsg, hresp, hlogs, hsamples⟩ := hw
      exact deleteConversation_kept hconv hmsg hresp hlogs hsamples
  | submitFeedback h =>
      obtain ⟨-, rfl⟩ := createSample_ok h
      exact { OthersKept.refl own a db with feedbackSamples := kept_append _ }
  | deleteFeedback id =>
      exact { OthersKept.refl own a db with feedbackSamples := kept_deleteWhere hw }

theorem Stores.consistent (h : Stores s db req db') (hcons : Consistent own db)
    (hnew : DrawsFor own s req) : Consistent own db' := by
  cases h with
  | quiet => exact hcons
  | createOrganization h => exact createOrganization_consistent h hcons hnew
  | updateOrganization h => exact updateOrganization_consistent h hcons
  | deleteOrganization orgId => exact deleteOrganization_consistent hcons orgId
  | createTeam h => exact createTeam_consistent h hcons hnew
  | createProject h => exact createProject_consistent h hcons hnew
  | createEndUser h => exact upsert_consistent h hcons hnew
  | deleteConversation id => exact deleteConversation_consistent hcons id
  | submitFeedback h => exact createSample_consistent h hcons rfl
  | deleteFeedback id =>
      exact { hcons with feedbackSamples := forall_filter hcons.feedbackSamples }

end Keeps

/-! ## Two databases -/

/-- Two outcomes of a request that an organization cannot tell apart. -/
def Same (own : Ownership) (a : Uuid) (x y : Reply × Database) : Prop :=
  x.1 = y.1 ∧ Agree own a x.2 y.2

section Agreement

variable {own : Ownership} {a : Uuid} {s : Session} {db₁ db₂ : Database}

theorem call_matches {ρ : Type} {r₁ r₂ : Except DbError (ρ × Database)} (n : Nat)
    (h : Matches own a r₁ r₂) : Matches own a (s.call n r₁) (s.call n r₂) := by
  simp only [Session.call]
  split
  · exact .error _
  · exact h

theorem storeRecord_same {ρ : Type} {status : Nat} {code what : String} {body : ρ → Body}
    {r₁ r₂ : Except DbError (ρ × Database)} (hagree : Agree own a db₁ db₂)
    (h : Matches own a r₁ r₂) :
    Same own a (storeRecord s status code what body r₁ db₁)
      (storeRecord s status code what body r₂ db₂) := by
  have hcall := call_matches (s := s) 0 h
  simp only [storeRecord]
  generalize s.call 0 r₁ = x₁ at hcall ⊢
  generalize s.call 0 r₂ = x₂ at hcall ⊢
  split
  · cases hcall with
    | error e => exact ⟨rfl, hagree⟩
    | ok row h => exact ⟨rfl, h⟩
  · exact ⟨rfl, hagree⟩

variable (hagree : Agree own a db₁ db₂)

include hagree

theorem getConversation_eq {id : Uuid} (h₁ : ReadsOwn own a s db₁ (.getConversation id))
    (h₂ : ReadsOwn own a s db₂ (.getConversation id)) :
    getConversation s id db₁ = getConversation s id db₂ := by
  obtain ⟨hc₁, hm₁, hr₁⟩ := h₁
  obtain ⟨hc₂, hm₂, hr₂⟩ := h₂
  unfold getConversation ConversationRepo.getById MessageRepo.getByConversation
    ResponseRepo.getByConversation
  rw [find?_eq_of_view hagree.conversations hc₁ hc₂,
    filter_eq_of_view hagree.messages hm₁ hm₂, filter_eq_of_view hagree.responses hr₁ hr₂]

theorem listConversations_eq {params : ListParams}
    (h₁ : ReadsOwn own a s db₁ (.listConversations params))
    (h₂ : ReadsOwn own a s db₂ (.listConversations params)) :
    listConversations s params db₁ = listConversations s params db₂ := by
  simp only [listConversations, ConversationRepo.getByUser]
  cases huser : params.userId with
  | none => rfl
  | some userId =>
      dsimp only
      rw [filter_eq_of_view hagree.conversations (h₁ userId huser) (h₂ userId huser)]

theorem selectFeedback_eq {params : ListFeedbackQuery}
    (h₁ : ReadsOwn own a s db₁ (.listFeedback params))
    (h₂ : ReadsOwn own a s db₂ (.listFeedback params)) :
    selectFeedback s params db₁ = selectFeedback s params db₂ := by
  have hlisted := filter_eq_of_view hagree.feedbackSamples h₁ h₂
  unfold listed at hlisted
  simp only [selectFeedback]
  cases hsearch : params.search with
  | some query =>
      simp only [hsearch] at hlisted ⊢
      exact congrArg (fun rows => (orderBy _ rows).take _) hlisted
  | none =>
      cases htags : params.tags with
      | some tags =>
          simp only [hsearch, htags] at hlisted ⊢
          exact congrArg (fun rows => (orderBy _ rows).take _) hlisted
      | none =>
          cases hcategory : params.category with
          | some category =>
              simp only [hsearch, htags, hcategory] at hlisted ⊢
              exact congrArg (fun rows => (orderBy _ rows).take _) hlisted
          | none =>
              simp only [hsearch, htags, hcategory] at hlisted ⊢
              exact congrArg (fun rows => (orderBy _ rows).take _) hlisted

theorem recordFeedback_same {request : SubmitFeedbackRequest} {conversationId : Uuid}
    {responses : List ResponseRecord}
    (h₁ : Selects (owns own a Conversation.id) (fun c => c.id == conversationId)
      db₁.conversations)
    (h₂ : Selects (owns own a Conversation.id) (fun c => c.id == conversationId)
      db₂.conversations) :
    Same own a (recordFeedback s request conversationId responses db₁)
      (recordFeedback s request conversationId responses db₂) := by
  simp only [recordFeedback]
  split
  · exact ⟨rfl, hagree⟩
  · rename_i r _
    -- the sample is built from a response that both databases hold
    have hcreate : Matches own a
        (FeedbackSampleRepo.create s (newSample request conversationId r) db₁)
        (FeedbackSampleRepo.create s (newSample request conversationId r) db₂) :=
      createSample_matches hagree rfl rfl h₁ h₂
    have hcall := call_matches (s := s) 2 hcreate
    generalize s.call 2 (FeedbackSampleRepo.create s (newSample request conversationId r) db₁) =
      x₁ at hcall ⊢
    generalize s.call 2 (FeedbackSampleRepo.create s (newSample request conversationId r) db₂) =
      x₂ at hcall ⊢
    cases hcall with
    | error e => exact ⟨rfl, hagree⟩
    | ok row h => exact ⟨rfl, h⟩

theorem submitFeedback_same {request : SubmitFeedbackRequest}
    (h₁ : ReadsOwn own a s db₁ (.submitFeedback request))
    (h₂ : ReadsOwn own a s db₂ (.submitFeedback request)) :
    Same own a (submitFeedback s request db₁) (submitFeedback s request db₂) := by
  obtain ⟨hid₁, hconv₁⟩ := h₁
  obtain ⟨hid₂, hconv₂⟩ := h₂
  have hfind := find?_eq_of_view hagree.responses hid₁ hid₂
  unfold submitFeedback ResponseRepo.findConversationByResponseId ResponseRepo.findById
    Session.call
  rw [hfind]
  cases hr : db₂.responses.find? fun r => r.id == request.responseId with
  | none =>
      split
      · cases s.fault 0 with
        | some text => exact ⟨rfl, hagree⟩
        | none => exact ⟨rfl, hagree⟩
      · exact ⟨rfl, hagree⟩
  | some r =>
      -- Both databases hold the response, so both conversations are selected rows.
      have hid : r.id = request.responseId := by simpa using List.find?_some hr
      have hmem₂ := List.mem_of_find?_eq_some hr
      rw [← hfind] at hr
      obtain ⟨hresp₁, hc₁⟩ := hconv₁ r (List.mem_of_find?_eq_some hr) hid
      obtain ⟨hresp₂, hc₂⟩ := hconv₂ r hmem₂ hid
      have hconversation : ResponseRepo.getByConversation r.conversationId db₁ =
          ResponseRepo.getByConversation r.conversationId db₂ := by
        unfold ResponseRepo.getByConversation
        rw [filter_eq_of_view hagree.responses hresp₁ hresp₂]
      split
      · cases s.fault 0 with
        | some text => exact ⟨rfl, hagree⟩
        | none =>
            dsimp only [Option.map_some]
            rw [hconversation]
            cases s.fault 1 with
            | some text => exact ⟨rfl, hagree⟩
            | none => exact recordFeedback_same hagree hc₁ hc₂
      · exact ⟨rfl, hagree⟩

theorem deleteConversation_same {id : Uuid}
    (h₁ : ReadsOwn own a s db₁ (.deleteConversation id))
    (h₂ : ReadsOwn own a s db₂ (.deleteConversation id)) :
    Same own a (deleteConversation s id db₁) (deleteConversation s id db₂) := by
  simp only [deleteConversation, Session.call]
  split
  · cases s.fault 0 with
    | some text => exact ⟨rfl, hagree⟩
    | none => exact ⟨rfl, deleteConversation_agree hagree h₁ h₂⟩
  · exact ⟨rfl, hagree⟩

theorem deleteFeedback_same {id : Uuid} (h₁ : ReadsOwn own a s db₁ (.deleteFeedback id))
    (h₂ : ReadsOwn own a s db₂ (.deleteFeedback id)) :
    Same own a (deleteFeedback s id db₁) (deleteFeedback s id db₂) := by
  simp only [deleteFeedback, FeedbackSampleRepo.findById]
  rw [find?_eq_of_view hagree.feedbackSamples h₁ h₂]
  split
  · split
    · exact ⟨rfl, hagree⟩
    · exact ⟨rfl, hagree⟩
    · simp only [Session.call]
      cases s.fault 1 with
      | some text => exact ⟨rfl, hagree⟩
      | none =>
          exact ⟨rfl, { hagree with
            feedbackSamples := view_deleteWhere_eq hagree.feedbackSamples }⟩
  · exact ⟨rfl, hagree⟩

/-- On two databases that agree, a request whose queries select owned rows has one reply,
and leaves databases that agree. -/
theorem serve_same (hcons₁ : Consistent own db₁) (hcons₂ : Consistent own db₂)
    {req : ManagementRequest} (h₁ : ReadsOwn own a s db₁ req) (h₂ : ReadsOwn own a s db₂ req) :
    Same own a (serve s db₁ req) (serve s db₂ req) := by
  -- A route that only reads answers with what it read.
  have hread : ∀ {r₁ r₂ : Reply}, r₁ = r₂ → Same own a (r₁, db₁) (r₂, db₂) :=
    fun h => ⟨h, hagree⟩
  cases req with
  | createOrganization req =>
      exact storeRecord_same hagree (createOrganization_matches hagree h₁ h₂)
  | listOrganizations =>
      have hrows := filter_eq_of_view hagree.organizations h₁ h₂
      rw [List.filter_true, List.filter_true] at hrows
      apply hread
      simp only [listOrganizations, OrganizationRepo.listAll]
      rw [hrows]
  | getOrganization orgId =>
      apply hread
      simp only [getOrganization, OrganizationRepo.findById]
      rw [find?_eq_of_view hagree.organizations h₁ h₂]
  | updateOrganization orgId req =>
      exact storeRecord_same hagree (updateOrganization_matches hagree h₁ h₂)
  | deleteOrganization orgId =>
      exact storeRecord_same hagree
        (.ok () (deleteOrganization_agree hagree hcons₁ hcons₂ h₁ h₂))
  | createTeam orgId req =>
      exact storeRecord_same hagree (createTeam_matches hagree h₁.1 h₂.1 h₁.2 h₂.2)
  | listTeams orgId =>
      apply hread
      simp only [listTeams, TeamRepo.getByOrganization]
      rw [filter_eq_of_view hagree.teams h₁ h₂]
  | getTeam teamId =>
      apply hread
      simp only [getTeam, TeamRepo.findById]
      rw [find?_eq_of_view hagree.teams h₁ h₂]
  | createProject teamId req =>
      exact storeRecord_same hagree (createProject_matches hagree h₁.1 h₂.1 h₁.2 h₂.2)
  | listProjects teamId =>
      apply hread
      simp only [listProjects, ProjectRepo.getByTeam]
      rw [filter_eq_of_view hagree.projects h₁ h₂]
  | getProject projectId =>
      apply hread
      simp only [getProject, ProjectRepo.findById]
      rw [find?_eq_of_view hagree.projects h₁ h₂]
  | createEndUser orgId req =>
      exact storeRecord_same hagree (upsert_matches hagree h₁.1 h₂.1 h₁.2 h₂.2)
  | listEndUsers orgId =>
      apply hread
      simp only [listEndUsers, EndUserRepo.getByOrganization]
      rw [filter_eq_of_view hagree.endUsers h₁ h₂]
  | getEndUser userId =>
      apply hread
      simp only [getEndUser, EndUserRepo.findById]
      rw [find?_eq_of_view hagree.endUsers h₁ h₂]
  | listConversations params => exact hread (listConversations_eq hagree h₁ h₂)
  | getConversation id => exact hread (getConversation_eq hagree h₁ h₂)
  | deleteConversation id => exact deleteConversation_same hagree h₁ h₂
  | submitFeedback request => exact submitFeedback_same hagree h₁ h₂
  | listFeedback params =>
      apply hread
      simp only [listFeedback]
      rw [selectFeedback_eq hagree h₁ h₂]
  | getFeedbackStats =>
      apply hread
      simp only [getFeedbackStats, FeedbackSampleRepo.getStats]
      rw [filter_eq_of_view hagree.feedbackSamples h₁ h₂]
  | getFeedback id =>
      apply hread
      simp only [getFeedback, FeedbackSampleRepo.findById]
      rw [find?_eq_of_view hagree.feedbackSamples h₁ h₂]
  | deleteFeedback id => exact deleteFeedback_same hagree h₁ h₂
  | updateTeam teamId req => exact hread rfl
  | deleteTeam teamId => exact hread rfl
  | updateProject projectId req => exact hread rfl
  | deleteProject projectId => exact hread rfl
  | updateEndUser userId req => exact hread rfl

end Agreement

/-! ## Runs -/

/-- One request, in its session. -/
structure Call where
  session : Session
  request : ManagementRequest

/-- The replies to a run of calls, and the database the run leaves. -/
def serveAll : Database → List Call → List Reply × Database
  | db, [] => ([], db)
  | db, c :: cs =>
      let answer := serve c.session db c.request
      let rest := serveAll answer.2 cs
      (answer.1 :: rest.1, rest.2)

/-- A condition on calls holds all along a run, each call judged on the database it
meets. -/
def Along (P : Call → Database → Prop) : Database → List Call → Prop
  | _, [] => True
  | db, c :: cs => P c db ∧ Along P (serve c.session db c.request).2 cs

section Runs

variable (own : Ownership) (a : Uuid)

/-- The call updates and deletes rows of `a` or of nobody only. -/
def WritesWithin (c : Call) (db : Database) : Prop :=
  DrawsFor own c.session c.request ∧ WritesOwn own a db c.request

/-- The call selects rows of `a` or of nobody only. -/
def ReadsWithin (c : Call) (db : Database) : Prop :=
  DrawsFor own c.session c.request ∧ ReadsOwn own a c.session db c.request

theorem serveAll_kept (calls : List Call) : ∀ db : Database, Consistent own db →
    Along (WritesWithin own a) db calls → OthersKept own a db (serveAll db calls).2 := by
  induction calls with
  | nil => exact fun db _ _ => OthersKept.refl own a db
  | cons c cs ih =>
      intro db hcons hrun
      obtain ⟨⟨hnew, hw⟩, hrest⟩ := hrun
      have hstores : Stores c.session db c.request (serve c.session db c.request).2 :=
        serve_stores c.request
      exact (hstores.kept hcons hw).trans (ih _ (hstores.consistent hcons hnew) hrest)

theorem serveAll_same (calls : List Call) : ∀ db₁ db₂ : Database, Agree own a db₁ db₂ →
    Consistent own db₁ → Consistent own db₂ → Along (ReadsWithin own a) db₁ calls →
    Along (ReadsWithin own a) db₂ calls →
    (serveAll db₁ calls).1 = (serveAll db₂ calls).1 ∧
      Agree own a (serveAll db₁ calls).2 (serveAll db₂ calls).2 := by
  induction calls with
  | nil => exact fun db₁ db₂ hagree _ _ _ _ => ⟨rfl, hagree⟩
  | cons c cs ih =>
      intro db₁ db₂ hagree hcons₁ hcons₂ hrun₁ hrun₂
      obtain ⟨⟨hnew, hr₁⟩, hrest₁⟩ := hrun₁
      obtain ⟨⟨-, hr₂⟩, hrest₂⟩ := hrun₂
      obtain ⟨hreply, hafter⟩ := serve_same hagree hcons₁ hcons₂ hr₁ hr₂
      obtain ⟨hreplies, hlast⟩ := ih _ _ hafter
        ((serve_stores c.request).consistent hcons₁ hnew)
        ((serve_stores c.request).consistent hcons₂ hnew) hrest₁ hrest₂
      refine ⟨?_, hlast⟩
      show (serve c.session db₁ c.request).1 :: _ = (serve c.session db₂ c.request).1 :: _
      rw [hreply, hreplies]

/-- What the management routes keep apart. A run whose updates and deletions select rows
of `a` or of nobody leaves every row of another organization in place, and a run whose
queries select such rows has the same replies on every two databases that differ only in
rows of others. -/
theorem management_isolation :
    (∀ (db : Database) (calls : List Call), Consistent own db →
      Along (WritesWithin own a) db calls → OthersKept own a db (serveAll db calls).2) ∧
    ∀ (db₁ db₂ : Database) (calls : List Call), Agree own a db₁ db₂ → Consistent own db₁ →
      Consistent own db₂ → Along (ReadsWithin own a) db₁ calls →
      Along (ReadsWithin own a) db₂ calls →
      (serveAll db₁ calls).1 = (serveAll db₂ calls).1 :=
  ⟨fun db calls hcons hrun => serveAll_kept own a calls db hcons hrun,
    fun db₁ db₂ calls hagree hcons₁ hcons₂ hrun₁ hrun₂ =>
      (serveAll_same own a calls db₁ db₂ hagree hcons₁ hcons₂ hrun₁ hrun₂).1⟩

end Runs

/-! ## Two organizations -/

namespace Sample

/-- Ids below ten are organizations, the others belong to the organization of their tens. -/
def own : Ownership :=
  { ofId := fun id => some (if id < 10 then id else id / 10)
    ofResponse := fun _ => none }

def session (newId : Uuid) : Session :=
  { engine :=
      { errorText := fun _ => ""
        collate := fun x y => decide (x ≤ y)
        textMatches := fun _ _ => false
        textRank := fun _ _ => 0 }
    now := 7
    newId }

def organization (id : Uuid) : Organization :=
  { id
    name := "org"
    slug := Nat.repr id
    ownerId := "owner"
    settings := none
    createdAt := 0
    updatedAt := 0 }

def team (id organizationId : Uuid) : Team :=
  { id
    organizationId
    name := "team"
    slug := Nat.repr id
    description := none
    monthlyTokenLimit := none
    currentMonthTokens := 0
    usageResetMonth := none
    settings := none
    createdAt := 0
    updatedAt := 0 }

/-- Organizations 1 and 2, each with a team. -/
def both : Database :=
  { organizations := [organization 1, organization 2], teams := [team 11 1, team 21 2] }

/-- The same without organization 2. -/
def alone : Database := { organizations := [organization 1], teams := [team 11 1] }

/-- A run of organization 1: rename it, add a team, list the teams, delete it. -/
def ownCalls : List Call :=
  [⟨session 0, .updateOrganization 1 { name := some "acme", settings := none }⟩,
    ⟨session 12, .createTeam 1
      { name := "ml", slug := "ml", description := none, monthlyTokenLimit := none }⟩,
    ⟨session 0, .listTeams 1⟩, ⟨session 0, .deleteOrganization 1⟩]

/-- A key of organization 1 reads and deletes organization 2. -/
def readsOther : List Call := [⟨session 0, .getOrganization 2⟩]

def deletesOther : List Call := [⟨session 0, .deleteOrganization 2⟩]

theorem both_consistent : Consistent own both := by
  constructor <;> decide

theorem alone_consistent : Consistent own alone := by
  constructor <;> decide

theorem agree : Agree own 1 both alone := by
  constructor <;> rfl

end Sample

open Sample in
theorem management_isolation_sample :
    Along (WritesWithin own 1) both ownCalls ∧ Along (ReadsWithin own 1) both ownCalls ∧
    Along (ReadsWithin own 1) alone ownCalls ∧
    OthersKept own 1 both (serveAll both ownCalls).2 ∧
    (serveAll both ownCalls).1 = (serveAll alone ownCalls).1 := by
  have hwrites : Along (WritesWithin own 1) both ownCalls := by
    refine ⟨⟨trivial, ?_⟩, ⟨rfl, trivial⟩, ⟨trivial, trivial⟩, ⟨trivial, ?_⟩, trivial⟩ <;>
      (show Selects _ _ _; decide)
  have hreads : ∀ db ∈ [both, alone], Along (ReadsWithin own 1) db ownCalls := by
    intro db hdb
    rcases List.mem_pair.mp hdb with rfl | rfl
    all_goals
      refine ⟨⟨trivial, ?_⟩, ⟨rfl, ?_, ?_⟩, ⟨trivial, ?_⟩, ⟨trivial, ?_⟩, trivial⟩ <;>
        (show Selects _ _ _; decide)
  have hboth := hreads both List.mem_cons_self
  have halone := hreads alone (List.mem_cons_of_mem _ List.mem_cons_self)
  exact ⟨hwrites, hboth, halone,
    (management_isolation own 1).1 both ownCalls both_consistent hwrites,
    (management_isolation own 1).2 both alone ownCalls agree both_consistent alone_consistent
      hboth halone⟩

open Sample in
/-- A key of organization 1 deletes organization 2, and is told whether it exists. -/
theorem management_isolation_broken :
    ¬ OthersKept own 1 both (serveAll both deletesOther).2 ∧
    Agree own 1 both alone ∧
    (serveAll both readsOther).1.map Reply.status = [200] ∧
    (serveAll alone readsOther).1.map Reply.status = [404] := by
  refine ⟨?_, agree, rfl, rfl⟩
  intro h
  have hkept := h.organizations (organization 2) (List.mem_cons_of_mem _ List.mem_cons_self) rfl
  have hleft : (serveAll both deletesOther).2.organizations = [organization 1] := rfl
  rw [hleft, List.mem_singleton] at hkept
  exact absurd (congrArg Organization.id hkept) (by decide)

end AuraGateway.Management
