import AuraGateway.Storage.Repo

/-!
# Statements and ownership

For each statement that changes the database: it keeps the references of the tenant tree
inside one organization (`…_consistent`), it leaves the rows of others where they were
when it selects owned rows only (`…_kept`), and it answers alike on two databases that
differ only in rows of others (`…_matches`). Deleting an organization cascades; that the
cascade stays inside the organization is `teamsOf_owned` and its siblings.
-/

set_option autoImplicit false

namespace AuraGateway.Storage

open AuraGateway.Types AuraGateway.Foundations.OwnedRows

variable {own : Ownership} {a : Uuid} {s : Session} {db db₁ db₂ db' : Database}

theorem present_iff {ρ : Type} {id : ρ → Uuid} {rows : List ρ} {target : Uuid} :
    present id rows target = true ↔ ∃ r ∈ rows, id r = target := by
  simp only [present]
  simp

theorem refersTo_iff {ρ : Type} {id : ρ → Uuid} {rows : List ρ} {r : Reference} :
    refersTo id rows r = true ↔ ∃ target ∈ r.target, present id rows target = true := by
  simp only [refersTo]
  rw [Option.any_eq_true]
  rfl

/-- Whether a row is there is asked of its id. -/
theorem present_eq_of_view {ρ : Type} {id : ρ → Uuid} {t₁ t₂ : List ρ} {target : Uuid}
    (h : view (owns own a id) t₁ = view (owns own a id) t₂)
    (h₁ : Selects (owns own a id) (fun r => id r == target) t₁)
    (h₂ : Selects (owns own a id) (fun r => id r == target) t₂) :
    present id t₁ target = present id t₂ target :=
  any_eq_of_view h h₁ h₂

/-! ## The cascade of an organization -/

/-- The id of a row that an owned selection holds is owned. -/
theorem owned_of_present {ρ : Type} {id : ρ → Uuid} {q : ρ → Bool} {rows : List ρ}
    (h : Selects (owns own a id) q rows) {target : Uuid}
    (hp : present id (rows.filter q) target = true) :
    ownedBy a (own.ofId target) = true := by
  obtain ⟨r, hr, rfl⟩ := present_iff.mp hp
  obtain ⟨hmem, hq⟩ := List.mem_filter.mp hr
  exact h r hmem hq

section Cascade

variable (hcons : Consistent own db) {orgId : Uuid}
  (hsel : Selects (owns own a Organization.id) (fun o => o.id == orgId) db.organizations)

include hcons hsel

/-- The deleted organization is owned, under its own id. -/
theorem organization_owned {o : Uuid}
    (h : present Organization.id (db.organizations.filter fun o => o.id == orgId) o = true) :
    ownedBy a (some o) = true := by
  obtain ⟨org, horg, rfl⟩ := present_iff.mp h
  obtain ⟨hmem, hid⟩ := List.mem_filter.mp horg
  have howned := hsel org hmem hid
  simp only [owns] at howned
  -- an organization owns its own row
  rw [hcons.organizations org hmem] at howned
  exact howned

/-- The teams below it are owned. -/
theorem teamsOf_owned : Selects (owns own a Team.id)
    (fun t => present Organization.id (db.organizations.filter fun o => o.id == orgId)
      t.organizationId) db.teams := by
  intro t ht hp
  simp only [owns]
  rw [hcons.teams t ht]
  exact organization_owned hcons hsel hp

/-- The end users below it are owned. -/
theorem endUsersOf_owned : Selects (owns own a EndUser.id)
    (fun u => present Organization.id (db.organizations.filter fun o => o.id == orgId)
      u.organizationId) db.endUsers := by
  intro u hu hp
  simp only [owns]
  rw [hcons.endUsers u hu]
  exact organization_owned hcons hsel hp

/-- Its members and samples are owned. -/
theorem membersOf_owned : Selects (owns own a Reference.id)
    (refersTo Organization.id (db.organizations.filter fun o => o.id == orgId))
    db.organizationMembers := by
  intro m hm hp
  obtain ⟨o, ho, hp⟩ := refersTo_iff.mp hp
  simp only [owns]
  rw [hcons.organizationMembers m hm o ho]
  exact organization_owned hcons hsel hp

theorem samplesOf_owned : Selects (owns own a FeedbackSample.id)
    (fun f => f.organizationId.any
      (present Organization.id (db.organizations.filter fun o => o.id == orgId)))
    db.feedbackSamples := by
  intro f hf hp
  obtain ⟨o, ho, hp⟩ := (Option.any_eq_true _ _).mp hp
  simp only [owns]
  rw [hcons.feedbackSamples f hf o ho]
  exact organization_owned hcons hsel hp

theorem projectsOf_owned : Selects (owns own a Project.id)
    (fun p => present Team.id (db.teams.filter fun t =>
      present Organization.id (db.organizations.filter fun o => o.id == orgId)
        t.organizationId) p.teamId) db.projects := by
  intro p hp hpresent
  simp only [owns]
  rw [hcons.projects p hp]
  exact owned_of_present (teamsOf_owned hcons hsel) hpresent

theorem teamMembersOf_owned : Selects (owns own a Reference.id)
    (refersTo Team.id (db.teams.filter fun t =>
      present Organization.id (db.organizations.filter fun o => o.id == orgId)
        t.organizationId)) db.teamMembers := by
  intro m hm hp
  obtain ⟨t, ht, hpresent⟩ := refersTo_iff.mp hp
  simp only [owns]
  rw [hcons.teamMembers m hm t ht]
  exact owned_of_present (teamsOf_owned hcons hsel) hpresent

theorem usageOf_owned : Selects (owns own a Reference.id)
    (refersTo EndUser.id (db.endUsers.filter fun u =>
      present Organization.id (db.organizations.filter fun o => o.id == orgId)
        u.organizationId)) db.apiKeyUsage := by
  intro l hl hp
  obtain ⟨u, hu, hpresent⟩ := refersTo_iff.mp hp
  simp only [owns]
  rw [hcons.apiKeyUsage l hl u hu]
  exact owned_of_present (endUsersOf_owned hcons hsel) hpresent

/-- Deleting an owned organization leaves the rows of others. -/
theorem deleteOrganization_kept : OthersKept own a db (OrganizationRepo.delete orgId db) :=
  { OthersKept.refl own a db with
    organizations := kept_deleteWhere hsel
    organizationMembers := kept_deleteWhere (membersOf_owned hcons hsel)
    teams := kept_deleteWhere (teamsOf_owned hcons hsel)
    teamMembers := kept_deleteWhere (teamMembersOf_owned hcons hsel)
    projects := kept_deleteWhere (projectsOf_owned hcons hsel)
    endUsers := kept_deleteWhere (endUsersOf_owned hcons hsel)
    apiKeyUsage := kept_updateWhere (usageOf_owned hcons hsel)
    feedbackSamples := kept_deleteWhere (samplesOf_owned hcons hsel) }

end Cascade

/-- Deleting an organization leaves no reference that leads elsewhere. -/
theorem deleteOrganization_consistent (hcons : Consistent own db) (orgId : Uuid) :
    Consistent own (OrganizationRepo.delete orgId db) :=
  { organizations := forall_filter hcons.organizations
    organizationMembers := forall_filter hcons.organizationMembers
    teams := forall_filter hcons.teams
    teamMembers := forall_filter hcons.teamMembers
    projects := forall_filter hcons.projects
    endUsers := forall_filter hcons.endUsers
    apiKeyUsage := forall_updateWhere hcons.apiKeyUsage fun _ _ _ hu => by cases hu
    feedbackSamples := forall_filter hcons.feedbackSamples }

/-- Deleting an owned organization keeps databases in agreement. -/
theorem deleteOrganization_agree (hagree : Agree own a db₁ db₂) (hcons₁ : Consistent own db₁)
    (hcons₂ : Consistent own db₂) {orgId : Uuid}
    (h₁ : Selects (owns own a Organization.id) (fun o => o.id == orgId) db₁.organizations)
    (h₂ : Selects (owns own a Organization.id) (fun o => o.id == orgId) db₂.organizations) :
    Agree own a (OrganizationRepo.delete orgId db₁) (OrganizationRepo.delete orgId db₂) := by
  -- The two databases lose the same organization, teams and end users.
  have horgs := filter_eq_of_view hagree.organizations h₁ h₂
  have hteams := teamsOf_owned hcons₁ h₁
  have husers := endUsersOf_owned hcons₁ h₁
  rw [horgs] at hteams husers
  -- and so the rows below these are the same ones
  have hteams := filter_eq_of_view hagree.teams hteams (teamsOf_owned hcons₂ h₂)
  have husers := filter_eq_of_view hagree.endUsers husers (endUsersOf_owned hcons₂ h₂)
  simp only [OrganizationRepo.delete]
  rw [horgs, hteams, husers]
  exact
    { hagree with
      organizations := view_deleteWhere_eq hagree.organizations
      organizationMembers := view_deleteWhere_eq hagree.organizationMembers
      teams := view_deleteWhere_eq hagree.teams
      teamMembers := view_deleteWhere_eq hagree.teamMembers
      projects := view_deleteWhere_eq hagree.projects
      endUsers := view_deleteWhere_eq hagree.endUsers
      apiKeyUsage := view_updateWhere_eq hagree.apiKeyUsage fun _ => rfl
      feedbackSamples := view_deleteWhere_eq hagree.feedbackSamples }

/-! ## Outcomes -/

/-- Two outcomes of one statement that an organization cannot tell apart. -/
inductive Matches (own : Ownership) (a : Uuid) {ρ : Type} :
    Except DbError (ρ × Database) → Except DbError (ρ × Database) → Prop where
  | error (e : DbError) : Matches own a (.error e) (.error e)
  | ok (row : ρ) {db₁ db₂ : Database} (h : Agree own a db₁ db₂) :
      Matches own a (.ok (row, db₁)) (.ok (row, db₂))

/-! ## Organizations -/

theorem createOrganization_ok {new : NewOrganization} {row : Organization}
    (h : OrganizationRepo.create s new db = .ok (row, db')) :
    row.id = s.newId ∧ db' = { db with organizations := db.organizations ++ [row] } := by
  simp only [OrganizationRepo.create] at h
  split at h
  · cases h
  · injection h with h
    injection h with hrow h
    rw [← hrow]
    exact ⟨rfl, h.symm⟩

theorem createOrganization_consistent {new : NewOrganization} {row : Organization}
    (h : OrganizationRepo.create s new db = .ok (row, db')) (hcons : Consistent own db)
    (hnew : own.ofId s.newId = some s.newId) : Consistent own db' := by
  obtain ⟨hid, rfl⟩ := createOrganization_ok h
  exact
    { hcons with
      organizations := forall_append_singleton hcons.organizations (by rw [hid]; exact hnew) }

theorem createOrganization_matches (hagree : Agree own a db₁ db₂) {new : NewOrganization}
    (h₁ : Selects (owns own a Organization.id) (fun o => o.slug == new.slug) db₁.organizations)
    (h₂ : Selects (owns own a Organization.id) (fun o => o.slug == new.slug) db₂.organizations) :
    Matches own a (OrganizationRepo.create s new db₁) (OrganizationRepo.create s new db₂) := by
  simp only [OrganizationRepo.create]
  rw [any_eq_of_view hagree.organizations h₁ h₂]
  split
  · exact .error _
  · exact .ok _ { hagree with organizations := view_append_eq hagree.organizations _ }

theorem updateOrganization_ok {orgId : Uuid} {name : Option String} {settings : Option Json}
    {row : Organization} (h : OrganizationRepo.update s orgId name settings db = .ok (row, db')) :
    db' = { db with
      organizations := updateWhere (fun o => o.id == orgId)
        (OrganizationRepo.patched s name settings) db.organizations } := by
  simp only [OrganizationRepo.update] at h
  split at h
  · cases h
  · injection h with h
    injection h with _ h
    exact h.symm

theorem updateOrganization_consistent {orgId : Uuid} {name : Option String}
    {settings : Option Json} {row : Organization}
    (h : OrganizationRepo.update s orgId name settings db = .ok (row, db'))
    (hcons : Consistent own db) : Consistent own db' := by
  rw [updateOrganization_ok h]
  exact { hcons with organizations := forall_updateWhere hcons.organizations fun _ ho => ho }

theorem updateOrganization_matches (hagree : Agree own a db₁ db₂) {orgId : Uuid}
    {name : Option String} {settings : Option Json}
    (h₁ : Selects (owns own a Organization.id) (fun o => o.id == orgId) db₁.organizations)
    (h₂ : Selects (owns own a Organization.id) (fun o => o.id == orgId) db₂.organizations) :
    Matches own a (OrganizationRepo.update s orgId name settings db₁)
      (OrganizationRepo.update s orgId name settings db₂) := by
  simp only [OrganizationRepo.update, OrganizationRepo.findById]
  rw [find?_eq_of_view hagree.organizations h₁ h₂]
  split
  · exact .error _
  · exact .ok _
      { hagree with
        organizations := view_updateWhere_eq hagree.organizations fun _ => rfl }

/-! ## Teams, projects and end users -/

theorem createTeam_ok {new : NewTeam} {row : Team}
    (h : TeamRepo.create s new db = .ok (row, db')) :
    row.id = s.newId ∧ row.organizationId = new.organizationId ∧
      db' = { db with teams := db.teams ++ [row] } := by
  simp only [TeamRepo.create] at h
  split at h
  · cases h
  · split at h
    · injection h with h
      injection h with hrow h
      rw [← hrow]
      exact ⟨rfl, rfl, h.symm⟩
    · cases h

theorem createTeam_consistent {new : NewTeam} {row : Team}
    (h : TeamRepo.create s new db = .ok (row, db')) (hcons : Consistent own db)
    (hnew : own.ofId s.newId = some new.organizationId) : Consistent own db' := by
  obtain ⟨hid, horg, rfl⟩ := createTeam_ok h
  have hrow : own.ofId row.id = some row.organizationId := by
    rw [hid, horg]
    exact hnew
  exact { hcons with teams := forall_append_singleton hcons.teams hrow }

theorem createTeam_matches (hagree : Agree own a db₁ db₂) {new : NewTeam}
    (h₁ : Selects (owns own a Team.id)
      (fun t => t.organizationId == new.organizationId && t.slug == new.slug) db₁.teams)
    (h₂ : Selects (owns own a Team.id)
      (fun t => t.organizationId == new.organizationId && t.slug == new.slug) db₂.teams)
    (ho₁ : Selects (owns own a Organization.id) (fun o => o.id == new.organizationId)
      db₁.organizations)
    (ho₂ : Selects (owns own a Organization.id) (fun o => o.id == new.organizationId)
      db₂.organizations) :
    Matches own a (TeamRepo.create s new db₁) (TeamRepo.create s new db₂) := by
  simp only [TeamRepo.create]
  rw [any_eq_of_view hagree.teams h₁ h₂, present_eq_of_view hagree.organizations ho₁ ho₂]
  split
  · exact .error _
  · split
    · exact .ok _ { hagree with teams := view_append_eq hagree.teams _ }
    · exact .error _

theorem createProject_ok {new : NewProject} {row : Project}
    (h : ProjectRepo.create s new db = .ok (row, db')) :
    row.id = s.newId ∧ row.teamId = new.teamId ∧
      db' = { db with projects := db.projects ++ [row] } := by
  simp only [ProjectRepo.create] at h
  split at h
  · cases h
  · split at h
    · injection h with h
      injection h with hrow h
      rw [← hrow]
      exact ⟨rfl, rfl, h.symm⟩
    · cases h

theorem createProject_consistent {new : NewProject} {row : Project}
    (h : ProjectRepo.create s new db = .ok (row, db')) (hcons : Consistent own db)
    (hnew : own.ofId s.newId = own.ofId new.teamId) : Consistent own db' := by
  obtain ⟨hid, hteam, rfl⟩ := createProject_ok h
  have hrow : own.ofId row.id = own.ofId row.teamId := by
    rw [hid, hteam]
    exact hnew
  exact { hcons with projects := forall_append_singleton hcons.projects hrow }

theorem createProject_matches (hagree : Agree own a db₁ db₂) {new : NewProject}
    (h₁ : Selects (owns own a Project.id)
      (fun p => p.teamId == new.teamId && p.slug == new.slug) db₁.projects)
    (h₂ : Selects (owns own a Project.id)
      (fun p => p.teamId == new.teamId && p.slug == new.slug) db₂.projects)
    (ht₁ : Selects (owns own a Team.id) (fun t => t.id == new.teamId) db₁.teams)
    (ht₂ : Selects (owns own a Team.id) (fun t => t.id == new.teamId) db₂.teams) :
    Matches own a (ProjectRepo.create s new db₁) (ProjectRepo.create s new db₂) := by
  simp only [ProjectRepo.create]
  rw [any_eq_of_view hagree.projects h₁ h₂, present_eq_of_view hagree.teams ht₁ ht₂]
  split
  · exact .error _
  · split
    · exact .ok _ { hagree with projects := view_append_eq hagree.projects _ }
    · exact .error _

/-- An upsert updates the rows under its key, or adds one. -/
theorem upsert_ok {new : NewEndUser} {row : EndUser}
    (h : EndUserRepo.upsert s new db = .ok (row, db')) :
    db' = { db with
      endUsers := updateWhere (EndUserRepo.sameKey new) (EndUserRepo.merged s new) db.endUsers } ∨
    row.id = s.newId ∧ row.organizationId = new.organizationId ∧
      db' = { db with endUsers := db.endUsers ++ [row] } := by
  simp only [EndUserRepo.upsert] at h
  split at h
  · injection h with h
    injection h with _ h
    exact Or.inl h.symm
  · split at h
    · injection h with h
      injection h with hrow h
      rw [← hrow]
      exact Or.inr ⟨rfl, rfl, h.symm⟩
    · cases h

theorem upsert_consistent {new : NewEndUser} {row : EndUser}
    (h : EndUserRepo.upsert s new db = .ok (row, db')) (hcons : Consistent own db)
    (hnew : own.ofId s.newId = some new.organizationId) : Consistent own db' := by
  rcases upsert_ok h with rfl | ⟨hid, horg, rfl⟩
  · exact { hcons with endUsers := forall_updateWhere hcons.endUsers fun _ hu => hu }
  · have hrow : own.ofId row.id = some row.organizationId := by
      rw [hid, horg]
      exact hnew
    exact { hcons with endUsers := forall_append_singleton hcons.endUsers hrow }

theorem upsert_kept {new : NewEndUser} {row : EndUser}
    (h : EndUserRepo.upsert s new db = .ok (row, db'))
    (hsel : Selects (owns own a EndUser.id) (EndUserRepo.sameKey new) db.endUsers) :
    OthersKept own a db db' := by
  rcases upsert_ok h with rfl | ⟨-, -, rfl⟩
  · exact { OthersKept.refl own a db with endUsers := kept_updateWhere hsel }
  · exact { OthersKept.refl own a db with endUsers := kept_append row }

theorem upsert_matches (hagree : Agree own a db₁ db₂) {new : NewEndUser}
    (h₁ : Selects (owns own a EndUser.id) (EndUserRepo.sameKey new) db₁.endUsers)
    (h₂ : Selects (owns own a EndUser.id) (EndUserRepo.sameKey new) db₂.endUsers)
    (ho₁ : Selects (owns own a Organization.id) (fun o => o.id == new.organizationId)
      db₁.organizations)
    (ho₂ : Selects (owns own a Organization.id) (fun o => o.id == new.organizationId)
      db₂.organizations) :
    Matches own a (EndUserRepo.upsert s new db₁) (EndUserRepo.upsert s new db₂) := by
  simp only [EndUserRepo.upsert]
  rw [find?_eq_of_view hagree.endUsers h₁ h₂,
    present_eq_of_view hagree.organizations ho₁ ho₂]
  split
  · exact .ok _
      { hagree with endUsers := view_updateWhere_eq hagree.endUsers fun _ => rfl }
  · split
    · exact .ok _ { hagree with endUsers := view_append_eq hagree.endUsers _ }
    · exact .error _

/-! ## Conversations -/

/-- The rows deleted with a conversation name it. -/
theorem eq_of_present_conversation {id target : Uuid}
    (h : present Conversation.id (db.conversations.filter fun c => c.id == id) target = true) :
    target = id := by
  obtain ⟨c, hc, rfl⟩ := present_iff.mp h
  exact eq_of_beq (List.mem_filter.mp hc).2

theorem deleteConversation_kept {id : Uuid}
    (hconv : Selects (owns own a Conversation.id) (fun c => c.id == id) db.conversations)
    (hmsg : Selects (owns own a Message.id) (fun m => m.conversationId == id) db.messages)
    (hresp : Selects (ownsResponse own a) (fun r => r.conversationId == id) db.responses)
    (hlogs : Selects (owns own a Reference.id) (fun l => l.target == some id) db.requestLogs)
    (hsamples : Selects (owns own a FeedbackSample.id) (fun f => f.conversationId == some id)
      db.feedbackSamples) :
    OthersKept own a db (ConversationRepo.delete id db) := by
  have hmsg' : Selects (owns own a Message.id)
      (fun m => present Conversation.id (db.conversations.filter fun c => c.id == id)
        m.conversationId) db.messages :=
    fun m hm hp => hmsg m hm (beq_of_eq (eq_of_present_conversation hp))
  have hresp' : Selects (ownsResponse own a)
      (fun r => present Conversation.id (db.conversations.filter fun c => c.id == id)
        r.conversationId) db.responses :=
    fun r hr hp => hresp r hr (beq_of_eq (eq_of_present_conversation hp))
  have hlogs' : Selects (owns own a Reference.id)
      (refersTo Conversation.id (db.conversations.filter fun c => c.id == id))
      db.requestLogs := by
    intro l hl hp
    obtain ⟨c, hc, hp⟩ := refersTo_iff.mp hp
    rw [eq_of_present_conversation hp] at hc
    exact hlogs l hl (beq_of_eq hc)
  have hsamples' : Selects (owns own a FeedbackSample.id)
      (fun f => f.conversationId.any
        (present Conversation.id (db.conversations.filter fun c => c.id == id)))
      db.feedbackSamples := by
    intro f hf hp
    obtain ⟨c, hc, hp⟩ := (Option.any_eq_true _ _).mp hp
    rw [eq_of_present_conversation hp] at hc
    exact hsamples f hf (beq_of_eq hc)
  exact
    { OthersKept.refl own a db with
      conversations := kept_deleteWhere hconv
      messages := kept_deleteWhere hmsg'
      responses := kept_deleteWhere hresp'
      requestLogs := kept_updateWhere hlogs'
      feedbackSamples := kept_updateWhere hsamples' }

theorem deleteConversation_consistent (hcons : Consistent own db) (id : Uuid) :
    Consistent own (ConversationRepo.delete id db) :=
  { hcons with
    feedbackSamples := forall_updateWhere hcons.feedbackSamples fun _ hf => hf }

theorem deleteConversation_agree (hagree : Agree own a db₁ db₂) {id : Uuid}
    (h₁ : Selects (owns own a Conversation.id) (fun c => c.id == id) db₁.conversations)
    (h₂ : Selects (owns own a Conversation.id) (fun c => c.id == id) db₂.conversations) :
    Agree own a (ConversationRepo.delete id db₁) (ConversationRepo.delete id db₂) := by
  simp only [ConversationRepo.delete]
  rw [filter_eq_of_view hagree.conversations h₁ h₂]
  exact
    { hagree with
      conversations := view_deleteWhere_eq hagree.conversations
      messages := view_deleteWhere_eq hagree.messages
      responses := view_deleteWhere_eq hagree.responses
      requestLogs := view_updateWhere_eq hagree.requestLogs fun _ => rfl
      feedbackSamples := view_updateWhere_eq hagree.feedbackSamples fun _ => rfl }

/-! ## Feedback samples -/

theorem createSample_ok {new : NewFeedbackSample} {row : FeedbackSample}
    (h : FeedbackSampleRepo.create s new db = .ok (row, db')) :
    row.organizationId = new.organizationId ∧
      db' = { db with feedbackSamples := db.feedbackSamples ++ [row] } := by
  simp only [FeedbackSampleRepo.create] at h
  split at h
  · cases h
  · split at h
    · cases h
    · injection h with h
      injection h with hrow h
      rw [← hrow]
      exact ⟨rfl, h.symm⟩

/-- A sample that names no organization is added to none. -/
theorem createSample_consistent {new : NewFeedbackSample} {row : FeedbackSample}
    (h : FeedbackSampleRepo.create s new db = .ok (row, db')) (hcons : Consistent own db)
    (hnew : new.organizationId = none) : Consistent own db' := by
  obtain ⟨horg, rfl⟩ := createSample_ok h
  have hrow : ∀ o ∈ row.organizationId, own.ofId row.id = some o := by
    intro o ho
    rw [horg, hnew] at ho
    cases ho
  exact { hcons with feedbackSamples := forall_append_singleton hcons.feedbackSamples hrow }

theorem createSample_matches (hagree : Agree own a db₁ db₂) {new : NewFeedbackSample}
    (hnew : new.organizationId = none) {conversationId : Uuid}
    (hconv : new.conversationId = some conversationId)
    (h₁ : Selects (owns own a Conversation.id) (fun c => c.id == conversationId)
      db₁.conversations)
    (h₂ : Selects (owns own a Conversation.id) (fun c => c.id == conversationId)
      db₂.conversations) :
    Matches own a (FeedbackSampleRepo.create s new db₁) (FeedbackSampleRepo.create s new db₂) := by
  have hpresent := present_eq_of_view hagree.conversations h₁ h₂
  simp only [FeedbackSampleRepo.create]
  rw [hnew, hconv, Option.all_none, Option.all_none, Option.all_some, Option.all_some, hpresent]
  split
  · exact .error _
  · split
    · exact .error _
    · exact .ok _ { hagree with feedbackSamples := view_append_eq hagree.feedbackSamples _ }

end AuraGateway.Storage
