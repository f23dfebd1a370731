import AuraGateway.Proxy.ActiveRequests
import AuraGateway.Proxy.ResponseHandling

/-!
# Titles of new conversations

A new conversation is titled by the first user message. The title of a long message is cut at
byte 97, and the cut is taken only where a character ends there: the turn panics otherwise
(`title_rule_iff`). Text whose characters all have the same width is cut only when they are one
byte wide, because 97 is prime (`cuttable_of_width_iff`).
-/

set_option autoImplicit false

namespace AuraGateway.Proxy

open AuraGateway.RustStd AuraGateway.Types AuraGateway.Storage

/-! ## Cuts of a text -/

/-- What the title of a text is to be: the text, or a beginning of at most 97 bytes and dots. -/
def TitleRule (text title : String) : Prop :=
  text.utf8ByteSize ≤ 100 ∧ title = text
    ∨ 100 < text.utf8ByteSize ∧ ∃ cut, cut <+: text.toList
      ∧ (String.ofList cut).utf8ByteSize ≤ 97 ∧ title = String.ofList cut ++ "..."

/-- A text that is short, or in which a character ends at byte 97. -/
def Cuttable (text : String) : Prop :=
  text.utf8ByteSize ≤ 100 ∨ ∃ cut, cut <+: text.toList ∧ String.utf8Len cut = 97

/-- A cut exists where some beginning has that many bytes. -/
theorem takeBytes_eq_some_iff {n : Nat} {text cut : List Char} :
    takeBytes n text = some cut ↔ cut <+: text ∧ String.utf8Len cut = n := by
  induction text generalizing n cut with
  | nil =>
      rw [List.prefix_nil]
      cases n with
      | zero =>
          rw [takeBytes, Option.some.injEq]
          exact ⟨fun h => ⟨h.symm, by rw [← h]; rfl⟩, fun h => h.1.symm⟩
      | succ n =>
          refine iff_of_false (Option.some_ne_none _).symm ?_
          rintro ⟨rfl, hlen⟩
          cases hlen
  | cons c text ih =>
      have hpos := c.utf8Size_pos
      cases n with
      | zero =>
          rw [takeBytes, Option.some.injEq, String.utf8Len_eq_zero]
          exact ⟨fun h => ⟨h ▸ List.nil_prefix, h.symm⟩, fun h => h.2.symm⟩
      | succ n =>
          rw [takeBytes, List.prefix_cons_iff]
          by_cases hfits : c.utf8Size ≤ n + 1
          · rw [if_pos hfits, Option.map_eq_some_iff]
            constructor
            · rintro ⟨rest, hrest, rfl⟩
              obtain ⟨hbegin, hlen⟩ := ih.mp hrest
              refine ⟨.inr ⟨rest, rfl, hbegin⟩, ?_⟩
              rw [String.utf8Len_cons, hlen]
              omega
            · rintro ⟨rfl | ⟨rest, rfl, hbegin⟩, hlen⟩
              · cases hlen
              · rw [String.utf8Len_cons] at hlen
                exact ⟨rest, ih.mpr ⟨hbegin, by omega⟩, rfl⟩
          · -- the first character is wider than what is left
            rw [if_neg hfits]
            refine iff_of_false (Option.some_ne_none _).symm ?_
            rintro ⟨rfl | ⟨rest, rfl, -⟩, hlen⟩
            · cases hlen
            · rw [String.utf8Len_cons] at hlen
              omega

theorem autoTitle_of_cuttable {text : String} (h : Cuttable text) :
    ∃ title, autoTitle text = .ok title ∧ TitleRule text title := by
  by_cases hlong : 100 < text.utf8ByteSize
  · rw [autoTitle, if_pos hlong]
    rcases h with hshort | ⟨cut, hcut⟩
    · omega
    · have hlen : (String.ofList cut).utf8ByteSize ≤ 97 := by
        rw [String.utf8ByteSize_ofList]
        exact hcut.2.le
      rw [takeBytes_eq_some_iff.mpr hcut]
      exact ⟨_, rfl, .inr ⟨hlong, cut, hcut.1, hlen, rfl⟩⟩
  · rw [autoTitle, if_neg hlong]
    exact ⟨text, rfl, .inl ⟨Nat.le_of_not_lt hlong, rfl⟩⟩

theorem autoTitle_of_not_cuttable {text : String} (h : ¬ Cuttable text) :
    autoTitle text = .error (.slice 0 97) := by
  rw [Cuttable, not_or, not_exists] at h
  obtain ⟨hlong, hcut⟩ := h
  rw [autoTitle, if_pos (by omega)]
  cases hbytes : takeBytes 97 text.toList with
  | none => rfl
  | some cut => exact absurd (takeBytes_eq_some_iff.mp hbytes) (hcut cut)

/-! ## Texts of one width -/

theorem utf8Len_of_width {w : Nat} {text : List Char} (h : ∀ c ∈ text, c.utf8Size = w) :
    String.utf8Len text = text.length * w := by
  induction text with
  | nil => rw [List.length_nil, Nat.zero_mul]; rfl
  | cons c text ih =>
      obtain ⟨hc, htext⟩ := List.forall_mem_cons.mp h
      rw [String.utf8Len_cons, ih htext, hc, List.length_cons, Nat.succ_mul]

/-- A long text of characters of one width can be cut only when they are single bytes. -/
theorem cuttable_of_width_iff {w : Nat} {text : String} (hwidth : ∀ c ∈ text.toList, c.utf8Size = w)
    (hlong : 100 < text.utf8ByteSize) : Cuttable text ↔ w = 1 := by
  have hlen : text.utf8ByteSize = text.toList.length * w := by
    rw [← utf8Len_of_width hwidth, ← String.utf8ByteSize_ofList, String.ofList_toList]
  constructor
  · rintro (hshort | ⟨cut, hbegin, hcut⟩)
    · omega
    · rw [utf8Len_of_width fun c hc => hwidth c (hbegin.subset hc)] at hcut
      have hdvd : w ∣ 97 := Dvd.intro_left cut.length hcut
      rcases (Nat.dvd_prime (by norm_num : Nat.Prime 97)).mp hdvd with hone | hprime
      · exact hone
      · -- no character has 97 bytes
        cases htext : text.toList with
        | nil =>
            rw [htext, List.length_nil, Nat.zero_mul] at hlen
            omega
        | cons c rest =>
            have hc : c.utf8Size = w := hwidth c (htext ▸ List.mem_cons_self)
            have hfour := c.utf8Size_le_four
            omega
  · rintro rfl
    refine .inr ⟨text.toList.take 97, List.take_prefix 97 text.toList, ?_⟩
    rw [utf8Len_of_width fun c hc => hwidth c (List.mem_of_mem_take hc),
      List.length_take_of_le (by omega)]

/-! ## Conversations of requests -/

section Requests

variable {gw : Gateway} {turn : Turn} {db : Database} {request : CreateResponseRequest}

/-- A turn that continues no stored conversation is given a new one. -/
def StartsConversation (gw : Gateway) (turn : Turn) (db : Database)
    (request : CreateResponseRequest) : Prop :=
  gw.state.hasDatabase = true ∧ ∀ prev ∈ request.previousResponseId,
    turn.fails .conversation = false ∧ ResponseRepo.findConversationByResponseId prev db = none

/-- The turn gets its conversation, and a new row is titled by the first user message. -/
def TitlesByRule (gw : Gateway) (turn : Turn) (db : Database) (request : CreateResponseRequest) :
    Prop :=
  ∃ thread, getOrCreateConversation gw turn db request = .ok thread
    ∧ ∀ t ∈ thread, ∀ row ∈ t.created, ∀ text ∈ extractFirstUserMessage request,
      ∃ title, row.title = some title ∧ TitleRule text title

theorem getOrCreateConversation_of_starts (h : StartsConversation gw turn db request) :
    getOrCreateConversation gw turn db request = createConversation turn request := by
  obtain ⟨hpool, hprev⟩ := h
  rw [getOrCreateConversation, hpool]
  cases hid : request.previousResponseId with
  | none => rfl
  | some prev =>
      obtain ⟨hok, hnone⟩ := hprev prev hid
      simp only [Bool.not_true, Bool.false_eq_true, if_false, hok, hnone]

/-- Without a new conversation no row is written. -/
theorem getOrCreateConversation_of_not_starts (h : ¬ StartsConversation gw turn db request) :
    ∃ thread, getOrCreateConversation gw turn db request = .ok thread
      ∧ ∀ t ∈ thread, t.created = none := by
  rw [getOrCreateConversation]
  by_cases hpool : gw.state.hasDatabase = true
  · rw [hpool]
    cases hid : request.previousResponseId with
    | none =>
        refine absurd ⟨hpool, fun prev hprev => ?_⟩ h
        rw [hid] at hprev
        cases hprev
    | some prev =>
        cases hfails : turn.fails .conversation with
        | true => exact ⟨none, rfl, fun _ ht => nomatch ht⟩
        | false =>
            simp only [Bool.not_true, Bool.false_eq_true, if_false]
            cases hfound : ResponseRepo.findConversationByResponseId prev db with
            | none =>
                refine absurd ⟨hpool, fun p hp => ?_⟩ h
                rw [hid] at hp
                obtain rfl := Option.some.inj hp
                exact ⟨hfails, hfound⟩
            | some convId =>
                refine ⟨some { id := convId, created := none }, rfl, ?_⟩
                rintro t ⟨⟩
                rfl
  · have hpool : gw.state.hasDatabase = false := by simpa using hpool
    rw [hpool]
    exact ⟨none, rfl, fun _ ht => nomatch ht⟩

theorem newConversation_of_title (turn : Turn) {text title : String}
    (htext : extractFirstUserMessage request = some text) (htitle : autoTitle text = .ok title) :
    ∃ row, newConversation turn request = .ok row ∧ row.title = some title := by
  simp only [newConversation, htext, htitle]
  exact ⟨_, rfl, rfl⟩

theorem newConversation_of_panic (turn : Turn) {text : String} {p : Panic}
    (htext : extractFirstUserMessage request = some text) (htitle : autoTitle text = .error p) :
    newConversation turn request = .error p := by
  simp only [newConversation, htext, htitle]
  rfl

/-- Every turn gets its conversation, titled by the rule, exactly when no new conversation has a
first message with a character across byte 97. -/
theorem title_rule_iff (gw : Gateway) (turn : Turn) (db : Database)
    (request : CreateResponseRequest) : TitlesByRule gw turn db request ↔
      (StartsConversation gw turn db request →
        ∀ text ∈ extractFirstUserMessage request, Cuttable text) := by
  by_cases hstarts : StartsConversation gw turn db request
  · rw [TitlesByRule, getOrCreateConversation_of_starts hstarts, createConversation]
    cases htext : extractFirstUserMessage request with
    | none =>
        refine iff_of_true ?_ fun _ _ h => nomatch h
        simp only [newConversation, htext]
        exact ⟨_, rfl, fun _ _ _ _ _ h => nomatch h⟩
    | some text =>
        by_cases hcut : Cuttable text
        · refine iff_of_true ?_ ?_
          · obtain ⟨title, htitle, hrule⟩ := autoTitle_of_cuttable hcut
            obtain ⟨row, hrow, hrowTitle⟩ := newConversation_of_title turn htext htitle
            rw [hrow]
            refine ⟨_, rfl, ?_⟩
            rintro t ht row' hrow' _ ⟨⟩
            cases hfails : turn.fails .newConversation with
            | true =>
                rw [hfails] at ht
                cases ht
            | false =>
                rw [hfails] at ht
                obtain rfl := Option.some.inj ht
                obtain rfl := Option.some.inj hrow'
                exact ⟨title, hrowTitle, hrule⟩
          · rintro - _ ⟨⟩
            exact hcut
        · -- the slice panics, and no conversation is returned
          refine iff_of_false ?_ fun h => hcut (h hstarts text rfl)
          rintro ⟨thread, hthread, -⟩
          rw [newConversation_of_panic turn htext (autoTitle_of_not_cuttable hcut)] at hthread
          cases hthread
  · obtain ⟨thread, hthread, hnone⟩ := getOrCreateConversation_of_not_starts hstarts
    refine iff_of_true ⟨thread, hthread, fun t ht row hrow => ?_⟩ fun h => absurd h hstarts
    rw [hnone t ht] at hrow
    cases hrow

end Requests

/-! ### A question in Chinese -/

namespace Sample

/-- Thirty-four characters of three bytes each. -/
def wideText : String := String.ofList (List.replicate 34 '中')

theorem wideText_toList : wideText.toList = List.replicate 34 '中' := String.toList_ofList

def databaseGateway : Gateway :=
  { splitGateway with state := { splitState with hasDatabase := true } }

theorem wideText_width (c : Char) (hc : c ∈ wideText.toList) : c.utf8Size = 3 := by
  have hsize : '中'.utf8Size = 3 := by decide
  rw [wideText_toList] at hc
  rw [List.eq_of_mem_replicate hc, hsize]

theorem wideText_bytes : wideText.utf8ByteSize = 102 := by
  have hlen : String.utf8Len wideText.toList = wideText.toList.length * 3 :=
    utf8Len_of_width wideText_width
  have hlength : wideText.toList.length = 34 := by rw [wideText_toList, List.length_replicate]
  rw [← String.utf8ByteSize_ofList, String.ofList_toList, hlength] at hlen
  exact hlen

end Sample

open Sample in
/-- No character of the text ends at byte 97: the turn panics and gets no conversation. -/
theorem wide_text_panics :
    ¬ TitlesByRule databaseGateway timedOutTurn {} (.text "m" wideText) := by
  have hcut : ¬ Cuttable wideText := by
    rw [cuttable_of_width_iff wideText_width (by rw [wideText_bytes]; omega)]
    omega
  have hstarts : StartsConversation databaseGateway timedOutTurn {} (.text "m" wideText) := by
    refine ⟨rfl, fun prev hprev => ?_⟩
    cases hprev
  rintro ⟨thread, hthread, -⟩
  have hpanic : newConversation timedOutTurn (.text "m" wideText) = .error (.slice 0 97) :=
    newConversation_of_panic timedOutTurn rfl (autoTitle_of_not_cuttable hcut)
  rw [getOrCreateConversation_of_starts hstarts, createConversation, hpanic] at hthread
  cases hthread

end AuraGateway.Proxy
