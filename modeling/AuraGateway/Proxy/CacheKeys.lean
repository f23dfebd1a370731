import AuraGateway.Foundations.Delimited
import AuraGateway.Proxy.TenantIsolation

/-!
# What the cache key tells apart

Two requests with one cache key are answered with one response. The key joins model, input,
instructions, temperature, token limit, tools and tool choice with bars. It leaves out `top_p`
and the validation settings, takes missing instructions for empty ones, rounds the temperature,
and a bar in a model name or in the instructions can stand for a separator. `same_generation_iff`
says that nothing else is confused: two requests with one key ask for the same generation
exactly when they agree in what these four leave open.
-/

set_option autoImplicit false

namespace AuraGateway.Proxy

open AuraGateway.RustStd AuraGateway.Types AuraGateway.Foundations.Delimited

/-! ## The key as joined fields -/

/-- The fields of the key in front of the last one, the tool choice. -/
def keyFields (codec : Codec) (request : CreateResponseRequest) : List (List Char) :=
  [request.model.toList, (codec.inputJson request.input).toList,
    (request.instructions.getD "").toList,
    ((request.temperature.map fun t => formatFixed 2 t.toFloat).getD "").toList,
    ((request.maxOutputTokens.map Nat.repr).getD "").toList,
    ((request.tools.map codec.toolsJson).getD "").toList]

/-- The key text joins its fields with bars. -/
theorem keyText_toList (codec : Codec) (request : CreateResponseRequest) :
    (keyText codec request).toList =
      ['|'].intercalate (keyFields codec request ++
        [((request.toolChoice.map codec.toolChoiceJson).getD "").toList]) := by
  simp [keyText, keyFields]

theorem bar_notMem_repr (n : Nat) : '|' ∉ n.repr.toList := by
  intro h
  rw [Nat.toList_repr] at h
  exact absurd (Nat.isDigit_of_mem_toDigits (by decide) (by decide) h) (by decide)

theorem bar_notMem_showScaled (digits q : Nat) : '|' ∉ (showScaled digits q).toList := by
  unfold showScaled
  split
  · exact bar_notMem_repr q
  · have hpad : '|' ∉ List.replicate (digits - (q % 10 ^ digits).repr.length) '0' := by
      intro h
      cases List.eq_of_mem_replicate h
    simp only [String.toList_append, String.toList_ofList, List.mem_append, not_or]
    exact ⟨⟨⟨bar_notMem_repr _, by decide⟩, hpad⟩, bar_notMem_repr _⟩

/-- A formatted temperature has no bar. -/
theorem bar_notMem_formatFixed (digits : Nat) (x : Float) :
    '|' ∉ (formatFixed digits x).toList := by
  unfold formatFixed
  split
  · decide
  · decide
  · decide
  · exact bar_notMem_showScaled _ _
  · simpa using bar_notMem_showScaled digits 0
  · exact bar_notMem_showScaled _ _
  · simpa using bar_notMem_showScaled _ _

/-- How often a text has a bar. -/
def bars (s : String) : Nat := s.toList.count '|'

theorem delimits_of_bars {s t : String} (h : bars s = bars t) : Delimits '|' s.toList t.toList :=
  .of_count h

/-- Texts without a bar, or missing ones. -/
theorem delimits_of_notMem {β : Type} {f : β → String} (h : ∀ b, '|' ∉ (f b).toList)
    (x y : Option β) : Delimits '|' ((x.map f).getD "").toList ((y.map f).getD "").toList := by
  have hnone : ∀ o : Option β, ((o.map f).getD "").toList.count '|' = 0 := by
    intro o
    cases o with
    | none => rfl
    | some b => exact List.count_eq_zero.mpr (h b)
  exact Delimits.of_count ((hnone x).trans (hnone y).symm)

/-- A value that is never written as an empty text is read back from the text. -/
theorem map_eq_of_getD {β : Type} {f : β → String} {x y : Option β}
    (hx : ∀ b ∈ x, f b ≠ "") (hy : ∀ b ∈ y, f b ≠ "")
    (h : (x.map f).getD "" = (y.map f).getD "") : x.map f = y.map f := by
  cases x with
  | none =>
      cases y with
      | none => rfl
      | some b => exact absurd h.symm (hy b rfl)
  | some a =>
      cases y with
      | none => exact absurd h (hx a rfl)
      | some b => exact congrArg some h

/-! ## Requests with one key -/

/-- Hash and JSON texts tell two requests apart: the hash does not confuse their key texts,
their inputs are the same if the texts are, and the text of an array ends where the array does. -/
structure Distinguishes (codec : Codec) (r₁ r₂ : CreateResponseRequest) : Prop where
  hash : codec.sha256Hex (keyText codec r₁) = codec.sha256Hex (keyText codec r₂) →
    keyText codec r₁ = keyText codec r₂
  input : codec.inputJson r₁.input = codec.inputJson r₂.input → r₁.input = r₂.input
  inputCloses :
    SelfDelimiting (codec.inputJson r₁.input).toList (codec.inputJson r₂.input).toList
  toolsOpen : ∀ r ∈ [r₁, r₂], ∀ tools ∈ r.tools, ∃ rest,
    (codec.toolsJson tools).toList = '[' :: rest
  toolsClose : ∀ a ∈ r₁.tools, ∀ b ∈ r₂.tools,
    SelfDelimiting (codec.toolsJson a).toList (codec.toolsJson b).toList
  choice : ∀ r ∈ [r₁, r₂], ∀ c ∈ r.toolChoice, codec.toolChoiceJson c ≠ ""

/-- How a request is validated; without settings it is not. -/
def validationStrategy (request : CreateResponseRequest) : ValidationStrategy :=
  (request.validation.map (·.strategy)).getD .none

/-- The requests ask for the same generation; tools and tool choice are compared as they are
sent. -/
structure SameGeneration (codec : Codec) (r₁ r₂ : CreateResponseRequest) : Prop where
  model : r₁.model = r₂.model
  instructions : r₁.instructions = r₂.instructions
  input : r₁.input = r₂.input
  tools : r₁.tools.map codec.toolsJson = r₂.tools.map codec.toolsJson
  toolChoice : r₁.toolChoice.map codec.toolChoiceJson = r₂.toolChoice.map codec.toolChoiceJson
  temperature : r₁.temperature = r₂.temperature
  topP : r₁.topP = r₂.topP
  maxOutputTokens : r₁.maxOutputTokens = r₂.maxOutputTokens
  validation : validationStrategy r₁ = validationStrategy r₂

/-- What the key leaves open: `top_p` and validation, which it does not hash, whether there are
instructions, the temperature behind its second place, and which bars are separators. -/
structure AgreeUnhashed (r₁ r₂ : CreateResponseRequest) : Prop where
  topP : r₁.topP = r₂.topP
  validation : validationStrategy r₁ = validationStrategy r₂
  instructed : r₁.instructions.isSome = r₂.instructions.isSome
  temperature : r₁.temperature = r₂.temperature
  modelBars : bars r₁.model = bars r₂.model
  instructionBars : bars (r₁.instructions.getD "") = bars (r₂.instructions.getD "")

section SameKey

variable {codec : Codec} {r₁ r₂ : CreateResponseRequest}

/-- With one key, the key texts are the same. -/
theorem keyText_eq (hd : Distinguishes codec r₁ r₂)
    (hkey : generateCacheKey codec r₁ = generateCacheKey codec r₂) :
    keyText codec r₁ = keyText codec r₂ := by
  apply hd.hash
  exact String.append_right_inj _ |>.mp hkey

/-- The JSON text of the tools is closed by the bar behind it, also where there is none. -/
theorem delimits_tools (hd : Distinguishes codec r₁ r₂) :
    Delimits '|' ((r₁.tools.map codec.toolsJson).getD "").toList
      ((r₂.tools.map codec.toolsJson).getD "").toList := by
  cases h₁ : r₁.tools with
  | none =>
      cases h₂ : r₂.tools with
      | none => exact .of_selfDelimiting (selfDelimiting_refl _)
      | some b =>
          obtain ⟨rest, hrest⟩ := hd.toolsOpen r₂ (by simp) b h₂
          show Delimits '|' [] (codec.toolsJson b).toList
          rw [hrest]
          exact .of_head (by decide)
  | some a =>
      cases h₂ : r₂.tools with
      | none =>
          obtain ⟨rest, hrest⟩ := hd.toolsOpen r₁ (by simp) a h₁
          show Delimits '|' (codec.toolsJson a).toList []
          rw [hrest]
          exact (Delimits.of_head (by decide)).symm
      | some b => exact .of_selfDelimiting (hd.toolsClose a h₁ b h₂)

/-- Where the bars agree, the fields of one key text are those of the other. -/
theorem keyFields_eq (hd : Distinguishes codec r₁ r₂) (hmodel : bars r₁.model = bars r₂.model)
    (hinstructions : bars (r₁.instructions.getD "") = bars (r₂.instructions.getD ""))
    (htext : keyText codec r₁ = keyText codec r₂) :
    keyFields codec r₁ = keyFields codec r₂ ∧
      ((r₁.toolChoice.map codec.toolChoiceJson).getD "").toList =
        ((r₂.toolChoice.map codec.toolChoiceJson).getD "").toList := by
  have heq := congrArg String.toList htext
  rw [keyText_toList, keyText_toList] at heq
  refine joined_inj ?_ heq
  have htemperature := delimits_of_notMem (fun t : Float32 => bar_notMem_formatFixed 2 t.toFloat)
    r₁.temperature r₂.temperature
  have htokens := delimits_of_notMem bar_notMem_repr r₁.maxOutputTokens r₂.maxOutputTokens
  unfold keyFields
  apply List.Forall₂.cons (delimits_of_bars hmodel)
  apply List.Forall₂.cons (.of_selfDelimiting hd.inputCloses)
  apply List.Forall₂.cons (delimits_of_bars hinstructions)
  apply List.Forall₂.cons htemperature
  apply List.Forall₂.cons htokens
  exact .cons (delimits_tools hd) .nil

/-- The tools are never written as an empty text. -/
theorem toolsJson_ne_empty {r : CreateResponseRequest} (hd : Distinguishes codec r₁ r₂)
    (hr : r ∈ [r₁, r₂]) : ∀ tools ∈ r.tools, codec.toolsJson tools ≠ "" := by
  intro tools ht hempty
  obtain ⟨rest, hrest⟩ := hd.toolsOpen r hr tools ht
  rw [hempty] at hrest
  cases hrest

end SameKey

/-- Two requests with one cache key ask for the same generation exactly when they agree in what
the key leaves open. -/
theorem same_generation_iff (codec : Codec) (r₁ r₂ : CreateResponseRequest)
    (hd : Distinguishes codec r₁ r₂)
    (hkey : generateCacheKey codec r₁ = generateCacheKey codec r₂) :
    SameGeneration codec r₁ r₂ ↔ AgreeUnhashed r₁ r₂ := by
  constructor
  · intro h
    exact
      { topP := h.topP
        validation := h.validation
        instructed := by rw [h.instructions]
        temperature := h.temperature
        modelBars := by rw [h.model]
        instructionBars := by rw [h.instructions] }
  · intro h
    obtain ⟨hfields, hchoice⟩ :=
      keyFields_eq hd h.modelBars h.instructionBars (keyText_eq hd hkey)
    simp only [keyFields, List.cons.injEq, String.toList_inj, and_true] at hfields hchoice
    obtain ⟨hmodel, hinput, hinstructions, -, htokens, htools⟩ := hfields
    have hmax : r₁.maxOutputTokens.map Nat.repr = r₂.maxOutputTokens.map Nat.repr :=
      map_eq_of_getD (fun _ _ => Nat.repr_ne_empty) (fun _ _ => Nat.repr_ne_empty) htokens
    exact
      { model := hmodel
        instructions := by
          -- missing instructions are told from empty ones by the condition
          have hsome := h.instructed
          cases h₁ : r₁.instructions with
          | none =>
              cases h₂ : r₂.instructions with
              | none => rfl
              | some t => rw [h₁, h₂] at hsome; cases hsome
          | some s =>
              cases h₂ : r₂.instructions with
              | none => rw [h₁, h₂] at hsome; cases hsome
              | some t =>
                  rw [h₁, h₂] at hinstructions
                  exact congrArg some hinstructions
        input := hd.input hinput
        tools := map_eq_of_getD (toolsJson_ne_empty hd (by simp))
          (toolsJson_ne_empty hd (by simp)) htools
        toolChoice := map_eq_of_getD (hd.choice r₁ (by simp)) (hd.choice r₂ (by simp)) hchoice
        temperature := h.temperature
        topP := h.topP
        maxOutputTokens :=
          Option.map_injective (fun _ _ => Nat.repr_injective) hmax
        validation := h.validation }

/-! ### Two requests with one key -/

namespace TwoTenants

/-- `hi`, for an end user. -/
def hiForUser : CreateResponseRequest := { hi with user := some "u" }

/-- `hi`, from the likeliest tokens only. -/
def hiNarrow : CreateResponseRequest := { hi with topP := some 0.1 }

theorem distinguishes_hi (r : CreateResponseRequest) (htext : keyText codec hi = keyText codec r)
    (hinput : hi.input = r.input) (htools : r.tools = none) (hchoice : r.toolChoice = none) :
    Distinguishes codec hi r where
  hash := fun _ => htext
  input := fun _ => hinput
  inputCloses := selfDelimiting_refl _
  toolsOpen := by
    intro r' hr' tools ht
    rcases List.mem_pair.mp hr' with rfl | rfl
    · cases ht
    · rw [htools] at ht
      cases ht
  toolsClose := by
    intro a ha
    cases ha
  choice := by
    intro r' hr' c hc
    rcases List.mem_pair.mp hr' with rfl | rfl
    · cases hc
    · rw [hchoice] at hc
      cases hc

end TwoTenants

open TwoTenants in
theorem same_generation_sample :
    generateCacheKey codec hi = generateCacheKey codec hiForUser ∧
      SameGeneration codec hi hiForUser :=
  ⟨rfl, (same_generation_iff codec hi hiForUser
    (distinguishes_hi hiForUser rfl rfl rfl rfl) rfl).mpr ⟨rfl, rfl, rfl, rfl, rfl, rfl⟩⟩

open TwoTenants in
/-- Two requests that differ in `top_p` are cached under one key. -/
theorem top_p_not_hashed :
    shouldSkipCache hi = false ∧ shouldSkipCache hiNarrow = false ∧
      keyText codec hi = keyText codec hiNarrow ∧
      generateCacheKey codec hi = generateCacheKey codec hiNarrow ∧
      ¬ SameGeneration codec hi hiNarrow := by
  refine ⟨rfl, rfl, rfl, rfl, fun h => ?_⟩
  have htopP := h.topP
  cases htopP

end AuraGateway.Proxy
