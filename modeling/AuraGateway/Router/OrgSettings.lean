import AuraGateway.Router.Config
import AuraGateway.Types.Request

/-!
# Organization settings

The section `routing.auto` of an organization's settings, read as the derived
deserializer reads it: a field left out takes its default, unknown fields are ignored, and
one field of the wrong kind makes the whole section unreadable. A section that is missing
or unreadable is read as the empty override.

`mergedWith_strict` is what the merge guarantees: the options of a request under an
override are at least as strict as the override.
-/

set_option autoImplicit false

namespace AuraGateway.Router

open AuraGateway.RustStd AuraGateway.Types

/-! ## Reading values -/

/-- JSON numbers as doubles. They are finite, so none is `NaN`. -/
structure JsonNumbers where
  asF64 : String → Option Float
  notNaN : ∀ text x, asF64 text = some x → x.isNaN = false

def readBool : Json → Option Bool
  | .bool b => some b
  | _ => none

def readF64 (numbers : JsonNumbers) : Json → Option Float
  | .number text => numbers.asF64 text
  | _ => none

def readStrings : Json → Option (List String)
  | .array items => items.mapM Json.asStr
  | _ => none

/-- A variant without data: its name, or an object from its name to null. -/
def readVariant {α : Type} (variants : List (String × α)) : Json → Option α
  | .string name => variants.lookup name
  | .object [(name, .null)] => variants.lookup name
  | _ => none

/-- An optional value; null is none. -/
def readOptional {α : Type} (read : Json → Option α) : Json → Option (Option α)
  | .null => some none
  | v => (read v).map some

/-- A field that may be left out. -/
def readField {α : Type} (read : Json → Option α) (default : α) : Option Json → Option α
  | none => some default
  | some v => read v

def readTier : Json → Option Tier :=
  readVariant
    [("simple", .simple), ("medium", .medium), ("complex", .complex), ("reasoning", .reasoning)]

def readMode : Json → Option RoutingMode :=
  readVariant [("cost", .cost), ("balanced", .balanced), ("quality", .quality)]

def readClassifier : Json → Option ClassifierKind :=
  readVariant [("heuristic", .heuristic), ("llm", .llm), ("learned", .learned)]

/-! ## The section -/

/-- The fields of a record with `n` fields: by name in an object, or by position in an
array that is not too long. -/
def recordFields (n : Nat) : Json → Option (Nat → String → Option Json)
  | .object fields => some fun _ name => fields.lookup name
  | .array items => if items.length ≤ n then some fun i _ => items[i]? else none
  | _ => none

namespace OrgAutoRoutingOverride

/-- Read an override. -/
def fromValue (numbers : JsonNumbers) (section_ : Json) : Option OrgAutoRoutingOverride := do
  let field ← recordFields 10 section_
  let enabled ← readField (readOptional readBool) none (field 0 "enabled")
  let shadowForPinnedModels ←
    readField (readOptional readBool) none (field 1 "shadow_for_pinned_models")
  let defaultMode ← readField (readOptional readMode) none (field 2 "default_mode")
  let defaultClassifier ←
    readField (readOptional readClassifier) none (field 3 "default_classifier")
  let minTier ← readField (readOptional readTier) none (field 4 "min_tier")
  let maxTier ← readField (readOptional readTier) none (field 5 "max_tier")
  let allow ← readField readStrings [] (field 6 "allow")
  let deny ← readField readStrings [] (field 7 "deny")
  let maxCostUsd ← readField (readOptional (readF64 numbers)) none (field 8 "max_cost_usd")
  let allowSynthetic ← readField (readOptional readBool) none (field 9 "allow_synthetic")
  some
    { enabled, shadowForPinnedModels, defaultMode, defaultClassifier, minTier, maxTier, allow,
      deny, maxCostUsd, allowSynthetic }

/-- The section `routing.auto` of an organization's settings. -/
def autoSection (settings : Json) : Option Json := (settings.get "routing").bind (·.get "auto")

/-- Parse from an organization's settings. Missing or malformed sections yield the empty
override. -/
def fromOrgSettings (numbers : JsonNumbers) (settings : Json) : OrgAutoRoutingOverride :=
  ((autoSection settings).bind (fromValue numbers)).getD {}

end OrgAutoRoutingOverride

/-- An optional field that is set was read from a value. -/
theorem readField_some {α : Type} {read : Json → Option α} {field : Option Json} {x : α}
    (h : readField (readOptional read) none field = some (some x)) : ∃ v, read v = some x := by
  cases field with
  | none => cases h
  | some v =>
      cases v with
      -- null reads as an absent value
      | null => cases h
      | _ =>
          simp only [readField, readOptional, Option.map_eq_some_iff] at h
          obtain ⟨_, hread, e⟩ := h
          cases e
          exact ⟨_, hread⟩

/-- A number that was read is not `NaN`. -/
theorem readF64_notNaN {numbers : JsonNumbers} {v : Json} {x : Float}
    (h : readF64 numbers v = some x) : x.isNaN = false := by
  cases v with
  | number text => exact numbers.notNaN text x h
  | _ => cases h

/-- The budget of a section that was read is not `NaN`. -/
theorem fromValue_notNaN {numbers : JsonNumbers} {v : Json} {o : OrgAutoRoutingOverride}
    (h : OrgAutoRoutingOverride.fromValue numbers v = some o) :
    ∀ b ∈ o.maxCostUsd, b.isNaN = false := by
  simp only [OrgAutoRoutingOverride.fromValue, Option.bind_eq_bind, Option.bind_eq_some_iff] at h
  -- one step for each field that is read; the budget is the ninth
  obtain ⟨_, -, _, -, _, -, _, -, _, -, _, -, _, -, _, -, _, -, maxCostUsd, hcost, _, -, h⟩ := h
  obtain rfl := Option.some.inj h
  intro b hb
  obtain rfl : maxCostUsd = some b := hb
  obtain ⟨_, hread⟩ := readField_some hcost
  exact readF64_notNaN hread

/-! ## Strictness -/

/-- Options at least as strict as an override, bound by bound. -/
structure AtLeastAsStrict (org : OrgAutoRoutingOverride) (options : RoutingOptions) : Prop where
  deny : ∀ p ∈ org.deny, p ∈ options.deny
  allow : org.allow = [] ∨ options.policyAllow = org.allow
  minTier : ∀ t ∈ org.minTier, ∃ t' ∈ options.minTier, t ≤ t'
  maxTier : ∀ t ∈ org.maxTier, ∃ t' ∈ options.maxTier, t' ≤ t
  maxCostUsd : ∀ b ∈ org.maxCostUsd, ∃ c ∈ options.maxCostUsd, c ≤ b

section Merge

variable (org : OrgAutoRoutingOverride) (request : Option RoutingOptions)
  (aliasMode : Option RoutingMode)

/-- A request under an override has options at least as strict as it. -/
theorem mergedWith_strict (hb : ∀ b ∈ org.maxCostUsd, b.isNaN = false) :
    AtLeastAsStrict org (org.mergedWith request aliasMode) where
  deny := fun _ hp => mergedWith_deny_of_org org request aliasMode hp
  allow := Or.inr rfl
  minTier := fun _ ht => mergedWith_minTier_of_org org request aliasMode ht
  maxTier := fun _ ht => mergedWith_maxTier_of_org org request aliasMode ht
  maxCostUsd := fun b h => mergedWith_maxCost_of_org org request aliasMode h (hb b h)

/-- Every request is under the empty override. -/
theorem strict_empty (options : RoutingOptions) : AtLeastAsStrict {} options where
  deny := fun _ hp => absurd hp List.not_mem_nil
  allow := Or.inl rfl
  minTier := fun _ ht => by cases ht
  maxTier := fun _ ht => by cases ht
  maxCostUsd := fun _ hb => by cases hb

end Merge

end AuraGateway.Router
