import AuraGateway.Standard.RustStd

/-!
# Routing vocabulary

The request-side surface of the auto router: complexity tiers, cost/quality
modes, classifier kinds, the `auto` alias, and the routing options with their
allow and deny patterns. `RoutingOptions.permits` is the check every selection
path has to apply.
-/

set_option autoImplicit false

namespace AuraGateway.Types

open AuraGateway.RustStd

/-! ## Tiers -/

/-- Complexity tier, in ascending order of capability. -/
inductive Tier where
  | simple
  | medium
  | complex
  | reasoning
  deriving DecidableEq, Repr

/-- Position in the declaration order, which the derived `Ord` compares. -/
def Tier.ordinal : Tier → Nat
  | .simple => 0
  | .medium => 1
  | .complex => 2
  | .reasoning => 3

theorem Tier.ordinal_injective : Function.Injective Tier.ordinal := by
  intro a b h
  cases a <;> cases b <;> simp [Tier.ordinal] at h <;> rfl

instance : LinearOrder Tier := LinearOrder.lift' Tier.ordinal Tier.ordinal_injective

theorem Tier.le_iff_ordinal (a b : Tier) : a ≤ b ↔ a.ordinal ≤ b.ordinal := Iff.rfl

theorem Tier.lt_iff_ordinal (a b : Tier) : a < b ↔ a.ordinal < b.ordinal := Iff.rfl

/-- All tiers in ascending order. -/
def Tier.all : List Tier := [.simple, .medium, .complex, .reasoning]

/-- The next tier up, if any. -/
def Tier.up : Tier → Option Tier
  | .simple => some .medium
  | .medium => some .complex
  | .complex => some .reasoning
  | .reasoning => none

/-- The next tier down, if any. -/
def Tier.down : Tier → Option Tier
  | .simple => none
  | .medium => some .simple
  | .complex => some .medium
  | .reasoning => some .complex

/-- Stable lowercase name. -/
def Tier.asStr : Tier → String
  | .simple => "simple"
  | .medium => "medium"
  | .complex => "complex"
  | .reasoning => "reasoning"

/-- Parse a tier name. -/
def Tier.parse (s : String) : Option Tier :=
  match toAsciiLowercase (trim s) with
  | "simple" => some .simple
  | "medium" => some .medium
  | "complex" => some .complex
  | "reasoning" => some .reasoning
  | _ => none

theorem Tier.simple_le (t : Tier) : Tier.simple ≤ t := by
  rw [Tier.le_iff_ordinal]
  exact Nat.zero_le _

/-! ## Modes and classifiers -/

/-- Cost/quality preference. -/
inductive RoutingMode where
  | cost
  | balanced
  | quality
  deriving DecidableEq, Repr

/-- Stable lowercase name. -/
def RoutingMode.asStr : RoutingMode → String
  | .cost => "cost"
  | .balanced => "balanced"
  | .quality => "quality"

/-- Parse a mode name. -/
def RoutingMode.parse (s : String) : Option RoutingMode :=
  match toAsciiLowercase (trim s) with
  | "cost" => some .cost
  | "cheap" => some .cost
  | "balanced" => some .balanced
  | "balance" => some .balanced
  | "quality" => some .quality
  | "intelligence" => some .quality
  | _ => none

/-- Which classifier produces the complexity score. -/
inductive ClassifierKind where
  | heuristic
  | llm
  | learned
  deriving DecidableEq, Repr

/-- The model alias that turns on automatic model selection. -/
def autoModelAlias : String := "auto"

/-- Result of parsing a request's `model` field for the auto alias. -/
structure AutoModelAlias where
  mode : Option RoutingMode
  deriving DecidableEq, Repr

/-- `str::eq_ignore_ascii_case`. -/
def eqIgnoreAsciiCase (a b : String) : Bool := toAsciiLowercase a == toAsciiLowercase b

/-- `str::split_once(':')`. -/
def splitOnceColon (s : String) : Option (String × String) :=
  match find [':'] s.toList with
  | some i => some (String.ofList (s.toList.take i), String.ofList (s.toList.drop (i + 1)))
  | none => none

/-- Parse `auto`, `auto:cost`, `auto:balanced`, `auto:quality`. -/
def parseAutoModel (model : String) : Option AutoModelAlias :=
  let model := trim model
  if eqIgnoreAsciiCase model autoModelAlias then some ⟨none⟩
  else
    match splitOnceColon model with
    | none => none
    | some (head, tail) =>
        if eqIgnoreAsciiCase head autoModelAlias then
          (RoutingMode.parse tail).map fun mode => ⟨some mode⟩
        else none

example : parseAutoModel " Auto:Cheap " = some ⟨some .cost⟩ ∧ parseAutoModel "auto:x" = none := by
  decide

/-! ## Patterns -/

/-- Loop over the middle segments of a glob: each non-empty segment is searched
in `text[pos..stop]`, and `pos` moves past the occurrence found. -/
def globMiddle (text : List Char) (stop : Nat) : Nat → List (List Char) → Checked Bool
  | _, [] => .ok true
  | pos, seg :: rest =>
      if seg.isEmpty then globMiddle text stop pos rest
      else do
        let window ← slice text pos stop
        match find seg window with
        | some i => globMiddle text stop (pos + (i + seg.length)) rest
        | none => .ok false

/-- Whether `*` read as "any run of characters" makes the pattern match. -/
def globMatches (pattern text : List Char) : Checked Bool :=
  let parts := pattern.splitOn '*'
  let first := parts.headD []
  let last := parts.getLastD []
  if !first.isPrefixOf text || !last.isSuffixOf text then .ok false
  -- one star: the only case in which the source compares the lengths
  else if parts.length = 2 then .ok (decide (first.length + last.length ≤ text.length))
  else do
    let middle ← slice parts 1 (parts.length - 1)
    globMiddle text (text.length - last.length) first.length middle

/-- The `provider/model` string patterns are also matched against, lowered. -/
def qualifiedName (provider model : String) : String :=
  toAsciiLowercase provider ++ "/" ++ toAsciiLowercase model

/-- A pattern as the matcher reads it: trimmed and lowered. -/
def normalizedPattern (pattern : String) : String := toAsciiLowercase (trim pattern)

/-- Whether a pattern matches a model id or `provider/model`. -/
def patternMatches (pattern provider model : String) : Checked Bool :=
  let pattern := normalizedPattern pattern
  -- a blank pattern matches nothing, unlike a blank list
  if pattern.isEmpty then .ok false
  else
    let modelL := toAsciiLowercase model
    let qualified := qualifiedName provider model
    if pattern = "*" then .ok true
    else if !pattern.toList.contains '*' then
      .ok (decide (modelL = pattern) || decide (qualified = pattern))
    else do
      if ← globMatches pattern.toList modelL.toList then .ok true
      else globMatches pattern.toList qualified.toList

/-! ## Options -/

/-- Per-request routing options; `policyAllow` is filled by the gateway from the
organization override and never read from the wire. -/
structure RoutingOptions where
  mode : Option RoutingMode := none
  minTier : Option Tier := none
  maxTier : Option Tier := none
  allow : List String := []
  deny : List String := []
  sticky : Option Bool := none
  policyAllow : List String := []
  classifier : Option ClassifierKind := none
  maxCostUsd : Option Float := none
  deriving DecidableEq

/-- An allow list: empty, or with a matching pattern. -/
def allowedBy (list : List String) (provider model : String) : Checked Bool :=
  if list.isEmpty then .ok true
  else list.anyM fun p => patternMatches p provider model

/-- Apply the allow / deny lists to a candidate. -/
def RoutingOptions.permits (o : RoutingOptions) (provider model : String) : Checked Bool := do
  -- a deny match wins over both allow lists
  if ← o.deny.anyM fun p => patternMatches p provider model then .ok false
  else if ← allowedBy o.allow provider model then allowedBy o.policyAllow provider model
  else .ok false

/-- A permitted model is matched by no deny pattern. -/
theorem not_denied_of_permits {o : RoutingOptions} {provider model : String}
    (h : o.permits provider model = .ok true) :
    ∀ p ∈ o.deny, patternMatches p provider model = .ok false := by
  simp only [RoutingOptions.permits] at h
  rw [checked_bind_eq_ok] at h
  obtain ⟨b, hb, h⟩ := h
  cases b with
  | true => simp at h
  | false => exact anyM_eq_ok_false.mp hb

example : ({ deny := ["anthropic/*"] } : RoutingOptions).permits "anthropic" "claude-opus-5"
    = .ok false := by
  decide

end AuraGateway.Types
