import AuraGateway.Foundations.KeyedTable
import AuraGateway.Proxy.State

/-!
# Prices that bill

The cost calculator holds a price for each API model id. It starts with the prices that are
written into the gateway and is refreshed at boot from the pricing table, whose rows carry
scraped slugs; a curated map says which of them belong to which API id.

`getPricing_applyDbPricing` is the price it ends up with: that of the last row the map sends
to the model, the built-in price when there is none.
-/

set_option autoImplicit false

namespace AuraGateway.Pricing

open AuraGateway.Foundations.KeyedTable

/-- Pricing information for a model (per 1M tokens). -/
structure ModelPricing where
  inputPerMillion : Float
  outputPerMillion : Float
  cachedInputPerMillion : Option Float
  reasoningPerMillion : Option Float
  deriving DecidableEq

namespace ModelPricing

def new (inputPerMillion outputPerMillion : Float) : ModelPricing :=
  { inputPerMillion, outputPerMillion, cachedInputPerMillion := none, reasoningPerMillion := none }

def withCached (p : ModelPricing) (cachedPerMillion : Float) : ModelPricing :=
  { p with cachedInputPerMillion := some cachedPerMillion }

/-- Calculate cost for given token counts. -/
def calculateCost (p : ModelPricing) (inputTokens outputTokens : Nat)
    (cachedTokens reasoningTokens : Option Nat) : Float :=
  -- the cached tokens are part of the input
  let cached := min (cachedTokens.getD 0) inputTokens
  let uncached := inputTokens - cached
  let inputCost := Float.ofNat uncached / 1000000.0 * p.inputPerMillion
  let outputCost := Float.ofNat outputTokens / 1000000.0 * p.outputPerMillion
  let cachedRate := p.cachedInputPerMillion.getD p.inputPerMillion
  let cachedCost := Float.ofNat cached / 1000000.0 * cachedRate
  let reasoningCost := (reasoningTokens.bind fun tokens =>
    p.reasoningPerMillion.map fun rate => Float.ofNat tokens / 1000000.0 * rate).getD 0.0
  inputCost + outputCost + cachedCost + reasoningCost

/-- The input and the output price. -/
def prices (p : ModelPricing) : Float × Float := (p.inputPerMillion, p.outputPerMillion)

end ModelPricing

/-- A scraped pricing row. -/
structure ScrapedPricing where
  provider : String
  scrapedModelId : String
  inputPerMillion : Float
  outputPerMillion : Float
  cachedInputPerMillion : Option Float

/-- Map a provider and a scraped slug to the gateway's API model slug. -/
def apiSlugForScraped (provider scraped : String) : Option String :=
  match provider, scraped with
  | "fireworks", "glm-5-2" => some "accounts/fireworks/models/glm-5p2"
  | "fireworks", "kimi-k2-6" => some "accounts/fireworks/models/kimi-k2p6"
  | "fireworks", "deepseek-v4-pro" => some "accounts/fireworks/models/deepseek-v4-pro"
  | "fireworks", "qwen3-6-plus" => some "accounts/fireworks/models/qwen3p6-plus"
  | "fireworks", "gpt-oss-120b" => some "accounts/fireworks/models/gpt-oss-120b"
  | "fireworks", "gpt-oss-20b" => some "accounts/fireworks/models/gpt-oss-20b"
  | "together", "llama-3-3-70b" => some "meta-llama/Llama-3.3-70B-Instruct-Turbo"
  | "together", "deepseek-v4-pro" => some "deepseek-ai/DeepSeek-V4-Pro"
  | "together", "qwen3-6-plus" => some "Qwen/Qwen3.6-Plus"
  | "together", "gpt-oss-120b" => some "openai/gpt-oss-120b"
  | "together", "gpt-oss-20b" => some "openai/gpt-oss-20b"
  | _, _ => none

/-- Prices by API model id. -/
structure CostCalculator where
  pricing : List (String × ModelPricing)

namespace CostCalculator

/-- A calculator with the built-in prices. -/
def new : CostCalculator where
  pricing := [
    ("gpt-6.1-sol", (ModelPricing.new 2.00 10.00).withCached 0.10),
    ("gpt-6-sol", (ModelPricing.new 2.00 10.00).withCached 0.20),
    ("gpt-6-luna", (ModelPricing.new 0.10 0.50).withCached 0.01),
    ("gpt-6-astra", (ModelPricing.new 10.00 50.00).withCached 1.00),
    ("gpt-5.6-sol", (ModelPricing.new 4.00 20.00).withCached 0.40),
    ("gpt-5.6", (ModelPricing.new 4.00 20.00).withCached 0.40),
    ("gpt-5.6-terra", (ModelPricing.new 2.00 12.00).withCached 0.20),
    ("gpt-5.6-luna", (ModelPricing.new 0.20 1.20).withCached 0.02),
    ("gpt-5.5-pro", ModelPricing.new 30.00 180.00),
    ("gpt-5.5", (ModelPricing.new 5.00 30.00).withCached 0.50),
    ("gpt-5.4", (ModelPricing.new 2.50 15.00).withCached 0.25),
    ("gpt-5.4-mini", (ModelPricing.new 0.75 4.50).withCached 0.075),
    ("gpt-5.4-nano", (ModelPricing.new 0.20 1.25).withCached 0.02),
    ("gpt-4o", (ModelPricing.new 2.50 10.00).withCached 1.25),
    ("gpt-4o-2024-11-20", (ModelPricing.new 2.50 10.00).withCached 1.25),
    ("gpt-4o-2024-08-06", (ModelPricing.new 2.50 10.00).withCached 1.25),
    ("chatgpt-4o-latest", (ModelPricing.new 5.00 15.00).withCached 2.50),
    ("gpt-4o-mini", (ModelPricing.new 0.15 0.60).withCached 0.075),
    ("gpt-4o-mini-2024-07-18", (ModelPricing.new 0.15 0.60).withCached 0.075),
    ("gpt-4.1", (ModelPricing.new 2.00 8.00).withCached 0.50),
    ("gpt-4.1-mini", (ModelPricing.new 0.40 1.60).withCached 0.10),
    ("gpt-4.1-nano", (ModelPricing.new 0.10 0.40).withCached 0.025),
    ("gpt-5", (ModelPricing.new 5.00 20.00).withCached 1.25),
    ("gpt-5-2025-12-15", (ModelPricing.new 5.00 20.00).withCached 1.25),
    ("gpt-5-mini", (ModelPricing.new 0.50 2.00).withCached 0.125),
    ("gpt-5.2", (ModelPricing.new 5.00 20.00).withCached 1.25),
    ("gpt-5.2-2026-01-10", (ModelPricing.new 5.00 20.00).withCached 1.25),
    ("gpt-4-turbo", ModelPricing.new 10.00 30.00),
    ("gpt-4-turbo-2024-04-09", ModelPricing.new 10.00 30.00),
    ("gpt-4", ModelPricing.new 30.00 60.00),
    ("gpt-4-0613", ModelPricing.new 30.00 60.00),
    ("gpt-3.5-turbo", ModelPricing.new 0.50 1.50),
    ("gpt-3.5-turbo-0125", ModelPricing.new 0.50 1.50),
    ("o1", (ModelPricing.new 15.00 60.00).withCached 7.50),
    ("o1-2024-12-17", (ModelPricing.new 15.00 60.00).withCached 7.50),
    ("o1-preview", ModelPricing.new 15.00 60.00),
    ("o1-mini", (ModelPricing.new 3.00 12.00).withCached 1.50),
    ("o1-pro", (ModelPricing.new 150.00 600.00).withCached 75.00),
    ("o3", (ModelPricing.new 2.00 8.00).withCached 1.00),
    ("o3-mini", (ModelPricing.new 1.10 4.40).withCached 0.55),
    ("o3-mini-2025-01-31", (ModelPricing.new 1.10 4.40).withCached 0.55),
    ("o4-mini", (ModelPricing.new 1.10 4.40).withCached 0.55),
    ("claude-fable-5-1", (ModelPricing.new 10.00 50.00).withCached 0.25),
    ("claude-fable-5", (ModelPricing.new 10.00 50.00).withCached 1.00),
    ("claude-opus-5-5", (ModelPricing.new 4.00 20.00).withCached 0.20),
    ("claude-sonnet-5-5", (ModelPricing.new 2.00 10.00).withCached 0.20),
    ("claude-haiku-5-5", (ModelPricing.new 0.10 0.50).withCached 0.01),
    ("claude-opus-5", (ModelPricing.new 5.00 25.00).withCached 0.50),
    ("claude-sonnet-5", (ModelPricing.new 2.00 10.00).withCached 0.20),
    ("claude-opus-4-8", (ModelPricing.new 5.00 25.00).withCached 0.50),
    ("claude-opus-4-7-20260416", (ModelPricing.new 5.00 25.00).withCached 0.50),
    ("claude-opus-4-7", (ModelPricing.new 5.00 25.00).withCached 0.50),
    ("claude-opus-4-6", (ModelPricing.new 5.00 25.00).withCached 0.50),
    ("claude-sonnet-4-6", (ModelPricing.new 3.00 15.00).withCached 0.30),
    ("claude-opus-4-5-20251101", (ModelPricing.new 15.00 75.00).withCached 1.50),
    ("claude-opus-4-5", (ModelPricing.new 15.00 75.00).withCached 1.50),
    ("claude-sonnet-4-5-20251022", (ModelPricing.new 3.00 15.00).withCached 0.30),
    ("claude-sonnet-4-5", (ModelPricing.new 3.00 15.00).withCached 0.30),
    ("claude-haiku-4-5-20251001", (ModelPricing.new 1.00 5.00).withCached 0.10),
    ("claude-haiku-4-5-20251201", (ModelPricing.new 1.00 5.00).withCached 0.10),
    ("claude-haiku-4-5", (ModelPricing.new 1.00 5.00).withCached 0.10),
    ("claude-3-5-sonnet-20241022", (ModelPricing.new 3.00 15.00).withCached 0.30),
    ("claude-3-5-sonnet-20240620", (ModelPricing.new 3.00 15.00).withCached 0.30),
    ("claude-3-5-sonnet-latest", (ModelPricing.new 3.00 15.00).withCached 0.30),
    ("claude-3-5-haiku-20241022", (ModelPricing.new 0.80 4.00).withCached 0.08),
    ("claude-3-5-haiku-latest", (ModelPricing.new 0.80 4.00).withCached 0.08),
    ("claude-3-opus-20240229", (ModelPricing.new 15.00 75.00).withCached 1.50),
    ("claude-3-opus-latest", (ModelPricing.new 15.00 75.00).withCached 1.50),
    ("claude-3-sonnet-20240229", (ModelPricing.new 3.00 15.00).withCached 0.30),
    ("claude-3-haiku-20240307", (ModelPricing.new 0.25 1.25).withCached 0.03),
    ("gemini-4-argon", (ModelPricing.new 2.00 10.00).withCached 0.10),
    ("gemini-3.8-flash", (ModelPricing.new 0.75 3.75).withCached 0.075),
    ("gemini-3.7-flash", (ModelPricing.new 0.75 3.75).withCached 0.075),
    ("gemini-3.6-flash", (ModelPricing.new 0.75 3.75).withCached 0.075),
    ("gemini-3.5-flash-lite", (ModelPricing.new 0.30 2.50).withCached 0.03),
    ("gemini-3-pro-preview", (ModelPricing.new 2.50 10.00).withCached 0.625),
    ("gemini-3.1-pro-preview", (ModelPricing.new 2.50 10.00).withCached 0.625),
    ("gemini-3-flash-preview", (ModelPricing.new 0.15 0.60).withCached 0.0375),
    ("gemini-3.5-flash", (ModelPricing.new 0.20 0.80).withCached 0.05),
    ("gemini-3.1-flash-lite", (ModelPricing.new 0.075 0.30).withCached 0.01875),
    ("gemini-3.1-flash-lite-preview", (ModelPricing.new 0.075 0.30).withCached 0.01875),
    ("gemini-2.5-pro", (ModelPricing.new 1.25 10.00).withCached 0.3125),
    ("gemini-2.5-flash", (ModelPricing.new 0.30 2.50).withCached 0.075),
    ("gemini-2.5-flash-lite", (ModelPricing.new 0.075 0.30).withCached 0.01875),
    ("gemini-2.0-flash", (ModelPricing.new 0.10 0.40).withCached 0.025),
    ("gemini-2.0-flash-001", (ModelPricing.new 0.10 0.40).withCached 0.025),
    ("gemini-2.0-flash-lite", (ModelPricing.new 0.075 0.30).withCached 0.02),
    ("gemini-2.0-flash-lite-001", (ModelPricing.new 0.075 0.30).withCached 0.02),
    ("gemini-pro-latest", (ModelPricing.new 1.25 10.00).withCached 0.3125),
    ("gemini-flash-latest", (ModelPricing.new 0.30 2.50).withCached 0.075),
    ("gemini-flash-lite-latest", (ModelPricing.new 0.075 0.30).withCached 0.01875),
    ("mistral-large-latest", ModelPricing.new 2.00 6.00),
    ("mistral-large-2411", ModelPricing.new 2.00 6.00),
    ("mistral-medium-latest", ModelPricing.new 0.40 2.00),
    ("mistral-small-latest", ModelPricing.new 0.20 0.60),
    ("codestral-latest", ModelPricing.new 0.30 0.90),
    ("pixtral-large-latest", ModelPricing.new 2.00 6.00),
    ("ministral-8b-latest", ModelPricing.new 0.10 0.10),
    ("ministral-3b-latest", ModelPricing.new 0.04 0.04),
    ("meta-llama/Llama-3.3-70B-Instruct-Turbo", ModelPricing.new 0.88 0.88),
    ("meta-llama/Meta-Llama-3-8B-Instruct-Lite", ModelPricing.new 0.10 0.10),
    ("deepseek-ai/DeepSeek-V4-Pro", (ModelPricing.new 2.10 4.40).withCached 0.20),
    ("Qwen/Qwen3.5-397B-A17B", ModelPricing.new 0.60 3.60),
    ("Qwen/Qwen3.6-Plus", ModelPricing.new 0.50 3.00),
    ("Qwen/Qwen3.5-9B", ModelPricing.new 0.10 0.15),
    ("Qwen/Qwen2.5-7B-Instruct-Turbo", ModelPricing.new 0.30 0.30),
    ("Qwen/Qwen3-Coder-480B-A35B-Instruct-FP8", ModelPricing.new 2.00 2.00),
    ("Qwen/Qwen3-235B-A22B-Instruct-2507-tput", ModelPricing.new 0.20 0.60),
    ("openai/gpt-oss-120b", ModelPricing.new 0.15 0.60),
    ("openai/gpt-oss-20b", ModelPricing.new 0.05 0.20),
    ("moonshotai/Kimi-K2.6", (ModelPricing.new 1.20 4.50).withCached 0.20),
    ("moonshotai/Kimi-K2.5", ModelPricing.new 0.50 2.80),
    ("zai-org/GLM-5.1", ModelPricing.new 1.40 4.40),
    ("zai-org/GLM-5", ModelPricing.new 1.00 3.20),
    ("essentialai/rnj-1-instruct", ModelPricing.new 0.15 0.15),
    ("google/gemma-4-31B-it", ModelPricing.new 0.20 0.50),
    ("google/gemma-3n-E4B-it", ModelPricing.new 0.06 0.12),
    ("LiquidAI/LFM2-24B-A2B", ModelPricing.new 0.03 0.12),
    ("deepcogito/cogito-v2-1-671b", ModelPricing.new 1.25 1.25),
    ("accounts/fireworks/models/glm-5p2", (ModelPricing.new 1.40 4.40).withCached 0.20),
    ("accounts/fireworks/models/kimi-k2p6", (ModelPricing.new 1.20 4.50).withCached 0.20),
    ("accounts/fireworks/models/deepseek-v4-pro", (ModelPricing.new 2.10 4.40).withCached 0.20),
    ("accounts/fireworks/models/qwen3p6-plus", ModelPricing.new 0.50 3.00),
    ("accounts/fireworks/models/gpt-oss-120b", ModelPricing.new 0.15 0.60),
    ("accounts/fireworks/models/gpt-oss-20b", ModelPricing.new 0.05 0.20),
    ("llama3.3", ModelPricing.new 0.00 0.00),
    ("llama3.2", ModelPricing.new 0.00 0.00),
    ("llama3.1", ModelPricing.new 0.00 0.00),
    ("qwen2.5", ModelPricing.new 0.00 0.00),
    ("mistral", ModelPricing.new 0.00 0.00),
    ("mixtral", ModelPricing.new 0.00 0.00),
    ("phi3", ModelPricing.new 0.00 0.00),
    ("gemma2", ModelPricing.new 0.00 0.00),
    ("codellama", ModelPricing.new 0.00 0.00),
    ("deepseek-r1", ModelPricing.new 0.00 0.00),
    ("anthropic.claude-opus-4-5-20251001-v1:0", (ModelPricing.new 15.00 75.00).withCached 1.50),
    ("anthropic.claude-sonnet-4-5-20250929-v1:0", (ModelPricing.new 3.00 15.00).withCached 0.30),
    ("anthropic.claude-haiku-4-5-20251001-v1:0", (ModelPricing.new 0.80 4.00).withCached 0.08),
    ("anthropic.claude-3-7-sonnet-20250219-v1:0", (ModelPricing.new 3.00 15.00).withCached 0.30) ]

/-- Get pricing for a specific model. -/
def getPricing (c : CostCalculator) (model : String) : Option ModelPricing := c.pricing.lookup model

/-- Calculate cost for a request. -/
def calculateCost (c : CostCalculator) (model : String) (inputTokens outputTokens : Nat)
    (cachedTokens reasoningTokens : Option Nat) : Option Float :=
  (c.getPricing model).map fun p =>
    p.calculateCost inputTokens outputTokens cachedTokens reasoningTokens

/-- The pricing a scraped row gives. -/
def scrapedPricing (row : ScrapedPricing) : ModelPricing :=
  let pricing := ModelPricing.new row.inputPerMillion row.outputPerMillion
  match row.cachedInputPerMillion with
  | some cached => pricing.withCached cached
  | none => pricing

/-- Override pricing from scraped rows, for the models the curated map names. -/
def applyDbPricing (c : CostCalculator) (rows : List ScrapedPricing) : CostCalculator where
  pricing :=
    insertAll (fun row => apiSlugForScraped row.provider row.scrapedModelId) scrapedPricing c.pricing
      rows

/-- The last row that the curated map sends to a model. -/
def lastMapped (model : String) (rows : List ScrapedPricing) : Option ScrapedPricing :=
  (rows.filter fun row =>
    decide (apiSlugForScraped row.provider row.scrapedModelId = some model)).getLast?

/-- The last row of a model wins, over the built-in price too. -/
theorem getPricing_applyDbPricing (c : CostCalculator) (rows : List ScrapedPricing)
    (model : String) :
    (c.applyDbPricing rows).getPricing model =
      ((lastMapped model rows).map scrapedPricing).or (c.getPricing model) :=
  lookup_insertAll _ _ _ _ _

@[simp] theorem prices_scrapedPricing (row : ScrapedPricing) :
    (scrapedPricing row).prices = (row.inputPerMillion, row.outputPerMillion) := by
  simp only [scrapedPricing]
  split <;> rfl

end CostCalculator

end AuraGateway.Pricing
