import AuraGateway.Compression.Aisp
import AuraGateway.Compression.Minify
import AuraGateway.Compression.Toon

/-!
# Smart compression

An input is analysed for rules and, if it is JSON, for its structure. Rules are rewritten in symbols
where the configuration asks for that; what is then JSON is written in the format that is configured
or recommended, and other text is given back.
-/

set_option autoImplicit false

namespace AuraGateway.Compression

open AuraGateway.RustStd AuraGateway.Types AuraGateway.Foundations.LeftmostRegex
open AuraGateway.JsStd (CaseTable)

inductive DataFormat where
  | json
  | jsonCompact
  | yaml
  | toon
  | markdown
  deriving DecidableEq, Repr

inductive SemanticFormat where
  | natural
  | aisp
  | pseudocode
  deriving DecidableEq, Repr

/-- Compression strategy used for a piece of content. -/
inductive CompressionStrategy where
  | none
  | tokenCleanup
  | jsonMinify
  | yaml
  | toon
  | markdown
  | aisp
  | hybrid
  deriving DecidableEq, Repr

/-- Type of structure detected in content. -/
inductive StructureType where
  | uniformArray
  | nestedObject
  | mixed
  | text
  | tabular
  | unknown
  deriving DecidableEq, Repr

structure CompressionAnalysis where
  recommendedFormat : DataFormat
  recommendedSemantic : SemanticFormat
  hasRules : Bool
  hasUniformArrays : Bool
  hasNestedObjects : Bool
  structureType : StructureType
  deriving DecidableEq, Repr

structure CompressionConfig where
  dataFormat : DataFormat := .jsonCompact
  semanticFormat : SemanticFormat := .natural
  autoSelect : Bool := false
  aisp : AispConfig := {}
  toon : ToonConfig := {}
  yaml : YamlConfig := {}
  minifyJson : Bool := true

/-- The JSON library: a writer, and `serde_json::from_str`. -/
structure JsonLibrary extends JsonWriter where
  fromStr : List Char → Option Json

/-- The library of regular expressions, its classes, and lowercase forms. -/
structure TextLibrary where
  captures : Engine Char
  tables : CharTables
  lowercase : CaseTable

structure SmartCompressor where
  json : JsonCompressorConfig
  toon : ToonConfig
  yaml : YamlConfig
  aisp : AispConfig
  config : CompressionConfig

structure SmartCompressionResult where
  content : List Char
  strategies : List CompressionStrategy
  deriving DecidableEq, Repr

namespace SmartCompressor

open Aisp

/-- Create from a compression config. -/
def fromConfig (config : CompressionConfig) : SmartCompressor where
  json := if config.minifyJson then .aggressive else {}
  toon := config.toon
  yaml := config.yaml
  aisp := config.aisp
  config := config

/-! ## Analysis -/

/-- Patterns for detecting rule-like content. -/
def rulePatterns (tables : CharTables) : List (Regex Char) :=
  [Regex.seqs [boundary tables, word "if", spaces, Regex.plus isAny, spaces, word "then",
      boundary tables],
    Regex.seqs [boundary tables, word "when", spaces, Regex.plus isAny, spaces, word "then",
      boundary tables],
    Regex.seqs [boundary tables, word "for ", .group 1 (words "all" ["each", "every"]),
      boundary tables],
    Regex.seqs [boundary tables, .group 1 (words "must" ["should", "shall", "will"]), spaces,
      Regex.opt (.group 2 (.seq (word "not") spaces)),
      .group 3 (words "be" ["have", "allow", "deny", "reject"]), boundary tables],
    Regex.seqs [boundary tables, .group 1 (words "always" ["never", "only"]), spaces,
      Regex.plus tables.isWord, boundary tables],
    Regex.seqs [boundary tables, word "validate", spaces, word "that", boundary tables],
    Regex.seqs [boundary tables, word "ensure", spaces, word "that", boundary tables]]

variable (lib : JsonLibrary) (text : TextLibrary) (c : SmartCompressor)

def detectRules (input : List Char) : Bool :=
  (rulePatterns text.tables).any fun pattern => (text.captures pattern Option.none input).isSome

mutual

def objectDepth : Json → Nat
  | .object fields => 1 + fieldsDepth fields
  | .array items => itemsDepth items
  | _ => 0

def itemsDepth : List Json → Nat
  | [] => 0
  | v :: items => max (objectDepth v) (itemsDepth items)

def fieldsDepth : List (String × Json) → Nat
  | [] => 0
  | (_, v) :: fields => max (objectDepth v) (fieldsDepth fields)

end

def detectStructure : Json → StructureType
  | .array arr =>
      if arr.isEmpty then .unknown
      else if Toon.isUniformArray c.toon arr then .uniformArray
      else if arr.all fun v => v.asArray.isSome then .tabular
      else .mixed
  | .object obj =>
      if 2 < objectDepth (.object obj) then .nestedObject
      else if obj.any fun field => field.2.asArray.isSome then .mixed
      else .unknown
  | .string _ => .text
  | _ => .unknown

/-- Analyze content and recommend compression strategy. -/
def analyze (input : List Char) : CompressionAnalysis :=
  let hasRules := detectRules text input
  let recommendedSemantic := if hasRules then SemanticFormat.aisp else .natural
  match lib.fromStr input with
  | some value =>
      let structureType := detectStructure c value
      { recommendedFormat := match structureType with
          | .uniformArray | .tabular => .toon
          | .nestedObject => .yaml
          | _ => .jsonCompact
        recommendedSemantic := recommendedSemantic
        hasRules := hasRules
        hasUniformArrays := structureType == .uniformArray
        hasNestedObjects := structureType == .nestedObject
        structureType := structureType }
  | Option.none =>
      { recommendedFormat := .jsonCompact
        recommendedSemantic := recommendedSemantic
        hasRules := hasRules
        hasUniformArrays := false
        hasNestedObjects := false
        structureType := .text }

/-! ## Formats -/

/-- `JsonCompressor::compress` -/
def jsonCompress (input : List Char) : List Char :=
  match lib.fromStr input with
  | some value => lib.toString (processValue c.json value)
  | Option.none =>
      if c.json.minify then
        [' '].intercalate (((strLines input).map trimChars).filter fun line => !line.isEmpty)
      else input

/-- `ToonEncoder::compress`, which falls back to minified JSON. -/
def toonCompress (input : List Char) : List Char :=
  match lib.fromStr input with
  | some value =>
      match Toon.encode c.toon lib.toJsonWriter value with
      | .ok encoded => encoded
      | .error _ => lib.toString value
  | Option.none => input

/-- `YamlConverter::compress` -/
def yamlCompress (input : List Char) : List Char :=
  match lib.fromStr input with
  | some value => (Yaml.convert c.yaml value).toList
  | Option.none => input

/-- A value in a cell of a markdown table. -/
def markdownCell : Json → List Char
  | .string s => s.toList
  | .null => []
  | v => lib.toString v

def markdownLine (cells : List (List Char)) : List Char :=
  ['|', ' '] ++ [' ', '|', ' '].intercalate cells ++ [' ', '|']

def toMarkdownTable (value : Json) : List Char :=
  match (value.asArray.bind List.head?).bind Toon.asObject with
  | some first =>
      let headers := first.map Prod.fst
      let rows := ((value.asArray.getD []).filterMap Toon.asObject).map fun obj =>
        markdownLine (headers.map fun h => ((obj.lookup h).map (markdownCell lib)).getD [])
      ['\n'].intercalate (markdownLine (headers.map String.toList)
        :: markdownLine (headers.map fun _ => ['-', '-', '-']) :: rows)
  | Option.none => jsonCompress lib c (lib.toString value)

def compressValueWithStrategy (value : Json) (analysis : CompressionAnalysis)
    (strategies : List CompressionStrategy) : SmartCompressionResult :=
  let format := if c.config.autoSelect then analysis.recommendedFormat else c.config.dataFormat
  let written : CompressionStrategy × List Char :=
    match format with
    | .toon => (.toon, toonCompress lib c (lib.toString value))
    | .yaml => (.yaml, yamlCompress lib c (lib.toString value))
    | .markdown =>
        if analysis.structureType = .tabular then (.markdown, toMarkdownTable lib c value)
        else (.jsonMinify, jsonCompress lib c (lib.toString value))
    | _ => (.jsonMinify, jsonCompress lib c (lib.toString value))
  let strategies := strategies ++ [written.1]
  { content := written.2
    strategies := if 1 < strategies.length then strategies ++ [.hybrid] else strategies }

/-- Rules were detected, and symbols are asked for. -/
def appliesAisp (input : List Char) : Bool :=
  (analyze lib text c input).hasRules && c.config.semanticFormat == .aisp

/-- Compress content using the best strategy, returning strategies used. -/
def compressSmart (input : List Char) : SmartCompressionResult :=
  let analysis := analyze lib text c input
  let semantic : List CompressionStrategy × List Char :=
    if appliesAisp lib text c input then
      ([.aisp], encode text.captures text.tables text.lowercase c.aisp input)
    else ([], input)
  match lib.fromStr (trimChars semantic.2) with
  | some value => compressValueWithStrategy lib c value analysis semantic.1
  | Option.none =>
      { content := semantic.2
        strategies := if semantic.1.isEmpty then [.tokenCleanup] else semantic.1 }

section Strategies

variable {lib text c}

theorem mem_strategies_of_value {value : Json} {analysis : CompressionAnalysis}
    {strategies : List CompressionStrategy} :
    CompressionStrategy.aisp ∈ (compressValueWithStrategy lib c value analysis strategies).strategies
      ↔ CompressionStrategy.aisp ∈ strategies := by
  have hformat (strategy : CompressionStrategy) (hne : strategy ≠ .aisp) :
      CompressionStrategy.aisp ∈ (if 1 < (strategies ++ [strategy]).length
          then strategies ++ [strategy] ++ [.hybrid] else strategies ++ [strategy])
        ↔ CompressionStrategy.aisp ∈ strategies := by
    split <;> simp [hne.symm]
  rw [compressValueWithStrategy]
  refine hformat _ ?_
  split
  · exact nofun
  · exact nofun
  · split <;> exact nofun
  · exact nofun

/-- The strategies that are reported tell whether rules were rewritten. -/
theorem aisp_mem_strategies_iff (input : List Char) :
    CompressionStrategy.aisp ∈ (compressSmart lib text c input).strategies
      ↔ appliesAisp lib text c input = true := by
  rw [compressSmart]
  cases appliesAisp lib text c input with
  | false =>
      simp only [Bool.false_eq_true, if_false, iff_false]
      split
      · rw [mem_strategies_of_value]
        exact List.not_mem_nil
      · exact fun h => nomatch List.mem_singleton.mp h
  | true =>
      simp only [if_true, iff_true]
      split
      · rw [mem_strategies_of_value]
        exact List.mem_singleton_self _
      · exact List.mem_singleton_self _

end Strategies

end SmartCompressor

end AuraGateway.Compression
