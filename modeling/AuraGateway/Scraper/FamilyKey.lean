import AuraGateway.Standard.JsStd
import AuraGateway.Foundations.KeyedPartition

/-!
# Model ids and model families

The scraper canonicalises every scraped model id into a slug and matches rows by family:
what is left of an id or a display name once version suffixes, dates, pins, brand names
and the order of the words are taken away. Open rows that share a family key, directly or
through others, are one family.

Texts are lists of characters inside the functions, and strings at their borders.
-/

set_option autoImplicit false

namespace AuraGateway.Scraper

open AuraGateway.JsStd
open AuraGateway.Foundations

/-! ## Slugs -/

/-- `[a-z0-9]`. -/
def isAlnum (c : Char) : Bool := c.isLower || c.isDigit

/-- Replaces `[^a-z0-9]+` by a dash everywhere; `inRun` says that a dash stands for the run already. -/
def dashRuns (inRun : Bool) : List Char → List Char
  | [] => []
  | c :: cs =>
      if isAlnum c then c :: dashRuns false cs
      else if inRun then dashRuns true cs else '-' :: dashRuns true cs

/-- Removes `^-+` and `-+$`. -/
def stripDashes (s : List Char) : List Char :=
  ((s.dropWhile (· = '-')).reverse.dropWhile (· = '-')).reverse

variable (table : CaseTable)

def slug (raw : List Char) : List Char :=
  stripDashes (dashRuns false (table.toLowerCase (trim raw)))

def canonicalModelId (raw : String) : String := String.ofList (slug table raw.toList)

/-! ## Family keys -/

def brandTokens : List (List Char) :=
  ["claude".toList, "anthropic".toList, "openai".toList, "google".toList, "accounts".toList,
    "models".toList, "fireworks".toList, "together".toList, "mistralai".toList, "meta".toList,
    "latest".toList]

/-- Removes the pattern `-v\d+:\d+$`, read from the end of the text. -/
def stripVersion (s : List Char) : List Char :=
  match s.reverse.span Char.isDigit with
  | (_ :: _, ':' :: rest) =>
      match rest.span Char.isDigit with
      | (_ :: _, 'v' :: '-' :: rest) => rest.reverse
      | _ => s
  | _ => s

/-- `[-_.]?` at the start of a text. -/
def skipSeparator : List Char → List Char
  | c :: cs => if c = '-' || c = '_' || c = '.' then cs else c :: cs
  | [] => []

/-- `\d{2}` at the start of a text: what follows it. -/
def twoDigits : List Char → Option (List Char)
  | a :: b :: cs => if a.isDigit && b.isDigit then some cs else none
  | _ => none

/-- `20\d{2}[-_.]?\d{2}[-_.]?\d{2}(?![a-z0-9])` at the start of a text: what follows it. A
separator is never given back, since no digit is one. -/
def afterDate : List Char → Option (List Char)
  | '2' :: '0' :: s => do
      let s ← twoDigits s
      let s ← twoDigits (skipSeparator s)
      let s ← twoDigits (skipSeparator s)
      match s with
      | c :: _ => if isAlnum c then none else some s
      | [] => some s
  | _ => none

/-- Replaces every date that does not touch `[a-z0-9]` by a space. `skip` characters of a date
are still to be passed over; `after` says that the character before is `[a-z0-9]`. -/
def blankDatesFrom (skip : Nat) (after : Bool) : List Char → List Char
  | [] => []
  | c :: cs =>
      match skip with
      | skip + 1 => blankDatesFrom skip (isAlnum c) cs
      | 0 =>
          match if after then none else afterDate (c :: cs) with
          | some rest => ' ' :: blankDatesFrom (cs.length - rest.length) (isAlnum c) cs
          | none => c :: blankDatesFrom 0 (isAlnum c) cs

def blankDates (s : List Char) : List Char := blankDatesFrom 0 false s

/-- Removes the pattern `-\d{3}$`, read from the end of the text. -/
def stripPin (s : List Char) : List Char :=
  match s.reverse with
  | c :: b :: a :: '-' :: rest =>
      if a.isDigit && b.isDigit && c.isDigit then rest.reverse else s
  | _ => s

/-- The runs of letters and the runs of digits of a text: split at `[^a-z0-9]+`, then every
match of `[a-z]+|\d+` in each chunk. Empty chunks have no runs. -/
def tokens (s : List Char) : List (List Char) :=
  (s.splitOnP fun c => !isAlnum c).flatMap (List.splitBy fun a b => a.isDigit == b.isDigit)

/-- `^\d+$`. -/
def isNumber (t : List Char) : Bool := t.all Char.isDigit && !t.isEmpty

/-- The letters kept in a key: neither a brand nor the provider. -/
def keptWord (provider : Option String) (t : List Char) : Bool :=
  !isNumber t && !brandTokens.contains t && some (String.ofList t) != provider

def joinDashes (ts : List (List Char)) : List Char := List.intercalate ['-'] ts

/-- The key of a list of tokens: the kept words, once each and sorted, then the numbers in
their order. -/
def keyOfTokens (provider : Option String) (ts : List (List Char)) : String :=
  let words := ((ts.filter (keptWord provider)).dedup).insertionSort (· ≤ ·)
  let nums := (ts.filter isNumber).map numberText
  String.ofList (joinDashes words ++ '|' :: joinDashes nums)

/-- The text the tokens are read from. -/
def familyText (raw : List Char) : List Char :=
  stripPin (blankDates (stripVersion (table.toLowerCase (trim raw))))

def modelFamilyKey (raw : String) (provider : Option String) : String :=
  keyOfTokens provider (tokens (familyText table raw.toList))

def idKey (modelId : String) (provider : Option String) : String :=
  "id:" ++ modelFamilyKey table modelId provider

/-- The key of a display name. A name without a digit gives none. -/
def nameKeys (modelName : Option String) (provider : Option String) : List String :=
  match modelName with
  | some name =>
      if name.toList.any Char.isDigit then ["name:" ++ modelFamilyKey table name provider] else []
  | none => []

/-- The keys a row can be matched on. -/
def familyKeys (modelId : String) (modelName : Option String) (provider : Option String) :
    List String :=
  idKey table modelId provider :: nameKeys table modelName provider

/-- Rows in families, each in the order of the rows. -/
def groupByFamily {α : Type} (modelId : α → String) (modelName : α → Option String)
    (rows : List α) (provider : Option String) : List (List α) :=
  KeyedPartition.partition (fun r => familyKeys table (modelId r) (modelName r) provider) rows

/-- The families are the connected components of the rows. Every search for a root ends at one
after as many steps as the number of its row at most. The groups stand for groups of positions:
every position is in one of them, two are in one group exactly when a chain of rows links them
in which neighbours share a key, and order is kept within the groups and between them. -/
theorem groupByFamily_components {α : Type} (modelId : α → String) (modelName : α → Option String)
    (rows : List α) (provider : Option String) :
    (∀ (f : KeyedPartition.Forest) (i fuel : Nat), i ≤ fuel →
      KeyedPartition.Forest.findFrom fuel f i = f.find i
        ∧ (f.find i).2.parent (f.find i).1 = (f.find i).1)
    ∧ ∃ groups,
      KeyedPartition.Components
          (Relation.ReflTransGen (KeyedPartition.SharesKey
            (fun r => familyKeys table (modelId r) (modelName r) provider) rows))
          rows.length groups
        ∧ groupByFamily table modelId modelName rows provider
          = groups.map fun g => g.filterMap (rows[·]?) := by
  constructor
  · intro f i fuel hfuel
    exact ⟨f.findFrom_of_le i hfuel, f.parent_find i⟩
  · exact KeyedPartition.partition_components _ rows

/-- Ids match ids only, and names names. -/
theorem idKey_not_mem_nameKeys (modelId : String) (modelName provider : Option String) :
    idKey table modelId provider ∉ nameKeys table modelName provider := by
  have hprefix : ∀ a b : String, "id:" ++ a ≠ "name:" ++ b := by
    intro a b h
    have hchars := congrArg String.toList h
    rw [String.toList_append, String.toList_append] at hchars
    exact absurd (List.cons.inj hchars).1 (by decide)
  unfold nameKeys
  split
  · split
    · simpa [idKey] using hprefix _ _
    · simp
  · simp

end AuraGateway.Scraper
