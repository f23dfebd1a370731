import AuraGateway.Compression.Values
import AuraGateway.Foundations.SortedMaps

/-!
# JSON minification

The compressor walks through a value. In every object it leaves out the entries that its options ask
to remove, shortens the keys of the others by a table, and inserts them into a new map; arrays keep
all their elements.

The aggressive compressor loses nothing exactly where no key is an abbreviation of the table itself
(`aggressive_keeps_iff`): such a key may be taken by another one, and is read back as another one.
Whether an entry is removed is decided before its value is processed, so an object that loses all its
entries stays behind. A second pass changes nothing exactly where this does not happen and shortening
the keys once more does not either (`processValue_idempotent_iff`).
-/

set_option autoImplicit false

namespace AuraGateway.Compression

open AuraGateway.Types AuraGateway.Foundations.SortedMaps

/-! ## The compressor -/

/-- JSON compression configuration; the mappings are those of a hash map. -/
structure JsonCompressorConfig where
  minify : Bool := true
  shortenKeys : Bool := false
  keyMappings : List (String × String) := []
  removeNulls : Bool := false
  removeEmptyArrays : Bool := false
  removeEmptyObjects : Bool := false
  deriving DecidableEq, Repr

/-- Common keys in LLM contexts. -/
def aggressiveMappings : List (String × String) :=
  [("message", "m"), ("content", "c"), ("role", "r"), ("name", "n"), ("type", "t"), ("value", "v"),
    ("id", "i"), ("text", "x"), ("data", "d"), ("status", "s"), ("error", "e"), ("result", "rs"),
    ("arguments", "a"), ("function", "f"), ("description", "dc"), ("parameters", "p"),
    ("properties", "pr"), ("required", "rq"), ("items", "it")]

namespace JsonCompressorConfig

/-- An aggressive compressor with key shortening. -/
def aggressive : JsonCompressorConfig where
  minify := true
  shortenKeys := true
  keyMappings := aggressiveMappings
  removeNulls := true
  removeEmptyArrays := true
  removeEmptyObjects := true

/-- The options ask to remove an entry with this value. -/
def removes (config : JsonCompressorConfig) : Json → Bool
  | .null => config.removeNulls
  | .array items => config.removeEmptyArrays && items.isEmpty
  | .object fields => config.removeEmptyObjects && fields.isEmpty
  | _ => false

/-- Shorten key if configured. -/
def newKey (config : JsonCompressorConfig) (key : String) : String :=
  if config.shortenKeys then (config.keyMappings.lookup key).getD key else key

end JsonCompressorConfig

section Process

variable (config : JsonCompressorConfig)

mutual

def processValue : Json → Json
  | .object fields => .object (processFields [] fields)
  | .array items => .array (processItems items)
  | v => v

def processItems : List Json → List Json
  | [] => []
  | v :: items => processValue v :: processItems items

/-- The loop over the entries of an object, with the new map. -/
def processFields : List (String × Json) → List (String × Json) → List (String × Json)
  | newMap, [] => newMap
  | newMap, (key, val) :: fields =>
      if config.removes val then processFields newMap fields
      else processFields (insert (config.newKey key) (processValue val) newMap) fields

end

/-- The entries that are not removed. -/
def keptFields (fields : List (String × Json)) : List (String × Json) :=
  fields.filter fun e => !config.removes e.2

mutual

/-- The value without the entries that are removed. -/
def prune : Json → Json
  | .object fields => .object (pruneFields fields)
  | .array items => .array (pruneItems items)
  | v => v

def pruneItems : List Json → List Json
  | [] => []
  | v :: items => prune v :: pruneItems items

def pruneFields : List (String × Json) → List (String × Json)
  | [] => []
  | (key, val) :: fields =>
      if config.removes val then pruneFields fields else (key, prune val) :: pruneFields fields

end

end Process

section Keys

variable (f : String → String)

mutual

/-- The value with other keys, entries of one new key replacing each other. -/
def mapKeys : Json → Json
  | .object fields => .object (ofEntries (mapKeysFields fields))
  | .array items => .array (mapKeysItems items)
  | v => v

def mapKeysItems : List Json → List Json
  | [] => []
  | v :: items => mapKeys v :: mapKeysItems items

def mapKeysFields : List (String × Json) → List (String × Json)
  | [] => []
  | (key, val) :: fields => (f key, mapKeys val) :: mapKeysFields fields

end

end Keys

/-! ## One level of each -/

section Levels

variable {config : JsonCompressorConfig} {f : String → String}

theorem processItems_eq (items : List Json) :
    processItems config items = items.map (processValue config) := by
  induction items with
  | nil => rfl
  | cons v items ih => rw [processItems, ih, List.map_cons]

theorem processFields_eq (newMap fields : List (String × Json)) :
    processFields config newMap fields = insertAll newMap
      ((keptFields config fields).map fun e => (config.newKey e.1, processValue config e.2)) := by
  induction fields generalizing newMap with
  | nil => rw [processFields]; rfl
  | cons e fields ih =>
      rw [processFields, keptFields, List.filter_cons]
      cases config.removes e.2 with
      | true => exact ih newMap
      | false => exact ih _

theorem processValue_array (items : List Json) :
    processValue config (.array items) = .array (items.map (processValue config)) := by
  rw [processValue, processItems_eq]

theorem processValue_object (fields : List (String × Json)) :
    processValue config (.object fields) = .object (ofEntries
      ((keptFields config fields).map fun e => (config.newKey e.1, processValue config e.2))) := by
  rw [processValue, processFields_eq, ofEntries]

theorem processValue_scalar {v : Json} (h : isScalar v = true) : processValue config v = v := by
  cases v with
  | array items => cases h
  | object fields => cases h
  | null => rfl
  | bool b => rfl
  | number text => rfl
  | string s => rfl

theorem prune_array (items : List Json) :
    prune config (.array items) = .array (items.map (prune config)) := by
  rw [prune]
  congr 1
  induction items with
  | nil => rfl
  | cons v items ih => rw [pruneItems, ih, List.map_cons]

theorem prune_object (fields : List (String × Json)) :
    prune config (.object fields)
      = .object ((keptFields config fields).map fun e => (e.1, prune config e.2)) := by
  rw [prune]
  congr 1
  induction fields with
  | nil => rfl
  | cons e fields ih =>
      rw [pruneFields, keptFields, List.filter_cons]
      cases config.removes e.2 with
      | true => exact ih
      | false =>
          rw [if_neg Bool.false_ne_true]
          exact congrArg (List.cons (e.1, prune config e.2)) ih

theorem prune_scalar {v : Json} (h : isScalar v = true) : prune config v = v := by
  cases v with
  | array items => cases h
  | object fields => cases h
  | null => rfl
  | bool b => rfl
  | number text => rfl
  | string s => rfl

theorem mapKeys_array (items : List Json) :
    mapKeys f (.array items) = .array (items.map (mapKeys f)) := by
  rw [mapKeys]
  congr 1
  induction items with
  | nil => rfl
  | cons v items ih => rw [mapKeysItems, ih, List.map_cons]

theorem mapKeys_object (fields : List (String × Json)) :
    mapKeys f (.object fields)
      = .object (ofEntries (fields.map fun e => (f e.1, mapKeys f e.2))) := by
  rw [mapKeys]
  congr 2
  induction fields with
  | nil => rfl
  | cons e fields ih => rw [mapKeysFields, ih, List.map_cons]

theorem mapKeys_scalar {v : Json} (h : isScalar v = true) : mapKeys f v = v := by
  cases v with
  | array items => cases h
  | object fields => cases h
  | null => rfl
  | bool b => rfl
  | number text => rfl
  | string s => rfl

theorem mem_keptFields {fields : List (String × Json)} {e : String × Json} :
    e ∈ keptFields config fields ↔ e ∈ fields ∧ config.removes e.2 = false := by
  rw [keptFields, List.mem_filter, Bool.not_eq_true']

/-- Processing a value is removing entries, then shortening the keys of the others. -/
theorem processValue_eq (v : Json) :
    processValue config v = mapKeys config.newKey (prune config v) := by
  induction v using value_induction with
  | scalar v h => rw [processValue_scalar h, prune_scalar h, mapKeys_scalar h]
  | array items ih =>
      rw [processValue_array, prune_array, mapKeys_array, List.map_map]
      exact congrArg Json.array (List.map_congr_left ih)
  | object fields ih =>
      rw [processValue_object, prune_object, mapKeys_object, List.map_map]
      refine congrArg (fun es => Json.object (ofEntries es)) (List.map_congr_left fun e he => ?_)
      exact congrArg (Prod.mk _) (ih e (mem_keptFields.mp he).1)

end Levels

/-! ## Keys that come back -/

section Restore

/-- The abbreviations of the table. -/
def abbreviations : List String := aggressiveMappings.map Prod.snd

/-- The inverse of the table. -/
def restoreKey (key : String) : String :=
  ((aggressiveMappings.map Prod.swap).lookup key).getD key

variable (config : JsonCompressorConfig)

/-- The entries of an object that are not removed are mapped one to one: there are as many in the
output, each with its value under the new key, and the old key can be read off the new one. -/
def EntriesKept : Json → Prop
  | .object fields => ∃ out, processValue config (.object fields) = .object out
      ∧ out.length = (keptFields config fields).length
      ∧ ∀ e ∈ keptFields config fields,
          (config.newKey e.1, processValue config e.2) ∈ out ∧ restoreKey (config.newKey e.1) = e.1
  | _ => True

/-- The entries are kept in every object, and the inverse of the table gives back the value without
the entries that are removed. -/
def LosesNothing (v : Json) : Prop :=
  everywhere (EntriesKept config) v
    ∧ mapKeys restoreKey (processValue config v) = prune config v

/-- No key of an entry that is not removed is an abbreviation. -/
def NoAbbreviation : Json → Prop
  | .object fields => ∀ e ∈ keptFields config fields, e.1 ∉ abbreviations
  | _ => True

variable {config}

theorem mem_of_lookup {table : List (String × String)} {key short : String}
    (h : table.lookup key = some short) : (key, short) ∈ table := by
  obtain ⟨l₁, l₂, heq, -⟩ := List.lookup_eq_some_iff.mp h
  rw [heq]
  exact List.mem_append_right l₁ List.mem_cons_self

/-- Each abbreviation is read back as its key, and no key of the table is one. -/
theorem aggressiveMappings_spec :
    (∀ e ∈ aggressiveMappings, restoreKey e.2 = e.1)
      ∧ ∀ e ∈ aggressiveMappings, e.1 ∉ abbreviations := by
  decide

/-- The inverse gives back the keys that are no abbreviations, and no others. -/
theorem restoreKey_newKey_iff (hshorten : config.shortenKeys = true)
    (hmappings : config.keyMappings = aggressiveMappings) (key : String) :
    restoreKey (config.newKey key) = key ↔ key ∉ abbreviations := by
  obtain ⟨hback, hkeys⟩ := aggressiveMappings_spec
  rw [JsonCompressorConfig.newKey, if_pos hshorten, hmappings]
  cases hlookup : aggressiveMappings.lookup key with
  | some short =>
      have hmem := mem_of_lookup hlookup
      exact iff_of_true (hback _ hmem) (hkeys _ hmem)
  | none =>
      rw [Option.getD_none]
      constructor
      · intro hsame hmem
        -- an abbreviation is read back as a key of the table
        obtain ⟨e, he, hkey⟩ := List.mem_map.mp hmem
        rw [← hkey, hback e he] at hsame
        exact hkeys e he (List.mem_map.mpr ⟨e, he, hsame.symm⟩)
      · intro hnot
        have hnone : (aggressiveMappings.map Prod.swap).lookup key = none := by
          rw [List.lookup_eq_none_iff]
          intro p hp
          obtain ⟨e, he, rfl⟩ := List.mem_map.mp hp
          refine bne_iff_ne.mpr fun heq => hnot ?_
          exact List.mem_map.mpr ⟨e, he, heq.symm⟩
        rw [restoreKey, hnone, Option.getD_none]

section Table

variable (hshorten : config.shortenKeys = true)
  (hmappings : config.keyMappings = aggressiveMappings)

include hshorten hmappings

theorem noAbbreviation_of_entriesKept {v : Json} (h : EntriesKept config v) :
    NoAbbreviation config v := by
  cases v with
  | object fields =>
      obtain ⟨out, -, -, hkept⟩ := h
      intro e he
      exact (restoreKey_newKey_iff hshorten hmappings e.1).mp (hkept e he).2
  | _ => trivial

/-- Without abbreviations the new keys of an object are different. -/
theorem nodup_newKeys {fields : List (String × Json)}
    (hsorted : (fields.map Prod.fst).Pairwise (· < ·))
    (h : NoAbbreviation config (.object fields)) (g : String × Json → Json) :
    (((keptFields config fields).map fun e => (config.newKey e.1, g e)).map Prod.fst).Nodup := by
  rw [List.map_map]
  change ((keptFields config fields).map fun e => config.newKey e.1).Nodup
  have hkeys : (keptFields config fields).Pairwise fun a b => a.1 ≠ b.1 := by
    rw [List.pairwise_map] at hsorted
    exact (hsorted.filter _).imp fun hlt => hlt.ne
  rw [List.Nodup, List.pairwise_map]
  refine hkeys.imp_of_mem fun {a b} ha hb hne heq => hne ?_
  rw [← (restoreKey_newKey_iff hshorten hmappings a.1).mpr (h a ha), heq]
  exact (restoreKey_newKey_iff hshorten hmappings b.1).mpr (h b hb)

theorem entriesKept_of_noAbbreviation {v : Json} (hpart : isPartOfValue v)
    (h : NoAbbreviation config v) : EntriesKept config v := by
  cases v with
  | object fields =>
      have hperm := perm_ofEntries
        (nodup_newKeys hshorten hmappings hpart h fun e => processValue config e.2)
      refine ⟨_, processValue_object fields, ?_, fun e he => ⟨?_, ?_⟩⟩
      · rw [hperm.length_eq, List.length_map]
      · exact hperm.symm.subset (List.mem_map_of_mem he)
      · exact (restoreKey_newKey_iff hshorten hmappings e.1).mpr (h e he)
  | _ => trivial

/-- Without abbreviations the inverse of the table gives back what has not been removed. -/
theorem restore_processValue {v : Json} (hpart : everywhere isPartOfValue v)
    (h : everywhere (NoAbbreviation config) v) :
    mapKeys restoreKey (processValue config v) = prune config v := by
  induction v using value_induction with
  | scalar v hv => rw [processValue_scalar hv, prune_scalar hv, mapKeys_scalar hv]
  | array items ih =>
      rw [everywhere_array] at hpart h
      rw [processValue_array, prune_array, mapKeys_array, List.map_map]
      exact congrArg Json.array
        (List.map_congr_left fun v hv => ih v hv (hpart.2 v hv) (h.2 v hv))
  | object fields ih =>
      rw [everywhere_object] at hpart h
      rw [processValue_object, prune_object, mapKeys_object]
      have hsorted : Sorted ((keptFields config fields).map fun e => (e.1, prune config e.2)) := by
        rw [Sorted, List.pairwise_map]
        have hfields := hpart.1
        rw [isPartOfValue, List.pairwise_map] at hfields
        exact hfields.filter _
      -- nothing is lost in the map, so it can be renamed entry by entry
      have hperm := (perm_ofEntries (nodup_newKeys hshorten hmappings hpart.1 h.1
        fun e => processValue config e.2)).map fun e => (restoreKey e.1, mapKeys restoreKey e.2)
      refine congrArg Json.object (ofEntries_of_perm hsorted (hperm.trans (.of_eq ?_)))
      rw [List.map_map]
      refine List.map_congr_left fun e he => Prod.ext ?_ ?_
      · exact (restoreKey_newKey_iff hshorten hmappings e.1).mpr (h.1 e he)
      · have hmem := (mem_keptFields.mp he).1
        exact ih e hmem (hpart.2 e hmem) (h.2 e hmem)

end Table

end Restore

/-- The aggressive compressor, whatever it removes, loses nothing exactly where no key of an entry
that is not removed is an abbreviation of its table. -/
theorem aggressive_keeps_iff (removeNulls removeEmptyArrays removeEmptyObjects : Bool) (v : Value) :
    LosesNothing { JsonCompressorConfig.aggressive with
        removeNulls := removeNulls
        removeEmptyArrays := removeEmptyArrays
        removeEmptyObjects := removeEmptyObjects } v.1 ↔
      everywhere (NoAbbreviation { JsonCompressorConfig.aggressive with
        removeNulls := removeNulls
        removeEmptyArrays := removeEmptyArrays
        removeEmptyObjects := removeEmptyObjects }) v.1 := by
  constructor
  · rintro ⟨hkept, -⟩
    exact everywhere_of_both (fun _ h _ => noAbbreviation_of_entriesKept rfl rfl h) hkept v.2
  · intro h
    refine ⟨?_, restore_processValue rfl rfl v.2 h⟩
    exact everywhere_of_both (fun _ hpart h => entriesKept_of_noAbbreviation rfl rfl hpart h) v.2 h

namespace Sample

/-- A long key next to its own abbreviation. -/
def messageAndM : Value :=
  ⟨.object [("m", .string "short"), ("message", .string "long")],
    everywhere_object.mpr ⟨by simp only [isPartOfValue]; decide,
      List.forall_mem_cons.mpr ⟨trivial, List.forall_mem_singleton.mpr trivial⟩⟩⟩

end Sample

/-- Of two entries one is left, and the abbreviation's own value is gone. -/
theorem abbreviation_overwritten :
    processValue .aggressive Sample.messageAndM.1 = .object [("m", .string "long")]
      ∧ ¬ LosesNothing .aggressive Sample.messageAndM.1 := by
  refine ⟨rfl, fun h => ?_⟩
  obtain ⟨out, hout, hlength, -⟩ := everywhere_self h.1
  obtain rfl := Json.object.inj hout
  exact absurd hlength (by decide)

/-! ## A second pass -/

section SecondPass

variable (config : JsonCompressorConfig)

/-- No entry of an object is one that the options ask to remove. -/
def NothingToRemove : Json → Prop
  | .object fields => ∀ e ∈ fields, config.removes e.2 = false
  | _ => True

/-- Processing the value leaves an object without entries, which the options ask to remove. -/
def emptied : Json → Bool
  | .object fields => config.removeEmptyObjects && fields.all fun e => config.removes e.2
  | _ => false

mutual

/-- No entry that stays has a value that is emptied, anywhere in what stays. -/
def Settles : Json → Prop
  | .object fields => SettlesFields fields
  | .array items => SettlesItems items
  | _ => True

def SettlesItems : List Json → Prop
  | [] => True
  | v :: items => Settles v ∧ SettlesItems items

/-- An entry stays when it is not removed and no later one takes its new key. -/
def SettlesFields : List (String × Json) → Prop
  | [] => True
  | (key, val) :: fields =>
      (config.removes val = false →
        (∀ e ∈ keptFields config fields, config.newKey e.1 ≠ config.newKey key) →
          emptied config val = false ∧ Settles val) ∧ SettlesFields fields

end

/-- Shortening the keys of what is not removed once more changes nothing. -/
def KeysSettle (v : Json) : Prop :=
  mapKeys config.newKey (mapKeys config.newKey (prune config v))
    = mapKeys config.newKey (prune config v)

mutual

/-- The number of values in a value. -/
def size : Json → Nat
  | .object fields => 1 + sizeFields fields
  | .array items => 1 + sizeItems items
  | _ => 1

def sizeItems : List Json → Nat
  | [] => 0
  | v :: items => size v + sizeItems items

def sizeFields : List (String × Json) → Nat
  | [] => 0
  | (_, v) :: fields => size v + sizeFields fields

end

variable {config}

theorem size_array (items : List Json) : size (.array items) = 1 + (items.map size).sum := by
  rw [size]
  congr 1
  induction items with
  | nil => rfl
  | cons v items ih => rw [sizeItems, ih, List.map_cons, List.sum_cons]

theorem size_object (fields : List (String × Json)) :
    size (.object fields) = 1 + (fields.map fun e => size e.2).sum := by
  rw [size]
  congr 1
  induction fields with
  | nil => rfl
  | cons e fields ih => rw [sizeFields, ih, List.map_cons, List.sum_cons]

theorem size_pos (v : Json) : 0 < size v := by
  cases v with
  | object fields => rw [size_object]; omega
  | array items => rw [size_array]; omega
  | _ => exact Nat.one_pos

/-- A part of a list, with smaller numbers, has the same sum only when it is the whole list with the
same numbers. -/
theorem sum_filter_le {α : Type} (keep : α → Bool) (a b : α → Nat) (l : List α)
    (hle : ∀ x ∈ l, a x ≤ b x) (hpos : ∀ x ∈ l, 0 < b x) :
    ((l.filter keep).map a).sum ≤ (l.map b).sum
      ∧ (((l.filter keep).map a).sum = (l.map b).sum → ∀ x ∈ l, keep x = true ∧ a x = b x) := by
  induction l with
  | nil => exact ⟨le_refl _, fun _ x hx => absurd hx List.not_mem_nil⟩
  | cons x l ih =>
      obtain ⟨hx, hl⟩ := List.forall_mem_cons.mp hle
      obtain ⟨hxpos, hlpos⟩ := List.forall_mem_cons.mp hpos
      obtain ⟨hsum, heq⟩ := ih hl hlpos
      rw [List.filter_cons, List.map_cons, List.sum_cons]
      cases hkeep : keep x with
      | true =>
          rw [if_pos rfl, List.map_cons, List.sum_cons]
          refine ⟨Nat.add_le_add hx hsum, fun h => List.forall_mem_cons.mpr ⟨⟨hkeep, ?_⟩, heq ?_⟩⟩
          · omega
          · omega
      | false =>
          rw [if_neg Bool.false_ne_true]
          refine ⟨by omega, fun h => ?_⟩
          omega

variable (config) in
/-- Processing makes no value larger, and leaves the size only where there is nothing to remove. -/
theorem size_processValue (v : Json) :
    size (processValue config v) ≤ size v
      ∧ (size (processValue config v) = size v → everywhere (NothingToRemove config) v) := by
  induction v using value_induction with
  | scalar v hv =>
      rw [processValue_scalar hv, everywhere_scalar hv]
      refine ⟨le_refl _, fun _ => ?_⟩
      cases v with
      | object fields => cases hv
      | _ => trivial
  | array items ih =>
      obtain ⟨hle, heq⟩ := sum_filter_le (fun _ => true) (fun v => size (processValue config v)) size
        items (fun v hv => (ih v hv).1) (fun v _ => size_pos v)
      rw [List.filter_true] at hle heq
      rw [processValue_array, size_array, size_array, List.map_map, everywhere_array]
      refine ⟨Nat.add_le_add_left hle 1, fun h => ⟨trivial, fun v hv => ?_⟩⟩
      exact (ih v hv).2 (heq (Nat.add_left_cancel h) v hv).2
  | object fields ih =>
      obtain ⟨hle, heq⟩ := sum_filter_le (fun e : String × Json => !config.removes e.2)
        (fun e => size (processValue config e.2)) (fun e => size e.2) fields
        (fun e he => (ih e he).1) (fun e _ => size_pos e.2)
      have hmap := sum_ofEntries_le (fun e => size e.2)
        ((keptFields config fields).map fun e => (config.newKey e.1, processValue config e.2))
      rw [List.map_map] at hmap
      have hle' := hmap.trans hle
      rw [processValue_object, size_object, size_object, everywhere_object]
      refine ⟨Nat.add_le_add_left hle' 1, fun h => ?_⟩
      have hall := heq (le_antisymm hle ((Nat.add_left_cancel h).symm.le.trans hmap))
      refine ⟨fun e he => (Bool.not_eq_true' _).mp (hall e he).1, fun e he => ?_⟩
      exact (ih e he).2 (hall e he).2

/-- Where there is nothing to remove, nothing is. -/
theorem prune_of_nothingToRemove {v : Json} (h : everywhere (NothingToRemove config) v) :
    prune config v = v := by
  induction v using value_induction with
  | scalar v hv => exact prune_scalar hv
  | array items ih =>
      rw [everywhere_array] at h
      rw [prune_array, List.map_congr_left fun v hv => ih v hv (h.2 v hv), List.map_id']
  | object fields ih =>
      rw [everywhere_object] at h
      have hkept : keptFields config fields = fields := by
        refine List.filter_eq_self.mpr fun e he => ?_
        rw [h.1 e he]
        rfl
      rw [prune_object, hkept]
      have hfields : ∀ e ∈ fields, (e.1, prune config e.2) = e := by
        intro e he
        rw [ih e he (h.2 e he)]
      rw [List.map_congr_left hfields, List.map_id']

/-- A value that was not removed is one to be removed after processing exactly when it is emptied. -/
theorem removes_processValue {v : Json} (h : config.removes v = false) :
    config.removes (processValue config v) = emptied config v := by
  cases v with
  | object fields =>
      rw [processValue_object, JsonCompressorConfig.removes, emptied]
      refine congrArg (config.removeEmptyObjects && ·) ?_
      rw [Bool.eq_iff_iff, List.isEmpty_iff, ofEntries_eq_nil_iff, List.map_eq_nil_iff, keptFields,
        List.filter_eq_nil_iff, List.all_eq_true]
      simp only [Bool.not_eq_true', Bool.not_eq_false]
  | array items =>
      rw [processValue_array]
      rw [JsonCompressorConfig.removes] at h ⊢
      rw [List.isEmpty_map, h]
      rfl
  | null => exact h
  | bool b => rfl
  | number text => rfl
  | string s => rfl

theorem settlesItems_iff {items : List Json} :
    SettlesItems config items ↔ ∀ v ∈ items, Settles config v := by
  induction items with
  | nil => exact iff_of_true trivial fun v hv => absurd hv List.not_mem_nil
  | cons v items ih => rw [SettlesItems, ih, List.forall_mem_cons]

/-- What is left of a value has nothing to remove exactly when nothing that stays is emptied. -/
theorem nothingToRemove_processValue_iff (v : Json) :
    everywhere (NothingToRemove config) (processValue config v) ↔ Settles config v := by
  induction v using value_induction with
  | scalar v hv =>
      rw [processValue_scalar hv, everywhere_scalar hv]
      cases v with
      | object fields => cases hv
      | array items => cases hv
      | _ => exact Iff.rfl
  | array items ih =>
      rw [processValue_array, everywhere_array, List.forall_mem_map, Settles, settlesItems_iff]
      refine (and_iff_right trivial).trans ?_
      exact forall₂_congr ih
  | object fields ih =>
      rw [processValue_object, everywhere_object, Settles]
      change (∀ x ∈ ofEntries _, config.removes x.2 = false) ∧ _ ↔ _
      rw [← forall₂_and]
      induction fields with
      | nil => exact iff_of_true (fun x hx => absurd hx List.not_mem_nil) trivial
      | cons e fields ihf =>
          obtain ⟨ihe, ihrest⟩ := List.forall_mem_cons.mp ih
          rw [SettlesFields, ← ihf ihrest, keptFields, List.filter_cons]
          cases hremoves : config.removes e.2 with
          | true => exact (and_iff_right fun h => nomatch h).symm
          | false =>
              rw [Bool.not_false, if_pos rfl, List.map_cons]
              constructor
              · intro h
                refine ⟨fun _ hlast => ?_, fun x hx => h x ((mem_ofEntries_cons _ _).mpr (.inr hx))⟩
                have hfirst := h _ ((mem_ofEntries_cons _ _).mpr
                  (.inl ⟨rfl, List.forall_mem_map.mpr hlast⟩))
                rw [removes_processValue hremoves, ihe] at hfirst
                exact hfirst
              · rintro ⟨hfirst, hrest⟩ x hx
                rcases (mem_ofEntries_cons _ _).mp hx with ⟨rfl, hlast⟩ | hx
                · rw [removes_processValue hremoves, ihe]
                  exact hfirst rfl fun e' he' => hlast _ (List.mem_map_of_mem he')
                · exact hrest x hx

/-- A second pass changes nothing exactly where there is nothing to remove in the output and its keys
settle. -/
theorem processValue_eq_self_iff (v : Json) :
    processValue config (processValue config v) = processValue config v ↔
      everywhere (NothingToRemove config) (processValue config v) ∧ KeysSettle config v := by
  have hkeys : everywhere (NothingToRemove config) (processValue config v) →
      (processValue config (processValue config v) = processValue config v
        ↔ KeysSettle config v) := by
    intro hnothing
    rw [processValue_eq (processValue config v), prune_of_nothingToRemove hnothing, KeysSettle,
      processValue_eq v]
  constructor
  · intro h
    have hnothing := (size_processValue config (processValue config v)).2 (congrArg size h)
    exact ⟨hnothing, (hkeys hnothing).mp h⟩
  · rintro ⟨hnothing, hsettle⟩
    exact (hkeys hnothing).mpr hsettle

/-- Keys settle where no abbreviation is shortened itself. -/
theorem mapKeys_mapKeys {f : String → String} (hf : ∀ key, f (f key) = f key) (v : Json) :
    mapKeys f (mapKeys f v) = mapKeys f v := by
  induction v using value_induction with
  | scalar v hv => rw [mapKeys_scalar hv, mapKeys_scalar hv]
  | array items ih =>
      rw [mapKeys_array, mapKeys_array, List.map_map]
      exact congrArg Json.array (List.map_congr_left ih)
  | object fields ih =>
      rw [mapKeys_object, mapKeys_object]
      refine congrArg Json.object ?_
      have hsame : ∀ x ∈ ofEntries (fields.map fun e => (f e.1, mapKeys f e.2)),
          (f x.1, mapKeys f x.2) = x := by
        intro x hx
        obtain ⟨before, after, heq, -⟩ := (mem_ofEntries_iff x).mp hx
        have hmem : x ∈ fields.map fun e => (f e.1, mapKeys f e.2) := by
          rw [heq]
          exact List.mem_append_right before List.mem_cons_self
        obtain ⟨e, he, rfl⟩ := List.mem_map.mp hmem
        exact Prod.ext (hf e.1) (ih e he)
      rw [List.map_congr_left hsame, List.map_id']
      exact ofEntries_of_sorted (sorted_ofEntries _)

/-- Keys settle where keys are not shortened, and with the table of the aggressive compressor. -/
theorem keysSettle_of_builtin
    (h : config.shortenKeys = false ∨ config.keyMappings = aggressiveMappings) (v : Json) :
    KeysSettle config v := by
  refine mapKeys_mapKeys (fun key => ?_) _
  rcases h with hoff | htable
  · simp only [JsonCompressorConfig.newKey, hoff, Bool.false_eq_true, if_false]
  · have habbreviations : ∀ e ∈ aggressiveMappings, aggressiveMappings.lookup e.2 = none := by
      decide
    cases hshorten : config.shortenKeys with
    | false => simp only [JsonCompressorConfig.newKey, hshorten, Bool.false_eq_true, if_false]
    | true =>
        simp only [JsonCompressorConfig.newKey, hshorten, htable, if_true]
        cases hlookup : aggressiveMappings.lookup key with
        | none => rw [Option.getD_none, hlookup, Option.getD_none]
        | some short =>
            rw [Option.getD_some, habbreviations _ (mem_of_lookup hlookup), Option.getD_none]

end SecondPass

/-- A second pass changes nothing, and nothing that the options ask to remove is left, exactly where
no entry that stays is emptied and shortening the keys once more changes nothing. -/
theorem processValue_idempotent_iff (config : JsonCompressorConfig) (v : Json) :
    (processValue config (processValue config v) = processValue config v
      ∧ everywhere (NothingToRemove config) (processValue config v)) ↔
    Settles config v ∧ KeysSettle config v := by
  rw [processValue_eq_self_iff, nothingToRemove_processValue_iff]
  constructor
  · rintro ⟨h, -⟩
    exact h
  · intro h
    exact ⟨h, h.1⟩

namespace Sample

/-- An object whose only entry is `null`. -/
def nullInside : Json := .object [("a", .object [("b", .null)])]

end Sample

/-- The inner object is left without entries, and a second pass removes it. -/
theorem emptied_object_left :
    processValue .aggressive Sample.nullInside = .object [("a", .object [])]
      ∧ processValue .aggressive (processValue .aggressive Sample.nullInside) = .object []
      ∧ processValue .aggressive (processValue .aggressive Sample.nullInside)
        ≠ processValue .aggressive Sample.nullInside := by
  refine ⟨rfl, rfl, fun h => ?_⟩
  have hfields : ([] : List (String × Json)) = [("a", .object [])] := Json.object.inj h
  cases hfields

end AuraGateway.Compression
