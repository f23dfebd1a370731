import AuraGateway.Compression.Toon
import AuraGateway.Foundations.QuotedCells

/-!
# Reading TOON tables

A table is cut into lines at its line breaks, and a line into cells at the commas outside double
quotes. The lines are those of the objects, and the cells their values in the order of the header,
exactly where no value has a line break and each is read whole and leaves the quotes closed
(`readsAsTable_iff`). Only strings are quoted: the commas between the elements of an array stand
outside quotes (`readValue_of_plain`), and backslashes are not escaped.
-/

set_option autoImplicit false

namespace AuraGateway.Compression.Toon

open AuraGateway.Types AuraGateway.Foundations.QuotedCells

section Reading

variable (config : ToonConfig) (json : JsonWriter)

/-! ## Reading a table -/

/-- The names in the header of an array's table. -/
def fieldNames (arr : List Json) : List String :=
  ((arr.head?.bind asObject).getD []).map Prod.fst

/-- The value of an object in a column; a missing one is null. -/
def cell (v : Json) (field : String) : Json := (((asObject v).getD []).lookup field).getD .null

/-- Where a reader of a row stands: outside double quotes, inside, or behind a backslash inside. -/
inductive Quotes where
  | outside
  | inside
  | escaped
  deriving DecidableEq, Repr

/-- Quotation marks open and close quotes; a reader that knows `escapes` takes what follows a
backslash inside quotes for itself. -/
def Quotes.step (escapes : Bool) : Quotes → Char → Quotes
  | .outside, c => if c = '"' then .inside else .outside
  | .inside, c =>
      if c = '"' then .outside else if escapes = true ∧ c = '\\' then .escaped else .inside
  | .escaped, _ => .inside

/-- A text is cut into lines at every line break. -/
def lines : Reader Unit Char where
  start := ()
  step := fun _ _ => ()
  sep := '\n'
  step_sep := rfl

/-- A row is cut into cells at the commas outside double quotes. -/
def cells (escapes : Bool) : Reader Quotes Char where
  start := .outside
  step := Quotes.step escapes
  sep := ','
  step_sep := rfl

/-- The table, in an object or in objects in each other where `depth` is not zero, is the header and
one line for each object; cut into cells, the line is the object's values in the order of the
header. -/
def ReadsAsTable (escapes : Bool) (arr : List Json) (depth : Nat) : Prop :=
  ∃ table body, encode config json (.array arr) = .ok table
    ∧ indent^[depth] table
      = indent^[depth] (header arr.length (fieldNames arr)) ++ '\n' :: body
    ∧ List.Forall₂ (fun line v => ∃ row, line = List.replicate (2 * (depth + 1)) ' ' ++ row
        ∧ pieces (cells escapes) .outside row
          = (fieldNames arr).map fun field => encodeValue json (cell v field))
      (pieces lines () body) arr

/-! ## Reading the values of a row -/

section Values

variable (escapes : Bool)

/-- Behind a character that is neither a comma, a quotation mark nor a backslash. -/
def Quotes.settled : Quotes → Quotes
  | .escaped => .inside
  | q => q

/-- Behind a string: one with special characters is put in quotes, with a backslash before each of
its quotation marks. There is no state where one of its commas stands outside quotes. -/
def readString (q : Quotes) (s : List Char) : Option Quotes :=
  if hasSpecial s then do
    let q ← s.foldlM
      (fun q c => if c = '"' then scan (cells escapes) q ['\\', '"'] else scan (cells escapes) q [c])
      (q.step escapes '"')
    return q.step escapes '"'
  else scan (cells escapes) q s

mutual

/-- Behind a value of a row. -/
def readValue (q : Quotes) : Json → Option Quotes
  | .string s => readString escapes q s.toList
  | .array items => do return (← readItems q.settled items).settled
  | .object fields => scan (cells escapes) q (json.toString (.object fields))
  | _ => some q.settled

/-- Behind the items of an array, which stand between commas. -/
def readItems (q : Quotes) : List Json → Option Quotes
  | [] => some q
  | v :: items => do
      let q ← readValue q v
      if items.isEmpty then return q
      else if q = .outside then none
      else readItems q.settled items

end

end Values

mutual

/-- No string of a value, those in objects apart, has a line break. -/
def noLineBreak : Json → Bool
  | .string s => !s.toList.contains '\n'
  | .array items => noLineBreaks items
  | _ => true

def noLineBreaks : List Json → Bool
  | [] => true
  | v :: items => noLineBreak v && noLineBreaks items

end

/-- There is a column, no value has a line break, and in every row each value is read to its end
with no comma outside quotes, and all but the last leave the quotes closed. -/
structure CellsApart (escapes : Bool) (arr : List Json) : Prop where
  columns : fieldNames arr ≠ []
  oneLine : ∀ v ∈ arr, ∀ field ∈ fieldNames arr, noLineBreak (cell v field) = true
  whole : ∀ v ∈ arr, ∀ field ∈ fieldNames arr,
    (readValue json escapes .outside (cell v field)).isSome = true
  closed : ∀ v ∈ arr, ∀ field ∈ (fieldNames arr).dropLast,
    readValue json escapes .outside (cell v field) = some .outside

end Reading

variable {config : ToonConfig} {json : JsonWriter} {escapes : Bool} {q : Quotes}

/-! ## Lines -/

theorem scan_lines (s : List Char) : (scan lines () s).isSome = true ↔ '\n' ∉ s := by
  induction s with
  | nil => simp [scan]
  | cons c s ih =>
      rw [scan, List.mem_cons, not_or]
      split
      · rename_i hcut
        exact iff_of_false Bool.false_ne_true fun h => h.1 hcut.2.symm
      · rename_i hcut
        exact ih.trans ⟨fun h => ⟨fun heq => hcut ⟨rfl, heq.symm⟩, h⟩, fun h => h.2⟩

/-- Joined lines come back when no line has a line break. -/
theorem lines_joined_iff {rows : List (List Char)} (hrows : rows ≠ []) :
    pieces lines () (['\n'].intercalate rows) = rows ↔ ∀ row ∈ rows, '\n' ∉ row := by
  refine (pieces_joined_iff (r := lines) hrows).trans ⟨fun h row hrow => (scan_lines row).mp (h.1 row hrow),
    fun h => ⟨?_, ?_⟩⟩
  · exact fun row hrow => (scan_lines row).mpr (h row hrow)
  · intro row hrow
    obtain ⟨s, hs⟩ := Option.isSome_iff_exists.mp
      ((scan_lines row).mpr (h row (List.mem_of_mem_dropLast hrow)))
    exact hs

theorem indent_append (s t : List Char) : indent (s ++ t) = indent s ++ indent t :=
  List.flatMap_append

/-- The lines of an indented text are those of the text, all but the first indented. -/
theorem lines_indent (s : List Char) :
    ∃ line rest, pieces lines () s = line :: rest
      ∧ pieces lines () (indent s) = line :: rest.map ([' ', ' '] ++ ·) := by
  induction s with
  | nil => exact ⟨[], [], rfl, rfl⟩
  | cons c s ih =>
      obtain ⟨line, rest, hs, hindent⟩ := ih
      by_cases hbreak : c = '\n'
      · subst hbreak
        refine ⟨[], line :: rest, ?_, ?_⟩
        · exact congrArg (List.cons []) hs
        · have htext : indent ('\n' :: s) = '\n' :: ' ' :: ' ' :: indent s := rfl
          rw [htext]
          have htail : pieces lines () (' ' :: ' ' :: indent s)
              = ([' ', ' '] ++ line) :: rest.map ([' ', ' '] ++ ·) := by
            rw [pieces, if_neg (by decide), pieces, if_neg (by decide)]
            exact congrArg (fun ps => (List.modifyHead (' ' :: ·) ps).modifyHead (' ' :: ·)) hindent
          exact congrArg (List.cons []) htail
      · have htext : indent (c :: s) = c :: indent s := by
          rw [indent, Yaml.replace, List.flatMap_cons, if_neg hbreak]
          rfl
        refine ⟨c :: line, rest, ?_, ?_⟩
        · rw [pieces, if_neg fun h => hbreak h.2]
          exact congrArg (List.modifyHead (c :: ·)) hs
        · rw [htext, pieces, if_neg fun h => hbreak h.2]
          exact congrArg (List.modifyHead (c :: ·)) hindent

/-- A text behind a line break, indented. -/
def shift (s : List Char) : List Char := [' ', ' '] ++ indent s

theorem lines_shift (s : List Char) :
    pieces lines () (shift s) = (pieces lines () s).map ([' ', ' '] ++ ·) := by
  obtain ⟨line, rest, hs, hindent⟩ := lines_indent s
  rw [shift, List.cons_append, List.cons_append, List.nil_append, pieces, if_neg (by decide),
    pieces, if_neg (by decide), hs]
  exact congrArg (fun ps => (List.modifyHead (' ' :: ·) ps).modifyHead (' ' :: ·)) hindent

theorem lines_iterate_shift (depth : Nat) (s : List Char) :
    pieces lines () (shift^[depth] s)
      = (pieces lines () s).map (List.replicate (2 * depth) ' ' ++ ·) := by
  induction depth with
  | zero => simp
  | succ depth ih =>
      rw [Function.iterate_succ_apply', lines_shift, ih, List.map_map]
      rfl

theorem iterate_indent (depth : Nat) (s t : List Char) :
    indent^[depth] (s ++ '\n' :: t) = indent^[depth] s ++ '\n' :: shift^[depth] t := by
  induction depth with
  | zero => rfl
  | succ depth ih =>
      rw [Function.iterate_succ_apply', ih, indent_append, Function.iterate_succ_apply',
        Function.iterate_succ_apply']
      rfl

/-! ## Values -/

theorem encodeItems_eq (items : List Json) :
    encodeItems json items = items.map (encodeValue json) := by
  induction items with
  | nil => rfl
  | cons v items ih => rw [encodeItems, ih, List.map_cons]

/-- An empty array needs no case of its own. -/
theorem encodeValue_array (items : List Json) :
    encodeValue json (.array items)
      = '[' :: [','].intercalate (items.map (encodeValue json)) ++ [']'] := by
  rw [encodeValue, encodeItems_eq]
  cases items with
  | nil => rfl
  | cons v items => rfl

theorem noLineBreaks_iff (items : List Json) :
    noLineBreaks items = true ↔ ∀ v ∈ items, noLineBreak v = true := by
  induction items with
  | nil => simp [noLineBreaks]
  | cons v items ih => rw [noLineBreaks, Bool.and_eq_true, ih, List.forall_mem_cons]

theorem mem_replace_iff {c d : Char} {t s : List Char} (h : d ∉ t) (hne : c ≠ d) :
    d ∈ Yaml.replace c t s ↔ d ∈ s := by
  simp only [Yaml.replace, List.mem_flatMap]
  constructor
  · rintro ⟨a, ha, hd⟩
    split at hd
    · exact absurd hd h
    · obtain rfl := List.mem_singleton.mp hd
      exact ha
  · intro hd
    refine ⟨d, hd, ?_⟩
    rw [if_neg hne.symm]
    exact List.mem_singleton_self d

theorem mem_encodeString (s : List Char) : '\n' ∈ encodeString s ↔ '\n' ∈ s := by
  rw [encodeString]
  split
  · rw [List.cons_append, List.mem_cons, List.mem_append,
      mem_replace_iff (by decide) (by decide)]
    simp
  · rfl

theorem mem_intercalate_comma {c : Char} (hc : c ≠ ',') (ps : List (List Char)) :
    c ∈ [','].intercalate ps ↔ ∃ p ∈ ps, c ∈ p := by
  induction ps with
  | nil => simp
  | cons p ps ih =>
      cases ps with
      | nil => simp
      | cons p' ps =>
          rw [List.intercalate_cons_of_ne_nil (by simp), List.mem_append, List.mem_append, ih]
          simp [hc]

/-- A line break of a value comes from one of its strings. -/
theorem noLineBreak_iff {v : Json} (hv : everywhere isPartOfValue v) :
    noLineBreak v = true ↔ '\n' ∉ encodeValue json v := by
  induction v using value_induction with
  | scalar v hscalar =>
      rw [everywhere_scalar hscalar] at hv
      cases v with
      | null => simp [noLineBreak, encodeValue]
      | bool b => cases b <;> simp [noLineBreak, encodeValue]
      | number text =>
          refine iff_of_true rfl fun hmem => ?_
          exact absurd (isNumberChar_of_isNumberText hv _ hmem) (by decide)
      | string s => simp [noLineBreak, encodeValue, mem_encodeString]
      | array items => cases hscalar
      | object fields => cases hscalar
  | array items ih =>
      rw [noLineBreak, noLineBreaks_iff, encodeValue_array, List.cons_append, List.mem_cons,
        List.mem_append, mem_intercalate_comma (by decide)]
      have hitems := (everywhere_array.mp hv).2
      simp only [List.mem_map, exists_exists_and_eq_and]
      constructor
      · rintro h (hopen | ⟨w, hw, hmem⟩ | hclose)
        · exact absurd hopen (by decide)
        · exact (ih w hw (hitems w hw)).mp (h w hw) hmem
        · exact absurd hclose (by decide)
      · intro h w hw
        exact (ih w hw (hitems w hw)).mpr fun hmem => h (.inr (.inl ⟨w, hw, hmem⟩))
  | object fields _ => exact iff_of_true rfl (json.oneLine _)

theorem scan_of_plain {s : List Char} (hs : s ≠ [])
    (h : ∀ c ∈ s, c ≠ ',' ∧ c ≠ '"' ∧ c ≠ '\\') :
    scan (cells escapes) q s = some q.settled := by
  obtain ⟨c, s, rfl⟩ := List.exists_cons_of_ne_nil hs
  obtain ⟨⟨hcomma, hquote, hslash⟩, hrest⟩ := List.forall_mem_cons.mp h
  have hstep (q : Quotes) (c : Char) (hquote : c ≠ '"') (hslash : c ≠ '\\') :
      q.step escapes c = q.settled := by
    cases q with
    | outside => exact if_neg hquote
    | inside => rw [Quotes.step, if_neg hquote, if_neg fun h => hslash h.2]; rfl
    | escaped => rfl
  rw [scan, if_neg fun hcut => hcomma hcut.2]
  have hsettled : (cells escapes).step q c = q.settled := hstep q c hquote hslash
  rw [hsettled]
  refine scan_of_fixed fun d hd => ?_
  obtain ⟨hcomma, hquote, hslash⟩ := hrest d hd
  refine ⟨hcomma, (hstep _ d hquote hslash).trans ?_⟩
  cases q <;> rfl

theorem scan_char {c : Char} (h : c ≠ ',' ∧ c ≠ '"' ∧ c ≠ '\\') :
    scan (cells escapes) q [c] = some q.settled :=
  scan_of_plain (List.cons_ne_nil c []) (List.forall_mem_singleton.mpr h)

theorem scan_quote (s : List Char) :
    scan (cells escapes) q ('"' :: s) = scan (cells escapes) (q.step escapes '"') s :=
  if_neg fun hcut => absurd hcut.2 (show '"' ≠ ',' by decide)

theorem scan_comma (s : List Char) :
    scan (cells escapes) q (',' :: s)
      = if q = .outside then none else scan (cells escapes) q.settled s := by
  cases q with
  | outside => rfl
  | inside => cases escapes <;> rfl
  | escaped => rfl

/-- A string is read as what is written for it. -/
theorem readString_eq (s : List Char) :
    readString escapes q s = scan (cells escapes) q (encodeString s) := by
  have hreplace (q : Quotes) : s.foldlM (fun q c =>
        if c = '"' then scan (cells escapes) q ['\\', '"'] else scan (cells escapes) q [c]) q
      = scan (cells escapes) q (Yaml.replace '"' ['\\', '"'] s) := by
    induction s generalizing q with
    | nil => rfl
    | cons c s ih =>
        rw [List.foldlM_cons, Yaml.replace, List.flatMap_cons, scan_append]
        simp only [ih]
        split <;> rfl
  rw [readString, encodeString]
  split
  · rw [hreplace, List.cons_append, scan_quote, scan_append]
    refine Option.bind_congr fun q _ => ?_
    exact (scan_quote []).symm
  · rfl

theorem readItems_eq {items : List Json}
    (h : ∀ v ∈ items, ∀ q, readValue json escapes q v
      = scan (cells escapes) q (encodeValue json v)) :
    readItems json escapes q items
      = scan (cells escapes) q ([','].intercalate (items.map (encodeValue json))) := by
  induction items generalizing q with
  | nil => rfl
  | cons v items ih =>
      obtain ⟨hv, hitems⟩ := List.forall_mem_cons.mp h
      rw [readItems, hv]
      cases items with
      | nil =>
          rw [List.map_cons, List.map_nil, List.intercalate_singleton]
          exact Option.bind_fun_some _
      | cons w items =>
          rw [List.map_cons, List.intercalate_cons_of_ne_nil (by simp), List.append_assoc,
            scan_append]
          refine Option.bind_congr fun q _ => ?_
          rw [if_neg (by simp), ih hitems, List.singleton_append, scan_comma]

/-- A value is read as what is written for it. -/
theorem readValue_eq {v : Json} (hv : everywhere isPartOfValue v) :
    readValue json escapes q v = scan (cells escapes) q (encodeValue json v) := by
  induction v using value_induction generalizing q with
  | scalar v hscalar =>
      rw [everywhere_scalar hscalar] at hv
      cases v with
      | null => exact (scan_char (by decide)).symm
      | bool b => cases b <;> exact (scan_char (by decide)).symm
      | number text =>
          refine (scan_of_plain (s := text.toList) ?_ ?_).symm
          · intro hnil
            rw [isPartOfValue, hnil] at hv
            exact absurd hv (by decide)
          · intro c hc
            have hchar := isNumberChar_of_isNumberText hv c hc
            refine ⟨?_, ?_, ?_⟩ <;> rintro rfl <;> exact absurd hchar (by decide)
      | string s => exact readString_eq s.toList
      | array items => cases hscalar
      | object fields => cases hscalar
  | array items ih =>
      have hitems := (everywhere_array.mp hv).2
      rw [readValue, encodeValue_array, List.cons_append, ← List.singleton_append, scan_append,
        scan_char (by decide), Option.bind_some, scan_append,
        readItems_eq fun v hv q => ih v hv (hitems v hv)]
      refine Option.bind_congr fun q _ => ?_
      exact (scan_char (by decide)).symm
  | object fields _ => rw [readValue, encodeValue]

/-! ## Tables that can be read -/

/-- The line of an object, without its indentation. -/
def row (json : JsonWriter) (fields : List String) (v : Json) : List Char :=
  [','].intercalate (fields.map fun field => encodeValue json (cell v field))

theorem objects_of_isUniformArray {arr : List Json} (h : isUniformArray config arr = true) :
    arr ≠ [] ∧ ∀ v ∈ arr, ∃ obj, asObject v = some obj := by
  rw [isUniformArray] at h
  split at h
  · cases h
  · split at h
    · cases h
    · rename_i first hfirst
      split at h
      · cases h
      · refine ⟨?_, fun v hv => ?_⟩
        · rintro rfl
          cases hfirst
        · have hobj := List.all_eq_true.mp h v hv
          split at hobj
          · rename_i obj hobject
            exact ⟨obj, hobject⟩
          · cases hobj

theorem rows_eq {arr : List Json} (h : ∀ v ∈ arr, ∃ obj, asObject v = some obj)
    (fields : List String) :
    (arr.filterMap asObject).map (fun obj => [','].intercalate (fields.map fun field =>
        encodeValue json ((obj.lookup field).getD .null)))
      = arr.map (row json fields) := by
  induction arr with
  | nil => rfl
  | cons v arr ih =>
      obtain ⟨⟨obj, hobj⟩, harr⟩ := List.forall_mem_cons.mp h
      rw [List.filterMap_cons_some hobj, List.map_cons, List.map_cons, ih harr]
      simp only [row, cell, hobj, Option.getD_some]

theorem intercalate_indented (rows : List (List Char)) (hrows : rows ≠ []) :
    [' ', ' '] ++ ['\n', ' ', ' '].intercalate rows
      = ['\n'].intercalate (rows.map ([' ', ' '] ++ ·)) := by
  induction rows with
  | nil => exact absurd rfl hrows
  | cons row rows ih =>
      cases rows with
      | nil => simp
      | cons row' rows =>
          have ih := ih (List.cons_ne_nil _ _)
          rw [List.map_cons] at ih
          rw [List.map_cons, List.map_cons, List.intercalate_cons_cons,
            List.intercalate_cons_cons, ← ih]
          simp

/-- The text of a table. -/
theorem encode_table {arr : List Json} (h : isUniformArray config arr = true) :
    encode config json (.array arr) = .ok (header arr.length (fieldNames arr)
      ++ '\n' :: ['\n'].intercalate (arr.map fun v => [' ', ' '] ++ row json (fieldNames arr) v)) := by
  obtain ⟨hne, hobjects⟩ := objects_of_isUniformArray h
  obtain ⟨v, arr, rfl⟩ := List.exists_cons_of_ne_nil hne
  obtain ⟨first, hfirst⟩ := hobjects v List.mem_cons_self
  have hhead : (v :: arr).head?.bind asObject = some first := hfirst
  have hnames : fieldNames (v :: arr) = first.map Prod.fst := by
    rw [fieldNames, hhead, Option.getD_some]
  rw [encode, if_neg (by simp), if_pos h, encodeTabular, hhead]
  have hbody := intercalate_indented ((v :: arr).map (row json (fieldNames (v :: arr)))) (by simp)
  rw [List.map_map] at hbody
  simp only [← hnames, rows_eq hobjects, List.append_assoc]
  exact congrArg (fun body => Except.ok (header _ _ ++ '\n' :: body)) hbody

theorem forall₂_eq_map_iff {α β : Type} {g : β → α} {P : β → Prop} {l : List α} {l' : List β} :
    List.Forall₂ (fun a b => a = g b ∧ P b) l l' ↔ l = l'.map g ∧ ∀ b ∈ l', P b := by
  induction l' generalizing l with
  | nil => simp
  | cons b l' ih =>
      cases l with
      | nil => simp
      | cons a l =>
          rw [List.forall₂_cons, ih, List.map_cons, List.cons_eq_cons, List.forall_mem_cons]
          tauto

/-- The lines and the cells of a table come back where those of its rows do. -/
theorem readsAsTable_iff_rows {arr : List Json} (h : isUniformArray config arr = true)
    (depth : Nat) :
    ReadsAsTable config json escapes arr depth
      ↔ (∀ v ∈ arr, '\n' ∉ row json (fieldNames arr) v)
        ∧ ∀ v ∈ arr, pieces (cells escapes) .outside (row json (fieldNames arr) v)
          = (fieldNames arr).map fun field => encodeValue json (cell v field) := by
  have hrow (v : Json) (r : List Char) :
      pieces (cells escapes) .outside r
          = ((fieldNames arr).map fun field => encodeValue json (cell v field))
        → r = row json (fieldNames arr) v := by
    intro heq
    rw [row, ← heq]
    exact (intercalate_pieces (r := cells escapes)).symm
  have hlines : pieces lines () (['\n'].intercalate
        (arr.map fun v => [' ', ' '] ++ row json (fieldNames arr) v))
      = (arr.map fun v => [' ', ' '] ++ row json (fieldNames arr) v)
      ↔ ∀ v ∈ arr, '\n' ∉ row json (fieldNames arr) v := by
    rw [lines_joined_iff (by simpa using (objects_of_isUniformArray h).1), List.forall_mem_map]
    simp
  have hindent (t : List Char) : List.replicate (2 * (depth + 1)) ' ' ++ t
      = List.replicate (2 * depth) ' ' ++ ([' ', ' '] ++ t) := by
    rw [Nat.mul_succ, ← List.replicate_append_replicate, List.append_assoc]
    rfl
  rw [← hlines, ReadsAsTable, encode_table h]
  constructor
  · rintro ⟨table, body, htable, hbody, hread⟩
    obtain rfl := Except.ok.inj htable
    rw [iterate_indent] at hbody
    obtain rfl := (List.cons.inj (List.append_cancel_left hbody)).2
    rw [lines_iterate_shift, List.forall₂_map_left_iff] at hread
    refine forall₂_eq_map_iff.mp (hread.imp fun line v => ?_)
    rintro ⟨r, hline, hcells⟩
    obtain rfl := hrow v r hcells
    rw [hindent] at hline
    exact ⟨List.append_cancel_left hline, hcells⟩
  · intro hread
    refine ⟨_, _, rfl, iterate_indent _ _ _, ?_⟩
    rw [lines_iterate_shift, List.forall₂_map_left_iff]
    refine (forall₂_eq_map_iff.mpr hread).imp fun line v => ?_
    rintro ⟨rfl, hcells⟩
    exact ⟨_, (hindent _).symm, hcells⟩

theorem everywhere_cell {v : Json} (hv : everywhere isPartOfValue v) (field : String) :
    everywhere isPartOfValue (cell v field) := by
  rw [cell]
  cases v with
  | object fields =>
      cases hlookup : fields.lookup field with
      | none =>
          rw [asObject, Option.getD_some, hlookup]
          trivial
      | some w =>
          obtain ⟨l, l', rfl, -⟩ := List.lookup_eq_some_iff.mp hlookup
          rw [asObject, Option.getD_some, hlookup]
          exact (everywhere_object.mp hv).2 (field, w)
            (List.mem_append_right l List.mem_cons_self)
  | null => trivial
  | bool b => trivial
  | number text => trivial
  | string s => trivial
  | array items => trivial

/-- Every table with a column, whatever the objects in it are nested in, comes back line by line and
cell by cell exactly where the values of its rows stand apart. -/
theorem readsAsTable_iff (arr : List Value)
    (h : isUniformArray config (arr.map Subtype.val) = true) (depth : Nat) :
    ReadsAsTable config json escapes (arr.map Subtype.val) depth
      ↔ CellsApart json escapes (arr.map Subtype.val) := by
  rw [readsAsTable_iff_rows h]
  set table := arr.map Subtype.val
  have hvalues : ∀ v ∈ table, everywhere isPartOfValue v := by
    intro v hv
    obtain ⟨w, -, rfl⟩ := List.mem_map.mp hv
    exact w.2
  have hlines : (∀ v ∈ table, '\n' ∉ row json (fieldNames table) v)
      ↔ ∀ v ∈ table, ∀ field ∈ fieldNames table, noLineBreak (cell v field) = true := by
    refine forall₂_congr fun v hv => ?_
    rw [row, mem_intercalate_comma (by decide)]
    simp only [List.mem_map, exists_exists_and_eq_and, not_exists, not_and]
    exact forall₂_congr fun field _ => (noLineBreak_iff (everywhere_cell (hvalues v hv) field)).symm
  have hcells (hfields : fieldNames table ≠ []) (v : Json) (hv : v ∈ table) :
      pieces (cells escapes) .outside (row json (fieldNames table) v)
          = ((fieldNames table).map fun field => encodeValue json (cell v field))
        ↔ (∀ field ∈ fieldNames table,
            (readValue json escapes .outside (cell v field)).isSome = true)
          ∧ ∀ field ∈ (fieldNames table).dropLast,
            readValue json escapes .outside (cell v field) = some .outside := by
    simp only [readValue_eq (everywhere_cell (hvalues v hv) _)]
    refine (pieces_joined_iff (r := cells escapes) (by simpa using hfields)).trans ?_
    rw [List.forall_mem_map, ← List.map_dropLast, List.forall_mem_map]
    rfl
  rw [hlines]
  constructor
  · rintro ⟨hbreaks, hapart⟩
    have hfields : fieldNames table ≠ [] := by
      intro hnil
      obtain ⟨v, hv⟩ := List.exists_mem_of_ne_nil _ (objects_of_isUniformArray h).1
      have hrow := hapart v hv
      rw [row, hnil] at hrow
      exact absurd hrow (List.cons_ne_nil _ _)
    exact ⟨hfields, hbreaks, fun v hv => ((hcells hfields v hv).mp (hapart v hv)).1,
      fun v hv => ((hcells hfields v hv).mp (hapart v hv)).2⟩
  · intro happart
    exact ⟨happart.oneLine, fun v hv => (hcells happart.columns v hv).mpr
      ⟨happart.whole v hv, happart.closed v hv⟩⟩

/-! ## Values without backslashes -/

/-- No string of a value has a backslash, and there is no object in it. -/
def Plain : Json → Prop
  | .string s => '\\' ∉ s.toList
  | .object _ => False
  | _ => True

/-- An array of at most one element. -/
def Short : Json → Prop
  | .array items => items.length ≤ 1
  | _ => True

theorem readString_of_plain {s : List Char} (h : '\\' ∉ s) :
    readString true .outside s = some .outside := by
  have hinside : s.foldlM (fun q c =>
      if c = '"' then scan (cells true) q ['\\', '"'] else scan (cells true) q [c]) .inside
      = some .inside := by
    induction s with
    | nil => rfl
    | cons c s ih =>
        obtain ⟨hslash, hrest⟩ := not_or.mp (mt List.mem_cons.mpr h)
        have hchar : (if c = '"' then scan (cells true) .inside ['\\', '"']
            else scan (cells true) .inside [c]) = some .inside := by
          split
          · rfl
          · rename_i hquote
            rw [scan, if_neg fun hcut => absurd hcut.1 (by decide)]
            exact congrArg some ((if_neg hquote).trans (if_neg fun h => hslash h.2.symm))
        rw [List.foldlM_cons, hchar]
        exact ih hrest
  rw [readString]
  split
  · have hstep : Quotes.outside.step true '"' = .inside := rfl
    rw [hstep, hinside]
    rfl
  · rename_i hspecial
    simp only [hasSpecial, Bool.or_eq_true, not_or, List.contains_iff_mem] at hspecial
    refine scan_of_fixed fun c hc => ⟨?_, if_neg ?_⟩
    · rintro rfl
      exact hspecial.1.1 hc
    · rintro rfl
      exact hspecial.2 hc

/-- Such a value is read whole, and leaves the quotes closed, when no array in it has two
elements; otherwise a comma stands outside quotes. -/
theorem readValue_of_plain {v : Json} (hplain : everywhere Plain v) :
    (everywhere Short v → readValue json true .outside v = some .outside)
      ∧ (¬ everywhere Short v → readValue json true .outside v = none) := by
  induction v using value_induction with
  | scalar v hscalar =>
      rw [everywhere_scalar hscalar] at hplain ⊢
      cases v with
      | null => exact ⟨fun _ => rfl, fun h => absurd trivial h⟩
      | bool b => exact ⟨fun _ => rfl, fun h => absurd trivial h⟩
      | number text => exact ⟨fun _ => rfl, fun h => absurd trivial h⟩
      | string s => exact ⟨fun _ => readString_of_plain hplain, fun h => absurd trivial h⟩
      | array items => cases hscalar
      | object fields => cases hscalar
  | array items ih =>
      have hitems := (everywhere_array.mp hplain).2
      rw [everywhere_array, readValue]
      cases items with
      | nil => exact ⟨fun _ => rfl, fun h => absurd ⟨Nat.zero_le 1, by simp⟩ h⟩
      | cons v items =>
          obtain ⟨hshort, hlong⟩ := ih v List.mem_cons_self (hitems v List.mem_cons_self)
          have hread : readItems json true Quotes.outside.settled (v :: items)
              = (readValue json true .outside v).bind fun q =>
                if items.isEmpty then some q
                else if q = .outside then none
                else readItems json true q.settled items := rfl
          rw [hread]
          cases items with
          | nil =>
              constructor
              · rintro ⟨-, hall⟩
                rw [hshort (hall v List.mem_cons_self)]
                rfl
              · intro h
                rw [hlong fun hv => h ⟨Nat.le_refl 1, by simpa using hv⟩]
                rfl
          | cons w items =>
              constructor
              · rintro ⟨htwo, -⟩
                exact absurd htwo (by simp [Short])
              · intro _
                -- the first comma of the array stands where its first element ended
                by_cases hv : everywhere Short v
                · rw [hshort hv]
                  rfl
                · rw [hlong hv]
                  rfl
  | object fields _ => exact absurd (everywhere_object.mp hplain).1 id

/-- The rows whose values have no backslash and no object in them stand apart where no value has a
line break and no array of two elements. -/
theorem cellsApart_iff_of_plain {arr : List Json}
    (hplain : ∀ v ∈ arr, ∀ field ∈ fieldNames arr, everywhere Plain (cell v field)) :
    CellsApart json true arr ↔ fieldNames arr ≠ []
      ∧ ∀ v ∈ arr, ∀ field ∈ fieldNames arr,
        noLineBreak (cell v field) = true ∧ everywhere Short (cell v field) := by
  constructor
  · intro h
    refine ⟨h.columns, fun v hv field hfield => ⟨h.oneLine v hv field hfield, ?_⟩⟩
    by_contra hshort
    have hwhole := h.whole v hv field hfield
    rw [(readValue_of_plain (hplain v hv field hfield)).2 hshort] at hwhole
    cases hwhole
  · rintro ⟨hcolumns, hcell⟩
    have hread (v : Json) (hv : v ∈ arr) (field : String) (hfield : field ∈ fieldNames arr) :
        readValue json true .outside (cell v field) = some .outside :=
      (readValue_of_plain (hplain v hv field hfield)).1 (hcell v hv field hfield).2
    refine ⟨hcolumns, fun v hv field hfield => (hcell v hv field hfield).1, ?_, ?_⟩
    · exact fun v hv field hfield => Option.isSome_iff_exists.mpr ⟨_, hread v hv field hfield⟩
    · exact fun v hv field hfield => hread v hv field (List.mem_of_mem_dropLast hfield)

namespace Sample

/-- A writer for objects without fields. -/
def emptyObjects : JsonWriter := ⟨fun _ => ['\x7b', '\x7d'], fun _ => by decide⟩

/-- Strings with a comma and quotation marks, an empty object and an array of one element. -/
def quoted : List Value :=
  [⟨.object [("id", .number "1"), ("text", .string "say \"a, b\"")], by
      simp only [everywhere, everywhereFields, isPartOfValue]
      decide⟩,
    ⟨.object [("id", .object []), ("text", .array [.string "c"])], by
      simp only [everywhere, everywhereFields, everywhereItems, isPartOfValue]
      decide⟩]

/-- An array of two elements. -/
def tagged : List Json :=
  [.object [("id", .number "1"), ("tags", .array [.string "a", .string "b"])],
    .object [("id", .number "2"), ("tags", .array [])]]

/-- A line break. -/
def broken : List Json :=
  [.object [("id", .number "1"), ("text", .string "a\nb")],
    .object [("id", .number "2"), ("text", .string "c")]]

/-- A backslash at the end of a string with a comma. -/
def backslash : List Json :=
  [.object [("path", .string "a,\\"), ("text", .string "b")],
    .object [("path", .string "c"), ("text", .string "d")]]

end Sample

/-- A table whose lines are read back, cell by cell, inside an object. -/
theorem quoted_reads :
    ReadsAsTable {} Sample.emptyObjects true (Sample.quoted.map Subtype.val) 1 :=
  (readsAsTable_iff Sample.quoted (by decide) 1).mpr
    ⟨by decide, by decide, by decide, by decide⟩

/-- An array's own commas cut its cell, a line break cuts its row, and a backslash before the closing
quotation mark joins a cell with the next one. -/
theorem tables_miscut :
    (isUniformArray {} Sample.tagged = true
      ∧ ¬ ReadsAsTable {} Sample.emptyObjects true Sample.tagged 0)
    ∧ (isUniformArray {} Sample.broken = true
      ∧ ¬ ReadsAsTable {} Sample.emptyObjects true Sample.broken 0)
    ∧ isUniformArray {} Sample.backslash = true
      ∧ ¬ ReadsAsTable {} Sample.emptyObjects true Sample.backslash 0 := by
  refine ⟨⟨by decide, ?_⟩, ⟨by decide, ?_⟩, by decide, ?_⟩
  · rw [readsAsTable_iff_rows (by decide)]
    decide
  · rw [readsAsTable_iff_rows (by decide)]
    decide
  · rw [readsAsTable_iff_rows (by decide)]
    decide

end AuraGateway.Compression.Toon
