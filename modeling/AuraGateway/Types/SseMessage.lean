import AuraGateway.Standard.RustStd
import AuraGateway.Types.Request

/-!
# Server-sent messages

A message is written as lines of `name: value` and read back line by line. The writer puts the
values there as they are, whereas the reader trims them and joins the data of several lines, so a
value with a line feed is torn apart: its further lines are read as fields of their own.

What is read are the fields of all the written lines (`roundTrips_iff`). So event and data come back
exactly from messages whose values have no line feeds and no spaces around them, up to lines of
the id that say nothing (`toSse_round_trip_iff`).
-/

set_option autoImplicit false

namespace AuraGateway.Types

open AuraGateway.RustStd

/-! ## Lines -/

/-- A line without a carriage return at its end. -/
def stripCr (line : List Char) : List Char :=
  if line.getLast? = some '\r' then line.dropLast else line

/-- `str::lines`: what stands before the line feeds, and what is left after the last one. -/
def strLines (text : List Char) : List (List Char) :=
  let pieces := text.splitOn '\n'
  pieces.dropLast.map stripCr ++ (pieces.getLast?.filter fun last => !last.isEmpty).toList

theorem strLines_nil : strLines [] = [] := rfl

theorem strLines_append (t rest : List Char) :
    strLines (t ++ '\n' :: rest) = (t.splitOn '\n').map stripCr ++ strLines rest := by
  have hne : rest.splitOn '\n' ≠ [] := List.splitOn_ne_nil '\n' rest
  simp only [strLines, List.splitOn_append_cons_self, List.dropLast_append_of_ne_nil hne,
    List.getLast?_append_of_ne_nil _ hne, List.map_append, List.append_assoc]

/-- The lines of texts that are followed by a line feed each. -/
theorem strLines_flatMap (texts : List (List Char)) :
    strLines (texts.flatMap fun t => t ++ ['\n'])
      = texts.flatMap fun t => (t.splitOn '\n').map stripCr := by
  induction texts with
  | nil => rfl
  | cons t texts ih =>
      rw [List.flatMap_cons, List.flatMap_cons, ← ih, List.append_assoc, List.singleton_append,
        strLines_append]

/-! ## Messages -/

/-- A message: the name of its event, its data, its id and the interval for reconnecting. -/
structure SseMessage where
  event : Option String := none
  data : String
  id : Option String := none
  retry : Option Nat := none
  deriving DecidableEq, Repr

/-- `str::parse::<u64>`. -/
def parseU64 (t : List Char) : Option Nat :=
  let digits := if t.head? = some '+' then t.tail else t
  if digits.isEmpty then none
  else if digits.all Char.isDigit then
    let n := digits.foldl (fun n c => n * 10 + (c.toNat - '0'.toNat)) 0
    if n < 2 ^ 64 then some n else none
  else none

/-- What has been read of a message. -/
structure SseFields where
  event : Option (List Char) := none
  data : List Char := []
  id : Option (List Char) := none
  retry : Option Nat := none

/-- Data of a further line, after a line feed unless there is none yet. -/
def appendData (data value : List Char) : List Char :=
  (if data.isEmpty then data else data ++ ['\n']) ++ value

/-- The trimmed value of a line with the given name. -/
def fieldOf (name line : List Char) : Option (List Char) :=
  if name <+: line then some (trimChars (line.drop name.length)) else none

/-- Read one line. -/
def SseFields.readLine (m : SseFields) (line : List Char) : SseFields :=
  match fieldOf "event:".toList line with
  | some value => { m with event := some value }
  | none =>
      match fieldOf "data:".toList line with
      | some value => { m with data := appendData m.data value }
      | none =>
          match fieldOf "id:".toList line with
          | some value => { m with id := some value }
          | none =>
              match fieldOf "retry:".toList line with
              | some value => { m with retry := parseU64 value }
              | none => m

namespace SseMessage

/-- Format as SSE text. -/
def toSse (m : SseMessage) : String :=
  (m.event.map fun event => "event: " ++ event ++ "\n").getD ""
    ++ (m.id.map fun id => "id: " ++ id ++ "\n").getD ""
    ++ (m.retry.map fun retry => "retry: " ++ toString retry ++ "\n").getD ""
    ++ ("data: " ++ m.data ++ "\n\n")

/-- Parse SSE text into a message; none where there is no data. -/
def parse (text : String) : Option SseMessage :=
  let read := (strLines text.toList).foldl SseFields.readLine {}
  if read.data.isEmpty then none
  else
    some
      { event := read.event.map String.ofList
        data := String.ofList read.data
        id := read.id.map String.ofList
        retry := read.retry }

end SseMessage

/-! ## Fields of lines -/

theorem trimChars_append_space {c : Char} (hc : isWhitespace c = true) (t : List Char) :
    trimChars (t ++ [c]) = trimChars t := by
  unfold trimChars
  rw [List.dropWhile_append]
  split
  · rename_i hnil
    rw [List.isEmpty_iff.mp hnil, List.dropWhile_cons_of_pos hc]
    rfl
  · rw [List.reverse_append, List.reverse_singleton, List.singleton_append,
      List.dropWhile_cons_of_pos hc]

/-- A space that was put before a value is trimmed with those of the value. -/
theorem trimChars_cons_space {c : Char} (hc : isWhitespace c = true) (t : List Char) :
    trimChars (c :: t) = trimChars t := by
  rw [trimChars, List.dropWhile_cons_of_pos hc, ← trimChars]

theorem fieldOf_append (name value : List Char) :
    fieldOf name (name ++ value) = some (trimChars value) := by
  rw [fieldOf, if_pos (List.prefix_append name value), List.drop_left]

/-- The carriage return of a line ending is no part of the field. -/
theorem fieldOf_stripCr {name : List Char} (hname : '\r' ∉ name) (line : List Char) :
    fieldOf name (stripCr line) = fieldOf name line := by
  unfold stripCr
  split
  · rename_i hlast
    obtain ⟨t, rfl⟩ := List.getLast?_eq_some_iff.mp hlast
    rw [List.dropLast_concat]
    unfold fieldOf
    by_cases hprefix : name <+: t
    · obtain ⟨value, rfl⟩ := hprefix
      rw [if_pos (List.prefix_append name value),
        if_pos ((List.prefix_append name value).trans (List.prefix_append _ _)), List.drop_left,
        List.append_assoc, List.drop_left, trimChars_append_space (by decide)]
    · have hprefix' : ¬ name <+: t ++ ['\r'] := by
        intro h
        rcases List.prefix_concat_iff.mp h with heq | ht
        · exact hname (heq ▸ List.mem_append_right t (List.mem_singleton.mpr rfl))
        · exact hprefix ht
      rw [if_neg hprefix, if_neg hprefix']
  · rfl

/-- The values of the fields of a name, in the lines of a text. -/
def fieldsOf (name text : List Char) : List (List Char) :=
  (text.splitOn '\n').filterMap (fieldOf name)

theorem filterMap_fieldOf_stripCr {name : List Char} (hname : '\r' ∉ name) (text : List Char) :
    ((text.splitOn '\n').map stripCr).filterMap (fieldOf name) = fieldsOf name text := by
  rw [List.filterMap_map]
  exact List.filterMap_congr fun line _ => fieldOf_stripCr hname line

def firstLine (text : List Char) : List Char := text.takeWhile (· != '\n')

/-- The lines of a text after its first. -/
def continuation (text : List Char) : List (List Char) := (text.splitOn '\n').tail

theorem splitOn_eq_firstLine (text : List Char) :
    text.splitOn '\n' = firstLine text :: continuation text := by
  induction text with
  | nil => rfl
  | cons c text ih =>
      by_cases hc : c = '\n'
      · subst hc
        rfl
      · have hsplit : (c :: text).splitOn '\n' = (c :: firstLine text) :: continuation text := by
          rw [List.splitOn_cons_eq_if_modifyHead, if_neg (by simpa using hc), ih]
          rfl
        have hfirst : firstLine (c :: text) = c :: firstLine text :=
          List.takeWhile_cons_of_pos (by simpa using hc)
        rw [hfirst, continuation, hsplit, List.tail_cons]

/-- Something without a line feed before a text stands in its first line. -/
theorem splitOn_append_of_not_mem {pre : List Char} (h : '\n' ∉ pre) (text : List Char) :
    (pre ++ text).splitOn '\n' = (pre ++ firstLine text) :: continuation text := by
  induction pre with
  | nil => exact splitOn_eq_firstLine text
  | cons c pre ih =>
      rw [List.mem_cons, not_or] at h
      rw [List.cons_append, List.splitOn_cons_eq_if_modifyHead, if_neg (by simpa using Ne.symm h.1),
        ih h.2]
      rfl

theorem firstLine_of_not_mem {text : List Char} (h : '\n' ∉ text) : firstLine text = text :=
  List.takeWhile_eq_self_iff.mpr fun _ hc => bne_iff_ne.mpr fun heq => h (heq ▸ hc)

theorem continuation_of_not_mem {text : List Char} (h : '\n' ∉ text) : continuation text = [] := by
  rw [continuation, List.splitOn_eq_singleton h]
  rfl

theorem continuation_ne_nil {text : List Char} (h : '\n' ∈ text) : continuation text ≠ [] := by
  intro hnil
  have hintercalate : ['\n'].intercalate (text.splitOn '\n') = text := List.intercalate_splitOn '\n'
  rw [splitOn_eq_firstLine, hnil] at hintercalate
  have hfirst : firstLine text = text := by simpa using hintercalate
  rw [← hfirst, firstLine] at h
  have hkept := List.mem_takeWhile_imp h
  exact absurd hkept (by decide)

/-- A text is as long as its lines and the line feeds between them. -/
theorem length_eq_lines (text : List Char) :
    text.length = (firstLine text).length + ((continuation text).map fun l => l.length + 1).sum := by
  have hlength : ∀ (x : List Char) (xs : List (List Char)),
      (['\n'].intercalate (x :: xs)).length = x.length + (xs.map fun l => l.length + 1).sum := by
    intro x xs
    induction xs generalizing x with
    | nil => simp
    | cons y ys ih =>
        rw [List.intercalate_cons_cons, List.length_append, List.length_append, ih, List.map_cons,
          List.sum_cons, List.length_singleton]
        omega
  have hintercalate : ['\n'].intercalate (text.splitOn '\n') = text := List.intercalate_splitOn '\n'
  rw [splitOn_eq_firstLine] at hintercalate
  have h := hlength (firstLine text) (continuation text)
  rw [hintercalate] at h
  exact h

/-! ## What is read of a message -/

section Read

/-- The data of the lines with data. -/
def joinData (values : List (List Char)) : List Char := values.foldl appendData []

theorem readLine_event (read : SseFields) (line : List Char) :
    (read.readLine line).event = (fieldOf "event:".toList line).or read.event := by
  unfold SseFields.readLine
  cases fieldOf "event:".toList line with
  | some value => rfl
  | none =>
      dsimp only
      split
      · rfl
      · split
        · rfl
        · split <;> rfl

/-- A line of data is no line of an event. -/
theorem event_eq_none_of_data {line value : List Char}
    (h : fieldOf "data:".toList line = some value) : fieldOf "event:".toList line = none := by
  unfold fieldOf at h ⊢
  split at h
  · rename_i hprefix
    obtain ⟨rest, rfl⟩ := hprefix
    exact if_neg (by simp)
  · cases h

theorem readLine_data (read : SseFields) (line : List Char) :
    (read.readLine line).data
      = ((fieldOf "data:".toList line).map (appendData read.data)).getD read.data := by
  unfold SseFields.readLine
  cases hdata : fieldOf "data:".toList line with
  | some value =>
      rw [event_eq_none_of_data hdata]
      rfl
  | none =>
      split
      · rfl
      · dsimp only
        split
        · rfl
        · split <;> rfl

theorem foldl_readLine_event (lines : List (List Char)) (read : SseFields) :
    (lines.foldl SseFields.readLine read).event
      = (lines.filterMap (fieldOf "event:".toList)).getLast?.or read.event := by
  induction lines generalizing read with
  | nil => rfl
  | cons line lines ih =>
      rw [List.foldl_cons, ih, readLine_event, List.filterMap_cons]
      cases fieldOf "event:".toList line with
      | none => rfl
      | some value =>
          dsimp only
          rw [List.getLast?_cons]
          cases (lines.filterMap (fieldOf "event:".toList)).getLast? <;> rfl

theorem foldl_readLine_data (lines : List (List Char)) (read : SseFields) :
    (lines.foldl SseFields.readLine read).data
      = (lines.filterMap (fieldOf "data:".toList)).foldl appendData read.data := by
  induction lines generalizing read with
  | nil => rfl
  | cons line lines ih =>
      rw [List.foldl_cons, ih, readLine_data, List.filterMap_cons]
      cases fieldOf "data:".toList line <;> rfl

/-- The texts of a message, each of which is followed by a line feed. -/
def SseMessage.texts (m : SseMessage) : List (List Char) :=
  (m.event.map fun event => "event: ".toList ++ event.toList).toList
    ++ (m.id.map fun id => "id: ".toList ++ id.toList).toList
    ++ (m.retry.map fun retry => "retry: ".toList ++ (toString retry).toList).toList
    ++ ["data: ".toList ++ m.data.toList, []]

theorem toList_toSse (m : SseMessage) : m.toSse.toList = m.texts.flatMap fun t => t ++ ['\n'] := by
  obtain ⟨event, data, id, retry⟩ := m
  cases event <;> cases id <;> cases retry <;> simp [SseMessage.toSse, SseMessage.texts]

/-- The values of the fields of a name in a written message. -/
def SseMessage.written (m : SseMessage) (name : List Char) : List (List Char) :=
  m.texts.flatMap (fieldsOf name)

theorem filterMap_fieldOf_toSse {name : List Char} (hname : '\r' ∉ name) (m : SseMessage) :
    (strLines m.toSse.toList).filterMap (fieldOf name) = m.written name := by
  rw [toList_toSse, strLines_flatMap, List.filterMap_flatMap]
  exact List.flatMap_congr fun t _ => filterMap_fieldOf_stripCr hname t

/-- Event and data come back. -/
def SseMessage.RoundTrips (m : SseMessage) : Prop :=
  ∃ m', SseMessage.parse m.toSse = some m' ∧ m'.event = m.event ∧ m'.data = m.data

theorem ofList_eq_iff {t : List Char} {s : String} : String.ofList t = s ↔ t = s.toList := by
  constructor
  · rintro rfl
    exact String.toList_ofList.symm
  · rintro rfl
    exact String.ofList_toList

theorem map_ofList_eq_iff {o : Option (List Char)} {o' : Option String} :
    o.map String.ofList = o' ↔ o = o'.map String.toList := by
  cases o <;> cases o' <;> simp [ofList_eq_iff]

/-- What is read back are the fields of the written lines. -/
theorem roundTrips_iff (m : SseMessage) :
    m.RoundTrips ↔ m.data.toList ≠ []
      ∧ (m.written "event:".toList).getLast? = m.event.map String.toList
      ∧ joinData (m.written "data:".toList) = m.data.toList := by
  let read := (strLines m.toSse.toList).foldl SseFields.readLine {}
  have hevent : read.event = (m.written "event:".toList).getLast? := by
    rw [← filterMap_fieldOf_toSse (by decide) m]
    exact (foldl_readLine_event _ _).trans Option.or_none
  have hdata : read.data = joinData (m.written "data:".toList) := by
    rw [← filterMap_fieldOf_toSse (by decide) m]
    exact foldl_readLine_data _ _
  have hparse : SseMessage.parse m.toSse = if read.data.isEmpty then none
      else some ⟨read.event.map String.ofList, String.ofList read.data, read.id.map String.ofList,
        read.retry⟩ := rfl
  rw [← hevent, ← hdata, ← map_ofList_eq_iff, ← ofList_eq_iff]
  constructor
  · rintro ⟨m', hm', hsame, hsame'⟩
    rw [hparse] at hm'
    split at hm'
    · cases hm'
    · rename_i hne
      obtain rfl := Option.some.inj hm'
      refine ⟨?_, hsame, hsame'⟩
      rw [← hsame', String.toList_ofList]
      simpa using hne
  · rintro ⟨hne, hsame, hsame'⟩
    rw [← hsame', String.toList_ofList] at hne
    rw [SseMessage.RoundTrips, hparse, if_neg (by simpa using hne)]
    exact ⟨_, rfl, hsame, hsame'⟩

/-- The fields of a value behind something without a line feed: that of its first line, and those of
the others. -/
theorem fieldsOf_append {pre : List Char} (hpre : '\n' ∉ pre) (name value : List Char) :
    fieldsOf name (pre ++ value)
      = (fieldOf name (pre ++ firstLine value)).toList
        ++ (continuation value).filterMap (fieldOf name) := by
  rw [fieldsOf, splitOn_append_of_not_mem hpre, List.filterMap_cons]
  cases fieldOf name (pre ++ firstLine value) <;> rfl

/-- A line under another name is no field. -/
theorem fieldOf_eq_none {name line : List Char} {c d : Char} (hname : name.head? = some c)
    (hline : line.head? = some d) (hne : c ≠ d) : fieldOf name line = none := by
  rw [fieldOf, if_neg]
  rintro ⟨rest, rfl⟩
  rw [List.head?_append, hname] at hline
  exact hne (Option.some.inj hline)

theorem newline_not_mem_toString (n : Nat) : '\n' ∉ (toString n).toList := by
  intro h
  have hdigit := Nat.isDigit_of_mem_toDigits (by decide) (by decide) (Nat.toList_repr ▸ h)
  exact absurd hdigit (by decide)

/-- The lines of the id after its first. -/
def SseMessage.idLines (m : SseMessage) : List (List Char) :=
  (m.id.map fun id => continuation id.toList).getD []

/-- The lines of the data after its first. -/
def SseMessage.dataLines (m : SseMessage) : List (List Char) := continuation m.data.toList

theorem fieldsOf_nil {name : List Char} (h : name ≠ []) : fieldsOf name [] = [] := by
  have hnone : fieldOf name [] = none := if_neg fun hprefix => h (List.prefix_nil.mp hprefix)
  simp [fieldsOf, hnone]

section Written

variable {name : List Char} {c : Char}

theorem fieldsOf_id (hname : name.head? = some c) (hne : c ≠ 'i') (id : String) :
    fieldsOf name ("id: ".toList ++ id.toList) = (continuation id.toList).filterMap (fieldOf name) := by
  rw [fieldsOf_append (by decide), fieldOf_eq_none hname (d := 'i') (by simp) hne]
  rfl

theorem fieldsOf_retry (hname : name.head? = some c) (hne : c ≠ 'r') (retry : Nat) :
    fieldsOf name ("retry: ".toList ++ (toString retry).toList) = [] := by
  rw [fieldsOf_append (by decide), fieldOf_eq_none hname (d := 'r') (by simp) hne,
    continuation_of_not_mem (newline_not_mem_toString retry)]
  rfl

/-- What the id and the interval of a message add to the fields of another name. -/
theorem written_eq (hname : name.head? = some c) (hid : c ≠ 'i') (hretry : c ≠ 'r')
    (m : SseMessage) :
    m.written name
      = (m.event.map fun event => fieldsOf name ("event: ".toList ++ event.toList)).getD []
        ++ m.idLines.filterMap (fieldOf name) ++ fieldsOf name ("data: ".toList ++ m.data.toList) := by
  have hne : name ≠ [] := by
    rintro rfl
    cases hname
  obtain ⟨event, data, id, retry⟩ := m
  cases event <;> cases id <;> cases retry <;>
    simp only [SseMessage.written, SseMessage.texts, SseMessage.idLines, Option.map_none,
      Option.map_some, Option.toList_none, Option.toList_some, Option.getD_none, Option.getD_some,
      List.flatMap_append, List.flatMap_cons, List.flatMap_nil, List.filterMap_nil, List.append_nil,
      List.nil_append, fieldsOf_nil hne, fieldsOf_id hname hid, fieldsOf_retry hname hretry]

end Written

theorem written_event {m : SseMessage} (h : ∀ event ∈ m.event, '\n' ∉ event.toList) :
    m.written "event:".toList
      = (m.event.map fun event => trimChars event.toList).toList
        ++ m.idLines.filterMap (fieldOf "event:".toList)
        ++ m.dataLines.filterMap (fieldOf "event:".toList) := by
  have hevent : (m.event.map fun event => fieldsOf "event:".toList ("event: ".toList ++ event.toList)).getD []
      = (m.event.map fun event => trimChars event.toList).toList := by
    cases hevent : m.event with
    | none => rfl
    | some event =>
        have hline := h event hevent
        have hfield : fieldOf "event:".toList ("event: ".toList ++ firstLine event.toList)
            = some (trimChars event.toList) := by
          rw [firstLine_of_not_mem hline, ← trimChars_cons_space (c := ' ') (by decide)]
          exact fieldOf_append "event:".toList (' ' :: event.toList)
        rw [Option.map_some, Option.getD_some, fieldsOf_append (by decide), hfield,
          continuation_of_not_mem hline]
        rfl
  rw [written_eq (c := 'e') (by simp) (by decide) (by decide), hevent,
    fieldsOf_append (by decide), fieldOf_eq_none (c := 'e') (d := 'd') (by simp) (by simp) (by decide)]
  rfl

theorem written_data {m : SseMessage} (h : ∀ event ∈ m.event, '\n' ∉ event.toList) :
    m.written "data:".toList
      = m.idLines.filterMap (fieldOf "data:".toList)
        ++ trimChars (firstLine m.data.toList) :: m.dataLines.filterMap (fieldOf "data:".toList) := by
  have hevent : (m.event.map fun event => fieldsOf "data:".toList ("event: ".toList ++ event.toList)).getD []
      = [] := by
    cases hevent : m.event with
    | none => rfl
    | some event =>
        rw [Option.map_some, Option.getD_some, fieldsOf_append (by decide),
          fieldOf_eq_none (c := 'd') (d := 'e') (by simp) (by simp) (by decide),
          continuation_of_not_mem (h event hevent)]
        rfl
  have hdata : fieldOf "data:".toList ("data: ".toList ++ firstLine m.data.toList)
      = some (trimChars (firstLine m.data.toList)) := by
    rw [← trimChars_cons_space (c := ' ') (by decide)]
    exact fieldOf_append "data:".toList (' ' :: firstLine m.data.toList)
  rw [written_eq (c := 'd') (by simp) (by decide) (by decide), hevent,
    fieldsOf_append (by decide), hdata]
  rfl

end Read

/-! ## When a message comes back -/

theorem appendData_eq_nil_iff {data value : List Char} :
    appendData data value = [] ↔ data = [] ∧ value = [] := by
  cases data <;> simp [appendData]

theorem foldl_appendData_eq_nil_iff {values : List (List Char)} {data : List Char} :
    values.foldl appendData data = [] ↔ data = [] ∧ ∀ v ∈ values, v = [] := by
  induction values generalizing data with
  | nil => simp
  | cons v values ih => rw [List.foldl_cons, ih, appendData_eq_nil_iff, List.forall_mem_cons, and_assoc]

theorem length_trimChars_le (t : List Char) : (trimChars t).length ≤ t.length := by
  rw [trimChars, List.length_reverse]
  refine (List.dropWhile_suffix isWhitespace).length_le.trans ?_
  rw [List.length_reverse]
  exact (List.dropWhile_suffix isWhitespace).length_le

theorem length_appendData_le (data value : List Char) :
    (appendData data value).length ≤ data.length + value.length + 1 := by
  unfold appendData
  split
  · simp
  · simp
    omega

/-- Each line adds less to the data than it is long, for its name is left out. -/
theorem length_foldl_appendData_le (lines : List (List Char)) (data : List Char) :
    ((lines.filterMap (fieldOf "data:".toList)).foldl appendData data).length
      ≤ data.length + (lines.map List.length).sum := by
  induction lines generalizing data with
  | nil => simp
  | cons line lines ih =>
      rw [List.filterMap_cons, List.map_cons, List.sum_cons]
      cases hfield : fieldOf "data:".toList line with
      | none => exact (ih data).trans (by omega)
      | some value =>
          have hvalue : value.length + 5 ≤ line.length := by
            unfold fieldOf at hfield
            split at hfield
            · rename_i hprefix
              obtain ⟨rest, rfl⟩ := hprefix
              rw [List.drop_left] at hfield
              obtain rfl := Option.some.inj hfield
              have hname : "data:".toList.length = 5 := by simp
              have htrim := length_trimChars_le rest
              rw [List.length_append, hname]
              omega
            · cases hfield
          have hrest := ih (appendData data value)
          have happend := length_appendData_le data value
          rw [List.foldl_cons]
          omega

namespace SseMessage

variable {m : SseMessage}

/-- The data is one line that is not empty and has no spaces around it. The lines of the id after
its first, if there are any, hold no data, and the last event they name is the message's. -/
structure Clean (m : SseMessage) : Prop where
  oneLine : '\n' ∉ m.data.toList
  nonempty : m.data.toList ≠ []
  trimmed : trimChars m.data.toList = m.data.toList
  idData : ∀ v ∈ m.idLines.filterMap (fieldOf "data:".toList), v = []
  event : ((m.event.map fun event => trimChars event.toList).toList
    ++ m.idLines.filterMap (fieldOf "event:".toList)).getLast? = m.event.map String.toList

/-- Data and id are both torn apart, and what is read from their lines happens to be the event and the
data. -/
structure Coincides (m : SseMessage) : Prop where
  dataTorn : '\n' ∈ m.data.toList
  idTorn : ∃ id ∈ m.id, '\n' ∈ id.toList
  data : joinData (m.idLines.filterMap (fieldOf "data:".toList)
    ++ trimChars (firstLine m.data.toList) :: m.dataLines.filterMap (fieldOf "data:".toList))
      = m.data.toList
  event : ((m.event.map fun event => trimChars event.toList).toList
    ++ m.idLines.filterMap (fieldOf "event:".toList)
    ++ m.dataLines.filterMap (fieldOf "event:".toList)).getLast? = m.event.map String.toList

/-- An id of one line has no other lines. -/
theorem idLines_eq_nil (h : ∀ id ∈ m.id, '\n' ∉ id.toList) : m.idLines = [] := by
  unfold idLines
  cases hid : m.id with
  | none => rfl
  | some id => exact continuation_of_not_mem (h id hid)

/-- Data with a line feed is read shorter, unless the id adds to it. -/
theorem joinData_ne_of_torn (htorn : '\n' ∈ m.data.toList) :
    joinData (trimChars (firstLine m.data.toList) :: m.dataLines.filterMap (fieldOf "data:".toList))
      ≠ m.data.toList := by
  intro h
  have hlength := congrArg List.length h
  have hread := length_foldl_appendData_le m.dataLines
    (appendData [] (trimChars (firstLine m.data.toList)))
  have hfirst := length_trimChars_le (firstLine m.data.toList)
  have hlines := length_eq_lines m.data.toList
  have hpos : 0 < m.dataLines.length := List.length_pos_iff.mpr (continuation_ne_nil htorn)
  have hsum : (m.dataLines.map fun l => l.length + 1).sum
      = (m.dataLines.map List.length).sum + m.dataLines.length := by
    rw [List.sum_map_add, List.map_const', List.sum_replicate, smul_eq_mul, mul_one]
  have hstart : (appendData [] (trimChars (firstLine m.data.toList))).length
      = (trimChars (firstLine m.data.toList)).length := rfl
  rw [joinData, List.foldl_cons] at hlength
  rw [show continuation m.data.toList = m.dataLines from rfl] at hlines
  omega

/-- Data of one line is read back exactly when it is trimmed and the id adds nothing to it. -/
theorem joinData_eq_iff_of_oneLine (h : '\n' ∉ m.data.toList)
    (values : List (List Char)) :
    joinData (values ++ [trimChars m.data.toList]) = m.data.toList
      ↔ trimChars m.data.toList = m.data.toList ∧ ∀ v ∈ values, v = [] := by
  have hvalues : (∀ v ∈ values, v = []) ↔ joinData values = [] := by
    rw [joinData, foldl_appendData_eq_nil_iff]
    simp
  rw [hvalues, joinData, List.foldl_append]
  change appendData (joinData values) (trimChars m.data.toList) = _ ↔ _
  constructor
  · intro heq
    by_cases hnil : joinData values = []
    · rw [hnil] at heq
      exact ⟨heq, hnil⟩
    · exfalso
      apply h
      rw [← heq, appendData, if_neg (by simpa using hnil)]
      simp
  · rintro ⟨htrim, hnil⟩
    rw [hnil]
    exact htrim

end SseMessage

/-- Event and data of a message whose event is one line come back exactly when its data is one
trimmed line, not empty, its event is trimmed and its id says nothing more; or else by
coincidence, where data and id are both torn apart. -/
theorem toSse_round_trip_iff (m : SseMessage) (h : ∀ event ∈ m.event, '\n' ∉ event.toList) :
    m.RoundTrips ↔ m.Clean ∨ m.Coincides := by
  rw [roundTrips_iff, written_event h, written_data h]
  by_cases htorn : '\n' ∈ m.data.toList
  · have hne : m.data.toList ≠ [] := List.ne_nil_of_mem htorn
    constructor
    · rintro ⟨-, hevent, hdata⟩
      refine .inr ⟨htorn, ?_, hdata, hevent⟩
      by_contra hid
      push Not at hid
      rw [m.idLines_eq_nil hid] at hdata
      exact SseMessage.joinData_ne_of_torn htorn hdata
    · rintro (hclean | hcoincides)
      · exact absurd htorn hclean.oneLine
      · exact ⟨hne, hcoincides.event, hcoincides.data⟩
  · have hlines : m.dataLines = [] := continuation_of_not_mem htorn
    rw [hlines, firstLine_of_not_mem htorn, List.filterMap_nil, List.filterMap_nil, List.append_nil]
    constructor
    · rintro ⟨hne, hevent, hdata⟩
      obtain ⟨htrim, hid⟩ := (SseMessage.joinData_eq_iff_of_oneLine htorn _).mp hdata
      exact .inl ⟨htorn, hne, htrim, hid, hevent⟩
    · rintro (hclean | hcoincides)
      · exact ⟨hclean.nonempty, hclean.event,
          (SseMessage.joinData_eq_iff_of_oneLine htorn _).mpr
            ⟨hclean.trimmed, hclean.idData⟩⟩
      · exact absurd hcoincides.dataTorn htorn

namespace Sample

/-- A text of two lines. -/
def twoLines : SseMessage := { event := some "message", data := "line 1\nline 2" }

theorem twoLines_event (event : String) (h : event ∈ twoLines.event) : '\n' ∉ event.toList := by
  obtain rfl : "message" = event := Option.some.inj h
  decide

end Sample

/-- Of two lines, the first comes back. -/
theorem second_line_lost :
    SseMessage.parse Sample.twoLines.toSse = some { event := some "message", data := "line 1" }
      ∧ ¬ Sample.twoLines.RoundTrips := by
  have hparse : SseMessage.parse Sample.twoLines.toSse
      = some { event := some "message", data := "line 1" } := by
    decide
  refine ⟨hparse, ?_⟩
  rintro ⟨m', hm', -, hdata⟩
  rw [hparse] at hm'
  obtain rfl := Option.some.inj hm'
  exact absurd hdata (by decide)

theorem toSse_round_trip_sample :
    Sample.twoLines.RoundTrips ↔ Sample.twoLines.Clean ∨ Sample.twoLines.Coincides :=
  toSse_round_trip_iff Sample.twoLines Sample.twoLines_event

end AuraGateway.Types
