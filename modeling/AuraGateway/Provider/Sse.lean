import AuraGateway.Foundations.Framing
import AuraGateway.Foundations.PolledStream
import AuraGateway.Standard.RustStd
import AuraGateway.Standard.Utf8
import Mathlib.Data.List.Forall2

/-!
# Helpers shared by the provider stream transformers

Every provider streams bytes and its transformer reads them line by line. A network chunk can
end in the middle of a character; `pushUtf8` keeps the trailing incomplete bytes until the
next chunk arrives. Chunks and lines are the two scanners of a polled stream (`utf8Decoder`,
`lineScanner`); a line is data, the end marker or nothing (`readLine`).
-/

set_option autoImplicit false

namespace AuraGateway.Provider

open AuraGateway.Foundations AuraGateway.RustStd

universe u

/-! ## Bytes -/

/-- The loop of `push_utf8` over the bytes that are left. -/
def pushUtf8Loop (buffer : List Char) (rest : List UInt8) : List Char × List UInt8 :=
  match h : fromUtf8 rest with
  | .ok s => (buffer ++ s, [])
  | .error e =>
      let valid := (fromUtf8 (rest.take e.validUpTo)).toOption.getD []
      match h' : e.errorLen with
      -- an incomplete sequence at the end: wait for more bytes
      | none => (buffer ++ valid, rest.drop e.validUpTo)
      -- invalid bytes: replace and keep going
      | some bad =>
          have := length_after_invalid h h'
          pushUtf8Loop (buffer ++ valid ++ [replacement]) (rest.drop (e.validUpTo + bad))
termination_by rest.length
decreasing_by exact this

/-- Append `bytes` to `buffer`, carrying an incomplete trailing UTF-8 sequence over in
`pending` until the rest of it arrives. -/
def pushUtf8 (buffer : List Char) (pending bytes : List UInt8) : List Char × List UInt8 :=
  pushUtf8Loop buffer (if pending.isEmpty then bytes else pending ++ bytes)

theorem pushUtf8Loop_eq (buffer : List Char) (rest : List UInt8) :
    pushUtf8Loop buffer rest
      = (buffer ++ (utf8Scanner.drain rest).1, (utf8Scanner.drain rest).2) := by
  fun_induction pushUtf8Loop buffer rest with
  | case1 buffer rest s h => rw [drain_of_fromUtf8_ok h]
  | case2 buffer rest e h valid h' =>
      obtain ⟨t, ht, hdrain, hafter⟩ := of_fromUtf8_error h
      have hvalid : valid = t := by simp [valid, ht, Except.toOption]
      rw [h'] at hafter
      rw [hvalid, hdrain, Scanner.drain_of_none (utf8Scan_incomplete hafter), List.append_nil]
  | case3 buffer rest e h valid bad h' _ ih =>
      obtain ⟨t, ht, hdrain, hafter⟩ := of_fromUtf8_error h
      have hvalid : valid = t := by simp [valid, ht, Except.toOption]
      rw [h'] at hafter
      rw [ih, hvalid, hdrain, Scanner.drain_of_some (utf8Scan_invalid hafter), List.drop_drop,
        List.append_assoc, List.append_assoc, List.singleton_append]

/-- What is decoded does not depend on where the chunks end. -/
theorem pushUtf8_eq (buffer : List Char) (pending bytes : List UInt8) :
    pushUtf8 buffer pending bytes
      = (buffer ++ (utf8Scanner.drain (pending ++ bytes)).1,
        (utf8Scanner.drain (pending ++ bytes)).2) := by
  rw [pushUtf8, pushUtf8Loop_eq]
  cases pending with
  | nil => rfl
  | cons b pending => rfl

def utf8Decoder : PolledStream.Decoder UInt8 Char where
  toScanner := utf8Scanner
  push := pushUtf8
  push_eq := pushUtf8_eq

/-! ## Lines -/

theorem lineEnd_ne_nil : ['\n'] ≠ [] := List.cons_ne_nil _ _

/-- Text up to a line end. -/
def lineScanner : Scanner Char (List Char) where
  scan := Framing.splitFirst ['\n']
  length_of_scan h := Framing.length_of_splitFirst lineEnd_ne_nil h
  scan_append h m := Framing.splitFirst_append h m

/-- What a trimmed line says. -/
inductive SseLine where
  | skip
  | done
  | data (payload : String)
  deriving DecidableEq, Repr

/-- `strip_prefix("data: ")`. -/
def stripData (line : List Char) : Option String :=
  if "data: ".toList <+: line then some (String.ofList (line.drop 6)) else none

/-- Read a line of a stream that ends with `[DONE]`. -/
def readLine (line : List Char) : SseLine :=
  let line := trimChars line
  if line.isEmpty then .skip
  else if line = "data: [DONE]".toList then .done
  else
    match stripData line with
    | some payload => .data payload
    | none => .skip

/-- Read a line of a stream without an end marker. -/
def readData (line : List Char) : Option String :=
  let line := trimChars line
  if line.isEmpty then none else stripData line

/-- The lines of a body. -/
def bodyLines (body : List UInt8) : List (List Char) :=
  PolledStream.linesOf utf8Decoder lineScanner body

/-- Read a line as an event; `parse` is `serde_json::from_str`. -/
def readEvent {μ : Type} (parse : String → Option μ) (line : List Char) : Option μ :=
  (readData line).bind parse

/-- The events of a stream that comes in pieces. -/
def receivedEvents {μ : Type} (parse : String → Option μ) (pieces : List (List UInt8)) : List μ :=
  (bodyLines pieces.flatten).filterMap (readEvent parse)

theorem lineScanner_drain (ls : List (List Char)) (h : ∀ l ∈ ls, '\n' ∉ l) :
    lineScanner.drain (ls.flatMap fun l => l ++ ['\n']) = (ls, []) := by
  induction ls with
  | nil => exact Scanner.drain_of_none Scanner.scan_nil
  | cons l ls ih =>
      have hfirst : Framing.splitFirst ['\n'] ('\n' :: ls.flatMap fun l => l ++ ['\n'])
          = some ([], ls.flatMap fun l => l ++ ['\n']) := by
        have hpre : ['\n'] <+: '\n' :: ls.flatMap fun l => l ++ ['\n'] := List.prefix_append ['\n'] _
        rw [Framing.splitFirst, if_pos hpre]
        rfl
      have hscan : lineScanner.scan (l ++ '\n' :: ls.flatMap fun l => l ++ ['\n'])
          = some (l, ls.flatMap fun l => l ++ ['\n']) := by
        simp only [lineScanner]
        rw [Framing.splitFirst_append_of_not_mem (h l (List.mem_cons_self ..)), hfirst]
        simp
      rw [List.flatMap_cons, List.append_assoc, List.singleton_append, Scanner.drain_of_some hscan,
        ih fun l' hl' => h l' (List.mem_cons_of_mem l hl')]

/-! ## Sending -/

/-- The lines of a stream of payloads: each in a data line, closed by an empty line. -/
def sseLines (payloads : List String) : List (List Char) :=
  payloads.flatMap fun p => [("data: " ++ p).toList, []]

/-- Reading the lines of a stream is reading its payloads. -/
theorem filterMap_sseLines {μ : Type u} {read : List Char → Option μ} (hempty : read [] = none)
    (payloads : List String) :
    (sseLines payloads).filterMap read = payloads.filterMap fun p => read ("data: " ++ p).toList := by
  induction payloads with
  | nil => rfl
  | cons p payloads ih =>
      have hsplit : sseLines (p :: payloads) = ("data: " ++ p).toList :: [] :: sseLines payloads := rfl
      rw [hsplit, List.filterMap_cons, List.filterMap_cons, hempty, ih, List.filterMap_cons]

/-- The bytes of a stream of payloads. -/
def sseBody (payloads : List String) : List UInt8 :=
  ((sseLines payloads).flatMap fun l => l ++ ['\n']).flatMap String.utf8EncodeChar

/-- A stream of payloads is read line by line. -/
theorem bodyLines_sseBody {payloads : List String} (h : ∀ p ∈ payloads, '\n' ∉ p.toList) :
    bodyLines (sseBody payloads) = sseLines payloads := by
  have hlines : ∀ l ∈ sseLines payloads, '\n' ∉ l := by
    intro l hl
    obtain ⟨p, hp, hl⟩ := List.mem_flatMap.mp hl
    rcases List.mem_pair.mp hl with rfl | rfl
    · rw [String.toList_append, List.mem_append]
      rintro (hmem | hmem)
      · revert hmem
        decide
      · exact h p hp hmem
    · exact List.not_mem_nil
  rw [bodyLines, PolledStream.linesOf, sseBody]
  exact congrArg Prod.fst
    ((congrArg lineScanner.drain (congrArg Prod.fst (drain_encode _))).trans
      (lineScanner_drain _ hlines))

/-- The events that a server sends arrive, in whatever pieces. -/
theorem receivedEvents_of_payloads {μ : Type} {parse : String → Option μ}
    {pieces : List (List UInt8)} (sent : List (String × μ))
    (hline : ∀ q ∈ sent, '\n' ∉ q.1.toList
      ∧ RustStd.trimChars ("data: ".toList ++ q.1.toList) = "data: ".toList ++ q.1.toList
      ∧ parse q.1 = some q.2)
    (hpieces : pieces.flatten = sseBody (sent.map Prod.fst)) :
    receivedEvents parse pieces = sent.map Prod.snd := by
  have hno : ∀ p ∈ sent.map Prod.fst, '\n' ∉ p.toList := by
    intro p hp
    obtain ⟨q, hq, rfl⟩ := List.mem_map.mp hp
    exact (hline q hq).1
  rw [receivedEvents, hpieces, bodyLines_sseBody hno, filterMap_sseLines rfl, List.filterMap_map,
    ← List.filterMap_eq_map]
  refine List.filterMap_congr fun q hq => ?_
  obtain ⟨-, htrim, hparse⟩ := hline q hq
  rw [← String.toList_append] at htrim
  have hnonempty : ("data: " ++ q.1).toList.isEmpty = false := by
    rw [String.toList_append]
    rfl
  have hstrip : stripData ("data: " ++ q.1).toList = some q.1 := by
    rw [stripData, String.toList_append, if_pos (List.prefix_append _ _)]
    exact congrArg some (String.ofList_toList (s := q.1))
  simp only [Function.comp_apply, readEvent, readData, htrim, hnonempty, hstrip, Bool.false_eq_true,
    if_false, Option.bind_some, hparse]

/-! ## Payloads that a parser knows -/

/-- The first entry for a key is the only one. -/
theorem lookup_of_nodup {κ β : Type} [BEq κ] [LawfulBEq κ] {table : List (κ × β)}
    (h : (table.map Prod.fst).Nodup) {q : κ × β} (hq : q ∈ table) :
    table.lookup q.1 = some q.2 := by
  obtain ⟨front, back, rfl⟩ := List.append_of_mem hq
  rw [List.map_append, List.map_cons, List.nodup_append] at h
  refine List.lookup_eq_some_iff.mpr ⟨front, back, rfl, fun p hp => ?_⟩
  exact bne_iff_ne.mpr (h.2.2 p.1 (List.mem_map_of_mem hp) q.1 List.mem_cons_self).symm

section Known

variable {μ : Type} {sent : List (String × μ)} {chars : List (List Char)}

/-- Payloads by their characters: no two are the same, and each is one line that a brace closes. -/
structure KnownPayloads (sent : List (String × μ)) (chars : List (List Char)) : Prop where
  texts : List.Forall₂ (fun q cs => q.1 = String.ofList cs) sent chars
  oneLine : ∀ cs ∈ chars, '\n' ∉ cs
  closed : ∀ cs ∈ chars, cs.getLast? = some '}'
  distinct : chars.Nodup

/-- A text that is written in two parts. -/
theorem append_eq_ofList {a b : String} {cs ds : List Char} (ha : a = String.ofList cs)
    (hb : b = String.ofList ds) : a ++ b = String.ofList (cs ++ ds) := by
  rw [ha, hb, String.ofList_append]

/-- A line with a payload that a brace closes has no space around it. -/
theorem trimChars_data {cs : List Char} (hlast : cs.getLast? = some '}') :
    trimChars ("data: ".toList ++ cs) = "data: ".toList ++ cs := by
  obtain ⟨inner, rfl⟩ := List.getLast?_eq_some_iff.mp hlast
  have hfront : ("data: ".toList ++ (inner ++ ['}'])).dropWhile isWhitespace
      = "data: ".toList ++ (inner ++ ['}']) := List.dropWhile_cons_of_neg (by decide)
  rw [trimChars, hfront, ← List.append_assoc, List.reverse_append, List.reverse_singleton,
    List.singleton_append, List.dropWhile_cons_of_neg (by decide), List.reverse_cons,
    List.reverse_reverse]

theorem eq_map_ofList {texts : List String}
    (h : List.Forall₂ (fun p cs => p = String.ofList cs) texts chars) :
    texts = chars.map String.ofList := by
  rw [← List.forall₂_eq_eq_eq, List.forall₂_map_right_iff]
  exact h

theorem KnownPayloads.map_fst (h : KnownPayloads sent chars) :
    sent.map Prod.fst = chars.map String.ofList :=
  eq_map_ofList (List.forall₂_map_left_iff.mpr h.texts)

theorem KnownPayloads.toList_mem (h : KnownPayloads sent chars) {q : String × μ} (hq : q ∈ sent) :
    q.1.toList ∈ chars := by
  have hmem : q.1 ∈ sent.map Prod.fst := List.mem_map_of_mem hq
  rw [h.map_fst] at hmem
  obtain ⟨cs, hcs, heq⟩ := List.mem_map.mp hmem
  rwa [← heq, String.toList_ofList]

/-- A payload is parsed to what it was sent with. -/
theorem KnownPayloads.lookup (h : KnownPayloads sent chars) {q : String × μ} (hq : q ∈ sent) :
    sent.lookup q.1 = some q.2 := by
  refine lookup_of_nodup ?_ hq
  rw [h.map_fst]
  exact h.distinct.map fun _ _ heq => String.ofList_injective heq

theorem KnownPayloads.received (h : KnownPayloads sent chars) {pieces : List (List UInt8)}
    (hpieces : pieces.flatten = sseBody (sent.map Prod.fst)) :
    receivedEvents (fun p => sent.lookup p) pieces = sent.map Prod.snd := by
  refine receivedEvents_of_payloads sent (fun q hq => ?_) hpieces
  exact ⟨h.oneLine _ (h.toList_mem hq), trimChars_data (h.closed _ (h.toList_mem hq)), h.lookup hq⟩

end Known

end AuraGateway.Provider
