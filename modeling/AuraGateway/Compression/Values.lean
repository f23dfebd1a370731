import Mathlib
import AuraGateway.Types.Request

/-!
# Values to be compressed

JSON values as the converters take them: the texts of numbers are those that `f64` parses, and the
fields of an object stand in the order of their keys. What holds everywhere in a value holds of
each of its parts (`Json.everywhere_array`, `Json.everywhere_object`).
-/

set_option autoImplicit false

namespace AuraGateway.Compression

open AuraGateway.Types

/-! ## Texts of numbers -/

def isExponent : List Char → Bool
  | [] => true
  | c :: s =>
      let digits := if s.head? = some '+' ∨ s.head? = some '-' then s.tail else s
      (c == 'e' || c == 'E') && !digits.isEmpty && digits.all Char.isDigit

/-- Digits with a point among them or not, and an exponent. -/
def isDecimal (s : List Char) : Bool :=
  let int := s.takeWhile Char.isDigit
  let rest := s.dropWhile Char.isDigit
  if rest.head? = some '.' then
    let fraction := rest.tail.takeWhile Char.isDigit
    !(int ++ fraction).isEmpty && isExponent (rest.tail.dropWhile Char.isDigit)
  else !int.isEmpty && isExponent rest

/-- `str::parse::<f64>` succeeds: a sign, and a decimal number or the name of what is no number. -/
def parsesF64 (s : List Char) : Bool :=
  let unsigned := if s.head? = some '+' ∨ s.head? = some '-' then s.tail else s
  isDecimal unsigned
    || (unsigned.map Char.toLower) ∈ ["nan".toList, "inf".toList, "infinity".toList]

/-- The text of a JSON number: it starts with a digit, behind a minus sign or not. -/
def isNumberText (s : List Char) : Bool :=
  let unsigned := if s.head? = some '-' then s.tail else s
  unsigned.head?.any Char.isDigit && isDecimal unsigned

theorem parsesF64_of_isNumberText {s : List Char} (h : isNumberText s = true) :
    parsesF64 s = true := by
  simp only [isNumberText, Bool.and_eq_true] at h
  obtain ⟨hhead, hdecimal⟩ := h
  have hunsigned : (if s.head? = some '+' ∨ s.head? = some '-' then s.tail else s)
      = if s.head? = some '-' then s.tail else s := by
    by_cases hminus : s.head? = some '-'
    · simp [hminus]
    · rw [if_neg hminus] at hhead
      have hplus : s.head? ≠ some '+' := by
        intro heq
        rw [heq] at hhead
        exact absurd hhead (by decide)
      simp [hminus, hplus]
  rw [parsesF64]
  simp only [hunsigned, hdecimal, Bool.true_or]

/-- A character of a number: a digit, a sign, a point or the mark of an exponent. -/
def isNumberChar (c : Char) : Bool :=
  c.isDigit || c == '+' || c == '-' || c == '.' || c == 'e' || c == 'E'

theorem isNumberChar_of_isDigit {c : Char} (h : c.isDigit = true) : isNumberChar c = true := by
  simp [isNumberChar, h]

theorem isNumberChar_of_mem_takeWhile {s : List Char} {c : Char}
    (h : c ∈ s.takeWhile Char.isDigit) : isNumberChar c = true :=
  isNumberChar_of_isDigit (List.mem_takeWhile_imp h)

theorem isNumberChar_of_isExponent {s : List Char} (h : isExponent s = true) :
    ∀ c ∈ s, isNumberChar c = true := by
  intro c hc
  cases s with
  | nil => cases hc
  | cons e s =>
      simp only [isExponent, Bool.and_eq_true, Bool.or_eq_true, beq_iff_eq, List.all_eq_true] at h
      obtain ⟨⟨he, -⟩, hdigits⟩ := h
      rcases List.mem_cons.mp hc with rfl | hc
      · rcases he with rfl | rfl <;> decide
      · split at hdigits
        · rename_i hsign
          cases s with
          | nil => cases hc
          | cons sign s =>
              rcases List.mem_cons.mp hc with rfl | hc
              · rcases hsign with hsign | hsign
                · obtain rfl := Option.some.inj hsign
                  decide
                · obtain rfl := Option.some.inj hsign
                  decide
              · exact isNumberChar_of_isDigit (hdigits c hc)
        · exact isNumberChar_of_isDigit (hdigits c hc)

theorem isNumberChar_of_isDecimal {s : List Char} (h : isDecimal s = true) :
    ∀ c ∈ s, isNumberChar c = true := by
  intro c hc
  rw [← List.takeWhile_append_dropWhile (p := Char.isDigit) (l := s)] at hc
  rcases List.mem_append.mp hc with hc | hc
  · exact isNumberChar_of_mem_takeWhile hc
  · simp only [isDecimal] at h
    split at h
    · rename_i hpoint
      rw [Bool.and_eq_true] at h
      obtain ⟨rest, hrest⟩ := List.head?_eq_some_iff.mp hpoint
      rw [hrest] at hc h
      rcases List.mem_cons.mp hc with rfl | hc
      · decide
      · rw [← List.takeWhile_append_dropWhile (p := Char.isDigit) (l := rest)] at hc
        rcases List.mem_append.mp hc with hc | hc
        · exact isNumberChar_of_mem_takeWhile hc
        · exact isNumberChar_of_isExponent h.2 c hc
    · rw [Bool.and_eq_true] at h
      exact isNumberChar_of_isExponent h.2 c hc

/-- The text of a number is made of the characters of numbers. -/
theorem isNumberChar_of_isNumberText {s : List Char} (h : isNumberText s = true) :
    ∀ c ∈ s, isNumberChar c = true := by
  intro c hc
  simp only [isNumberText, Bool.and_eq_true] at h
  obtain ⟨-, hdecimal⟩ := h
  split at hdecimal
  · rename_i hminus
    obtain ⟨rest, rfl⟩ := List.head?_eq_some_iff.mp hminus
    rcases List.mem_cons.mp hc with rfl | hc
    · decide
    · exact isNumberChar_of_isDecimal hdecimal c hc
  · exact isNumberChar_of_isDecimal hdecimal c hc

/-- It starts with a digit, or with a minus sign and a digit. -/
theorem head_of_isNumberText {s : List Char} (h : isNumberText s = true) :
    ∃ d t, d.isDigit = true ∧ (s = d :: t ∨ s = '-' :: d :: t) := by
  simp only [isNumberText, Bool.and_eq_true, Option.any_eq_true] at h
  obtain ⟨⟨d, hd, hdigit⟩, -⟩ := h
  split at hd
  · rename_i hminus
    obtain ⟨rest, rfl⟩ := List.head?_eq_some_iff.mp hminus
    obtain ⟨t, ht⟩ := List.head?_eq_some_iff.mp hd
    exact ⟨d, t, hdigit, .inr (congrArg _ ht)⟩
  · obtain ⟨t, ht⟩ := List.head?_eq_some_iff.mp hd
    exact ⟨d, t, hdigit, .inl ht⟩

/-! ## Parts of values -/

/-- Neither an array nor an object. -/
def isScalar : Json → Bool
  | .array _ | .object _ => false
  | _ => true

section Induction

variable {P : Json → Prop} (scalar : ∀ v, isScalar v = true → P v)
  (array : ∀ items, (∀ v ∈ items, P v) → P (.array items))
  (object : ∀ fields, (∀ f ∈ fields, P f.2) → P (.object fields))

include scalar array object

mutual

/-- What holds of scalars, and of arrays and objects when it does of what is in them, holds of every
value. -/
theorem value_induction : ∀ v, P v
  | .null => scalar _ rfl
  | .bool _ => scalar _ rfl
  | .number _ => scalar _ rfl
  | .string _ => scalar _ rfl
  | .array items => array items (items_induction items)
  | .object fields => object fields (fields_induction fields)

theorem items_induction : ∀ items : List Json, ∀ v ∈ items, P v
  | [] => by simp
  | v :: items => List.forall_mem_cons.mpr ⟨value_induction v, items_induction items⟩

theorem fields_induction : ∀ fields : List (String × Json), ∀ f ∈ fields, P f.2
  | [] => by simp
  | (_, v) :: fields => List.forall_mem_cons.mpr ⟨value_induction v, fields_induction fields⟩

end

end Induction

mutual

/-- A property holds of a value and of everything in it. -/
def everywhere (P : Json → Prop) : Json → Prop
  | .array items => P (.array items) ∧ everywhereItems P items
  | .object fields => P (.object fields) ∧ everywhereFields P fields
  | v => P v

def everywhereItems (P : Json → Prop) : List Json → Prop
  | [] => True
  | v :: items => everywhere P v ∧ everywhereItems P items

def everywhereFields (P : Json → Prop) : List (String × Json) → Prop
  | [] => True
  | (_, v) :: fields => everywhere P v ∧ everywhereFields P fields

end

section Everywhere

variable {P : Json → Prop} {v : Json} {items : List Json} {fields : List (String × Json)}

theorem everywhere_self (h : everywhere P v) : P v := by
  cases v <;> simp only [everywhere] at h
  case array => exact h.1
  case object => exact h.1
  all_goals exact h

theorem everywhereItems_iff : everywhereItems P items ↔ ∀ v ∈ items, everywhere P v := by
  induction items with
  | nil => simp [everywhereItems]
  | cons v items ih => rw [everywhereItems, ih, List.forall_mem_cons]

theorem everywhereFields_iff : everywhereFields P fields ↔ ∀ f ∈ fields, everywhere P f.2 := by
  induction fields with
  | nil => simp [everywhereFields]
  | cons f fields ih => rw [everywhereFields, ih, List.forall_mem_cons]

theorem everywhere_array :
    everywhere P (.array items) ↔ P (.array items) ∧ ∀ v ∈ items, everywhere P v := by
  rw [everywhere, everywhereItems_iff]

theorem everywhere_object :
    everywhere P (.object fields) ↔ P (.object fields) ∧ ∀ f ∈ fields, everywhere P f.2 := by
  rw [everywhere, everywhereFields_iff]

theorem everywhere_scalar (h : isScalar v = true) : everywhere P v ↔ P v := by
  cases v with
  | array items => cases h
  | object fields => cases h
  | null => rfl
  | bool b => rfl
  | number text => rfl
  | string s => rfl

/-- What follows from two properties holds wherever both do. -/
theorem everywhere_of_both {Q R : Json → Prop} (h : ∀ v, P v → Q v → R v) (hP : everywhere P v)
    (hQ : everywhere Q v) : everywhere R v := by
  induction v using value_induction with
  | scalar v hv =>
      rw [everywhere_scalar hv] at hP hQ ⊢
      exact h v hP hQ
  | array items ih =>
      rw [everywhere_array] at hP hQ ⊢
      exact ⟨h _ hP.1 hQ.1, fun v hv => ih v hv (hP.2 v hv) (hQ.2 v hv)⟩
  | object fields ih =>
      rw [everywhere_object] at hP hQ ⊢
      exact ⟨h _ hP.1 hQ.1, fun f hf => ih f hf (hP.2 f hf) (hQ.2 f hf)⟩

end Everywhere

/-- A number has the text of one, and an object its fields in the order of their keys. -/
def isPartOfValue : Json → Prop
  | .number text => isNumberText text.toList = true
  | .object fields => (fields.map Prod.fst).Pairwise (· < ·)
  | _ => True

/-- A value of the JSON library. -/
abbrev Value := {v : Json // everywhere isPartOfValue v}

end AuraGateway.Compression
