import AuraGateway.Foundations.Framing
import AuraGateway.Standard.RustStd

/-!
# Cursors of the decisions explorer

The cursor `<created_at unix micros>_<decision id>`. Decoding undoes encoding
(`decode_encode`): the digits of the timestamp contain no separator, and a timestamp is its
microseconds.
-/

set_option autoImplicit false

namespace AuraGateway.Decisions

open AuraGateway.Foundations AuraGateway.RustStd

/-! ## Values -/

/-- `DateTime::MIN_UTC`, the first microsecond of the year -262143. -/
def minMicros : Int := -8334601228800000000

/-- `DateTime::MAX_UTC`, the last microsecond of the year 262142. -/
def maxMicros : Int := 8210266876799999999

/-- A timestamp in microseconds. -/
abbrev DateTime := {micros : Int // minMicros ≤ micros ∧ micros ≤ maxMicros}

/-- `Utc.timestamp_micros(..).single()`. -/
def DateTime.fromMicros (micros : Int) : Option DateTime :=
  if h : minMicros ≤ micros ∧ micros ≤ maxMicros then some ⟨micros, h⟩ else none

/-- The bits of a UUID, in the order in which bytes are compared. -/
abbrev Uuid := Fin (2 ^ 128)

/-- The last `width` hexadecimal digits. -/
def hexChars : Nat → Nat → List Char
  | 0, _ => []
  | width + 1, n => hexChars width (n / 16) ++ [Nat.digitChar (n % 16)]

/-- The hyphenated form. -/
def Uuid.toText (id : Uuid) : String :=
  let h := hexChars 32 id.val
  String.ofList (h.take 8 ++ '-' :: ((h.drop 8).take 4 ++ '-' :: ((h.drop 12).take 4
    ++ '-' :: ((h.drop 16).take 4 ++ '-' :: h.drop 20))))

/-! ## Integers -/

def inI64 (n : Int) : Bool := -2 ^ 63 ≤ n && n < 2 ^ 63

/-- A row of decimal digits. -/
def parseDigits (s : List Char) : Option Nat :=
  if !s.isEmpty && s.all Char.isDigit then some (Nat.ofDigitChars 10 s 0) else none

/-- `str::parse::<i64>`: a sign, and digits that stay in range. -/
def parseI64 (s : List Char) : Option Int :=
  let n : Option Int :=
    match s with
    | '-' :: digits => (parseDigits digits).map fun n : Nat => -(n : Int)
    | '+' :: digits => (parseDigits digits).map Int.ofNat
    | digits => (parseDigits digits).map Int.ofNat
  n.filter inI64

theorem parseDigits_repr (n : Nat) : parseDigits n.repr.toList = some n := by
  have hall : (Nat.toDigits 10 n).all Char.isDigit = true :=
    List.all_eq_true.mpr fun c hc => Nat.isDigit_of_mem_toDigits (by decide) (by decide) hc
  have hne : (Nat.toDigits 10 n).isEmpty = false := by
    cases h : Nat.toDigits 10 n with
    | nil => exact absurd h Nat.toDigits_ne_nil
    | cons c cs => rfl
  rw [Nat.toList_repr, parseDigits, hall, hne, Nat.ofDigitChars_ten_toDigits]
  rfl

/-- The text of an integer: a sign if it is negative, and digits. -/
theorem toList_toString (n : Int) :
    (toString n).toList = (if n < 0 then ['-'] else []) ++ n.natAbs.repr.toList := by
  rw [Int.toString_eq_repr]
  cases n with
  | ofNat m => simp [Int.repr]
  | negSucc m => simp [Int.repr, Int.negSucc_lt_zero]

theorem parseI64_toString {n : Int} (h : inI64 n = true) :
    parseI64 (toString n).toList = some n := by
  rw [toList_toString]
  by_cases hneg : n < 0
  · rw [if_pos hneg]
    have habs : -(n.natAbs : Int) = n := by omega
    simp only [parseI64, List.singleton_append, parseDigits_repr, Option.map_some, habs]
    rw [Option.filter_some, if_pos h]
  · rw [if_neg hneg, List.nil_append]
    have habs : Int.ofNat n.natAbs = n := by simp; omega
    -- the first character is a digit, so it is no sign
    obtain ⟨c, cs, hcons⟩ := List.exists_cons_of_ne_nil
      (show n.natAbs.repr.toList ≠ [] by rw [Nat.toList_repr]; exact Nat.toDigits_ne_nil)
    have hdigit : c.isDigit = true := by
      refine Nat.isDigit_of_mem_toDigits (b := 10) (n := n.natAbs) (by decide) (by decide) ?_
      rw [← Nat.toList_repr, hcons]
      exact List.mem_cons_self ..
    have hdigits := parseDigits_repr n.natAbs
    rw [hcons] at hdigits ⊢
    rw [parseI64, hdigits, Option.map_some, habs, Option.filter_some, if_pos h]
    · rintro digits heq
      rw [(List.cons.inj heq).1] at hdigit
      exact absurd hdigit (by decide)
    · rintro digits heq
      rw [(List.cons.inj heq).1] at hdigit
      exact absurd hdigit (by decide)

/-! ## Cursors -/

/-- `encode_cursor`. -/
def encodeCursor (createdAt : DateTime) (id : Uuid) : String :=
  toString createdAt.val ++ "_" ++ id.toText

/-- `decode_cursor`; `parseUuid` is `Uuid::parse_str`. -/
def decodeCursor (parseUuid : String → Option Uuid) (cursor : String) : Option (DateTime × Uuid) := do
  let (micros, id) ← Framing.splitFirst ['_'] cursor.toList
  let micros ← parseI64 micros
  let ts ← DateTime.fromMicros micros
  let id ← parseUuid (String.ofList id)
  return (ts, id)

theorem inI64_micros (t : DateTime) : inI64 t.val = true := by
  obtain ⟨micros, hmin, hmax⟩ := t
  simp only [minMicros, maxMicros] at hmin hmax
  simp only [inI64, Bool.and_eq_true, decide_eq_true_eq]
  omega

theorem underscore_not_mem_toString (n : Int) : '_' ∉ (toString n).toList := by
  rw [toList_toString, List.mem_append, not_or]
  constructor
  · split
    · decide
    · exact List.not_mem_nil
  · rw [Nat.toList_repr]
    exact Nat.underscore_not_in_toDigits

/-- Decoding undoes encoding. -/
theorem decode_encode {parseUuid : String → Option Uuid}
    (huuid : ∀ id : Uuid, parseUuid id.toText = some id) (createdAt : DateTime) (id : Uuid) :
    decodeCursor parseUuid (encodeCursor createdAt id) = some (createdAt, id) := by
  have hsplit : Framing.splitFirst ['_'] (encodeCursor createdAt id).toList
      = some ((toString createdAt.val).toList, id.toText.toList) := by
    have hsep : Framing.splitFirst ['_'] ('_' :: id.toText.toList) = some ([], id.toText.toList) := by
      have hprefix : ['_'] <+: '_' :: id.toText.toList := List.prefix_append ['_'] _
      rw [Framing.splitFirst, if_pos hprefix]
      rfl
    rw [encodeCursor, String.toList_append, String.toList_append, List.append_assoc]
    change Framing.splitFirst ['_'] ((toString createdAt.val).toList ++ '_' :: id.toText.toList) = _
    rw [Framing.splitFirst_append_of_not_mem (underscore_not_mem_toString _), hsep]
    simp
  have hmicros : DateTime.fromMicros createdAt.val = some createdAt := dif_pos createdAt.property
  simp only [decodeCursor, hsplit, Option.bind_eq_bind, Option.bind_some,
    parseI64_toString (inI64_micros createdAt), hmicros, String.ofList_toList, huuid]
  rfl

/-! ## Cursors as query values -/

theorem trimChars_eq_self {s : List Char} (h : ∀ c ∈ s, isWhitespace c = false) :
    trimChars s = s := by
  have hdrop : ∀ l : List Char, (∀ c ∈ l, isWhitespace c = false) → l.dropWhile isWhitespace = l := by
    intro l hl
    cases l with
    | nil => rfl
    | cons c l => rw [List.dropWhile_cons, hl c (List.mem_cons_self ..), if_neg Bool.false_ne_true]
  rw [trimChars, hdrop s h, hdrop s.reverse (fun c hc => h c (List.mem_reverse.mp hc)),
    List.reverse_reverse]

theorem hexDigit_not_whitespace (n : Nat) : isWhitespace (Nat.digitChar (n % 16)) = false := by
  have hlt : n % 16 < 16 := Nat.mod_lt _ (by decide)
  revert hlt
  generalize n % 16 = d
  intro hlt
  interval_cases d <;> decide

theorem hexChars_not_whitespace (width n : Nat) : ∀ c ∈ hexChars width n, isWhitespace c = false := by
  induction width generalizing n with
  | zero => exact fun c hc => absurd hc List.not_mem_nil
  | succ width ih =>
      intro c hc
      rcases List.mem_append.mp hc with hc | hc
      · exact ih _ c hc
      · rw [List.mem_singleton.mp hc]
        exact hexDigit_not_whitespace n

theorem toText_not_whitespace (id : Uuid) : ∀ c ∈ id.toText.toList, isWhitespace c = false := by
  have hdash : isWhitespace '-' = false := by decide
  have hhex := hexChars_not_whitespace 32 id.val
  intro c hc
  rw [Uuid.toText, String.toList_ofList] at hc
  simp only [List.mem_append, List.mem_cons] at hc
  rcases hc with hc | rfl | hc | rfl | hc | rfl | hc | rfl | hc
  · exact hhex c (List.mem_of_mem_take hc)
  · exact hdash
  · exact hhex c (List.mem_of_mem_drop (List.mem_of_mem_take hc))
  · exact hdash
  · exact hhex c (List.mem_of_mem_drop (List.mem_of_mem_take hc))
  · exact hdash
  · exact hhex c (List.mem_of_mem_drop (List.mem_of_mem_take hc))
  · exact hdash
  · exact hhex c (List.mem_of_mem_drop hc)

theorem digit_not_whitespace {c : Char} (h : c.isDigit = true) : isWhitespace c = false := by
  rw [Char.isDigit, Bool.and_eq_true, decide_eq_true_eq, decide_eq_true_eq] at h
  obtain ⟨hmin, hmax⟩ := h
  have hlo : 48 ≤ c.toNat := by simpa [UInt32.le_iff_toNat_le] using hmin
  have hhi : c.toNat ≤ 57 := by simpa [UInt32.le_iff_toNat_le] using hmax
  have hcases : c.toNat = 48 ∨ c.toNat = 49 ∨ c.toNat = 50 ∨ c.toNat = 51 ∨ c.toNat = 52
      ∨ c.toNat = 53 ∨ c.toNat = 54 ∨ c.toNat = 55 ∨ c.toNat = 56 ∨ c.toNat = 57 := by omega
  simp only [isWhitespace]
  rcases hcases with h | h | h | h | h | h | h | h | h | h <;> rw [h] <;> decide

/-- A cursor is not changed by trimming. -/
theorem trimChars_encodeCursor (createdAt : DateTime) (id : Uuid) :
    trimChars (encodeCursor createdAt id).toList = (encodeCursor createdAt id).toList := by
  refine trimChars_eq_self fun c hc => ?_
  rw [encodeCursor, String.toList_append, String.toList_append, toList_toString] at hc
  simp only [List.mem_append] at hc
  rcases hc with ((hc | hc) | hc) | hc
  · split at hc
    · rw [List.mem_singleton.mp hc]
      decide
    · exact absurd hc List.not_mem_nil
  · rw [Nat.toList_repr] at hc
    exact digit_not_whitespace (Nat.isDigit_of_mem_toDigits (by decide) (by decide) hc)
  · rw [List.mem_singleton.mp (show c ∈ ['_'] from hc)]
    decide
  · exact toText_not_whitespace id c hc

end AuraGateway.Decisions
