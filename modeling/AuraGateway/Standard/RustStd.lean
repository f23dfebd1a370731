import AuraGateway.Foundations.FloatOrder

/-!
# Standard-library operations of the source

The gateway is written in Rust. This file gives the few operations of the
Rust standard library that its routing code calls: panicking evaluation, string
trimming, ASCII lowering and substring search, the operations on `f64` that the
logical model of `Float` does not name, fixed-precision formatting, and the
ordered map used for recorded signals.

Strings are scanned as lists of characters. Offsets count characters where the
source counts bytes; every offset the source computes is a character boundary,
and two boundaries of one string compare alike in either unit.
-/

set_option autoImplicit false

namespace AuraGateway.RustStd

open AuraGateway.Foundations.FloatOrder

universe u v

/-! ## Panics -/

/-- Panics of the modelled functions: slicing `start..stop` out of order. -/
inductive Panic where
  | slice (start stop : Nat)
  deriving DecidableEq, Repr

/-- Result of code that may panic. -/
abbrev Checked (α : Type u) := Except Panic α

theorem except_bind_eq_ok {ε : Type v} {α β : Type u} {x : Except ε α} {f : α → Except ε β}
    {b : β} : (x >>= f) = .ok b ↔ ∃ a, x = .ok a ∧ f a = .ok b := by
  cases x with
  | error p => simp [Bind.bind, Except.bind]
  | ok a => simp [Bind.bind, Except.bind]

/-- Behind a guard that returns an error, the rest succeeded and the guard was passed. -/
theorem except_guard_eq_ok {ε : Type v} {α : Type u} {c : Prop} [Decidable c] {e : ε}
    {x : Except ε α} {a : α} : (if c then .error e else x) = .ok a ↔ ¬ c ∧ x = .ok a := by
  by_cases hc : c
  · simp [hc]
  · simp [hc]

theorem checked_bind_eq_ok {α β : Type u} {x : Checked α} {f : α → Checked β} {b : β} :
    (x >>= f) = .ok b ↔ ∃ a, x = .ok a ∧ f a = .ok b :=
  except_bind_eq_ok

@[simp] theorem checked_ok_bind {α β : Type u} (a : α) (f : α → Checked β) :
    ((.ok a : Checked α) >>= f) = f a := rfl

@[simp] theorem checked_pure_eq_ok {α : Type u} (a : α) : (pure a : Checked α) = .ok a := rfl

theorem checked_some_inj {α : Type u} {a b : α} :
    (.ok (some a) : Checked (Option α)) = .ok (some b) ↔ a = b := by
  simp

/-- One step of a short-circuiting search. -/
theorem anyM_cons {α : Type u} (p : α → Checked Bool) (a : α) (l : List α) :
    (a :: l).anyM p = p a >>= fun b => match b with
      | true => .ok true
      | false => l.anyM p := rfl

/-- A short-circuiting search answers `false` only after asking every element. -/
theorem anyM_eq_ok_false {α : Type u} {p : α → Checked Bool} :
    ∀ {l : List α}, l.anyM p = .ok false ↔ ∀ a ∈ l, p a = .ok false
  | [] => by simp [List.anyM]
  | a :: l => by
      rw [anyM_cons, checked_bind_eq_ok, List.forall_mem_cons, ← anyM_eq_ok_false (l := l)]
      constructor
      · rintro ⟨b, hb, hl⟩
        cases b with
        | true => simp at hl
        | false => exact ⟨hb, hl⟩
      · rintro ⟨hb, hl⟩
        exact ⟨false, hb, hl⟩

/-- A short-circuiting search that answers `true` stopped at an element that says so. -/
theorem exists_of_anyM_eq_ok_true {α : Type u} {p : α → Checked Bool} :
    ∀ {l : List α}, l.anyM p = .ok true → ∃ a ∈ l, p a = .ok true
  | [], h => by simp [List.anyM] at h
  | a :: l, h => by
      rw [anyM_cons, checked_bind_eq_ok] at h
      obtain ⟨b, hb, hl⟩ := h
      cases b with
      | true => exact ⟨a, List.mem_cons_self, hb⟩
      | false =>
          obtain ⟨x, hx, hpx⟩ := exists_of_anyM_eq_ok_true hl
          exact ⟨x, List.mem_cons_of_mem a hx, hpx⟩

/-! ## Text -/

/-- `char::is_whitespace`: the Unicode property `White_Space`. -/
def isWhitespace (c : Char) : Bool :=
  let n := c.toNat
  (0x0009 ≤ n && n ≤ 0x000D) || n == 0x0020 || n == 0x0085 || n == 0x00A0 || n == 0x1680
    || (0x2000 ≤ n && n ≤ 0x200A) || n == 0x2028 || n == 0x2029 || n == 0x202F
    || n == 0x205F || n == 0x3000

/-- `str::trim` on characters. -/
def trimChars (t : List Char) : List Char :=
  ((t.dropWhile isWhitespace).reverse.dropWhile isWhitespace).reverse

/-- `str::trim`. -/
def trim (s : String) : String := String.ofList (trimChars s.toList)

/-- `str::to_ascii_lowercase`. -/
def toAsciiLowercase (s : String) : String := String.ofList (s.toList.map Char.toLower)

/-- `str::find` for a substring: the first offset at which `pat` occurs. -/
def find {α : Type u} [BEq α] (pat : List α) : List α → Option Nat
  | [] => if pat.isEmpty then some 0 else none
  | c :: cs => if pat.isPrefixOf (c :: cs) then some 0 else (find pat cs).map (· + 1)

/-- `str::contains` for a substring. -/
def contains (t pat : List Char) : Bool := (find pat t).isSome

/-- Number of non-overlapping occurrences of `pat`, scanning left to right
(`str::matches(pat).count()`); `skip` characters of the last occurrence are
still to be passed over. -/
def countMatchesFrom (pat : List Char) : Nat → List Char → Nat
  | _, [] => 0
  | skip + 1, _ :: cs => countMatchesFrom pat skip cs
  | 0, c :: cs =>
      if pat.isPrefixOf (c :: cs) then 1 + countMatchesFrom pat (pat.length - 1) cs
      else countMatchesFrom pat 0 cs

/-- `str::matches(pat).count()` for a non-empty pattern. -/
def countMatches (pat t : List Char) : Nat := countMatchesFrom pat 0 t

/-- `&text[start..stop]`. -/
def slice {α : Type u} (t : List α) (start stop : Nat) : Checked (List α) :=
  if start ≤ stop ∧ stop ≤ t.length then .ok ((t.take stop).drop start)
  else .error (.slice start stop)

/-! ## Doubles -/

/-- `f64::min`: the other argument when one is `NaN`. -/
def f64Min (a b : Float) : Float :=
  if a.isNaN then b else if b.isNaN then a else if b < a then b else a

/-- The smaller of two numbers is not above the second. -/
theorem f64Min_le_right {a b : Float} (hb : b.isNaN = false) : f64Min a b ≤ b := by
  simp only [f64Min]
  -- the minimum passes over `NaN`
  by_cases ha : a.isNaN = true
  · rw [if_pos ha]
    exact float_le_refl hb
  · rw [if_neg ha, hb, if_neg Bool.false_ne_true]
    by_cases hlt : b < a
    · rw [if_pos hlt]
      exact float_le_refl hb
    · rw [if_neg hlt]
      exact float_le_of_not_lt (by simpa using ha) hb hlt

/-- `f64::max`: the other argument when one is `NaN`. -/
def f64Max (a b : Float) : Float :=
  if a.isNaN then b else if b.isNaN then a else if a < b then b else a

/-- `f64::clamp`; `NaN` is kept. -/
def f64Clamp (x lo hi : Float) : Float :=
  let x := if x < lo then lo else x
  if hi < x then hi else x

/-- `f64::round`: to the nearest integer, halfway cases away from zero. -/
def f64Round (x : Float) : Float :=
  match x.toModel.unpack with
  | .finite s m e _ =>
      if 0 ≤ e then x
      else
        let k := (-e).toNat
        let n : Float := .ofModel (.ofNat ((m + 2 ^ (k - 1)) / 2 ^ k))
        match s with
        | .negative => -n
        | .positive => n
  | _ => x

/-- `f64::EPSILON`. -/
def f64Epsilon : Float := 2.220446049250313e-16

/-- `f64::MAX`. -/
def f64MAX : Float := 1.7976931348623157e308

/-- Digits of `q / 10 ^ digits`, with exactly `digits` places after the point. -/
def showScaled (digits q : Nat) : String :=
  if digits = 0 then Nat.repr q
  else
    let frac := Nat.repr (q % 10 ^ digits)
    Nat.repr (q / 10 ^ digits) ++ "."
      ++ String.ofList (List.replicate (digits - frac.length) '0') ++ frac

/-- `m * 2 ^ e * 10 ^ digits` rounded to the nearest integer, ties to even. -/
def scaleHalfEven (digits m : Nat) (e : Int) : Nat :=
  if 0 ≤ e then m * 2 ^ e.toNat * 10 ^ digits
  else
    let num := m * 10 ^ digits
    let den := 2 ^ (-e).toNat
    let q := num / den
    let r := num % den
    if den < 2 * r ∨ (den = 2 * r ∧ q % 2 = 1) then q + 1 else q

/-- `format!("{:.digits$}", x)`: the exact value rounded to `digits` decimal
places; the sign of a negative zero is printed. -/
def formatFixed (digits : Nat) (x : Float) : String :=
  match x.toModel.unpack with
  | .notANumber => "NaN"
  | .infinity .positive => "inf"
  | .infinity .negative => "-inf"
  | .zero .positive => showScaled digits 0
  | .zero .negative => "-" ++ showScaled digits 0
  | .finite .positive m e _ => showScaled digits (scaleHalfEven digits m e)
  | .finite .negative m e _ => "-" ++ showScaled digits (scaleHalfEven digits m e)

example : formatFixed 2 0.125 = "0.12" ∧ formatFixed 5 (-1.5) = "-1.50000" := by
  decide +kernel

/-! ## Ordered maps -/

/-- `BTreeMap` with string keys: an association list in key order. -/
abbrev BTreeMap (α : Type u) := List (String × α)

/-- `BTreeMap::insert`: replaces the value of a present key. -/
def BTreeMap.insert {α : Type u} (k : String) (v : α) : BTreeMap α → BTreeMap α
  | [] => [(k, v)]
  | (k', v') :: m =>
      if k = k' then (k, v) :: m
      else if k < k' then (k, v) :: (k', v') :: m
      else (k', v') :: BTreeMap.insert k v m

end AuraGateway.RustStd
