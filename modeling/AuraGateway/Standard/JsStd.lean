import Mathlib

/-!
# JavaScript operations of the scraper

The scraper is written in TypeScript. This file gives the operations of the JavaScript
standard library that its key functions call: trimming, lowercasing and the text of a
number. Strings are lists of characters.

Lowercasing follows the Unicode tables. A text is compared through its letters and digits
only, so the tables stay a parameter for the characters whose lowercase form has neither:
`CaseTable` says that they stay outside ASCII.
-/

set_option autoImplicit false

namespace AuraGateway.JsStd

/-! ## Trimming -/

/-- White space and line terminators. -/
def isWhitespace (c : Char) : Bool :=
  let n := c.toNat
  (0x0009 ≤ n && n ≤ 0x000D) || n == 0x0020 || n == 0x00A0 || n == 0x1680
    || (0x2000 ≤ n && n ≤ 0x200A) || n == 0x2028 || n == 0x2029 || n == 0x202F
    || n == 0x205F || n == 0x3000 || n == 0xFEFF

/-- `String.prototype.trim`. -/
def trim (s : List Char) : List Char :=
  ((s.dropWhile isWhitespace).reverse.dropWhile isWhitespace).reverse

/-! ## Lowercasing -/

/-- Lowercase forms of the characters outside ASCII, in their context. Two of them have an
ASCII letter in their lowercase form and are not looked up here. -/
structure CaseTable where
  other : List Char → Char → List Char → Char
  other_nonascii : ∀ before c after, 128 ≤ c.toNat → 128 ≤ (other before c after).toNat

/-- The table that leaves every other character alone. -/
def CaseTable.fixed : CaseTable := ⟨fun _ c _ => c, fun _ _ _ h => h⟩

/-- The lowercase form of one character. The Kelvin sign becomes `k`, and the capital I
with a dot becomes `i` with a combining dot. -/
def CaseTable.lowerChar (table : CaseTable) (before : List Char) (c : Char)
    (after : List Char) : List Char :=
  if c.toNat < 128 then [c.toLower]
  else if c.toNat = 0x212A then ['k']
  else if c.toNat = 0x0130 then ['i', Char.ofNat 0x0307]
  else [table.other before c after]

def CaseTable.lowerFrom (table : CaseTable) (before : List Char) : List Char → List Char
  | [] => []
  | c :: cs => table.lowerChar before c cs ++ table.lowerFrom (before ++ [c]) cs

/-- `String.prototype.toLowerCase`. -/
def CaseTable.toLowerCase (table : CaseTable) (s : List Char) : List Char :=
  table.lowerFrom [] s

/-! ## Numbers -/

/-- Division to the nearest integer, ties to even. -/
def divHalfEven (n p : Nat) : Nat :=
  if p < 2 * (n % p) ∨ (2 * (n % p) = p ∧ (n / p) % 2 = 1) then n / p + 1 else n / p

/-- The double nearest to an integer; nothing beyond the largest one. -/
def toDouble (n : Nat) : Option Nat :=
  let ulp := 2 ^ (n.log2 - 52)
  let v := divHalfEven n ulp * ulp
  if v.log2 < 1024 then some v else none

/-- The fewest significant digits that read back as the double `v`, and the power of ten
they are scaled by. Seventeen digits are always enough. -/
def shortest (v : Nat) : Nat × Nat :=
  let exponent (k : Nat) := (Nat.toDigits 10 v).length - k
  let digits (k : Nat) := divHalfEven v (10 ^ exponent k)
  let k := ((List.range' 1 17).find? fun k =>
    decide (toDouble (digits k * 10 ^ exponent k) = some v)).getD 17
  (digits k, exponent k)

/-- `String(Number(t))` for a text of decimal digits: exact integers up to `2 ^ 53`, then
the shortest digits of the nearest double, from `10 ^ 21` on with an exponent. -/
def numberText (t : List Char) : List Char :=
  match toDouble (Nat.ofDigits 10 (t.reverse.map fun c => c.toNat - '0'.toNat)) with
  | none => ['I', 'n', 'f', 'i', 'n', 'i', 't', 'y']
  | some v =>
      if v < 2 ^ 53 then Nat.toDigits 10 v
      else
        let (s, e) := shortest v
        if v < 10 ^ 21 then Nat.toDigits 10 (s * 10 ^ e)
        else
          let all := Nat.toDigits 10 s
          let sig := (all.reverse.dropWhile fun c => c = '0').reverse
          let fraction := if sig.tail = [] then [] else '.' :: sig.tail
          sig.take 1 ++ fraction ++ ['e', '+'] ++ Nat.toDigits 10 (all.length + e - 1)

example : numberText ['0', '0', '7'] = ['7'] := by decide

end AuraGateway.JsStd
