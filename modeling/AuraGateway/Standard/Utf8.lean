import AuraGateway.Foundations.Scanner

/-!
# Decoding UTF-8

`str::from_utf8` of the Rust standard library. It reads the bytes of one character after the
other; where it fails it says how far it came and whether more bytes could have helped, which
is the case exactly when the bytes end inside a character.

Decoding with replacement characters is a scanner (`utf8Scanner`), and it reads back what
was encoded (`drain_encode`).
-/

set_option autoImplicit false

namespace AuraGateway.RustStd

open AuraGateway.Foundations

/-! ## The front of a byte sequence -/

/-- What a byte sequence begins with: a character of `len` bytes, `len` bytes that begin no
character, or the beginning of a character. -/
inductive Utf8Front where
  | char (c : Char) (len : Nat)
  | invalid (len : Nat)
  | incomplete
  deriving DecidableEq, Repr

/-- Read `more` continuation bytes, the first between `lo` and `hi`, after `len` bytes that
have given `value`. -/
def utf8Follow : (more lo hi value len : Nat) → List UInt8 → Utf8Front
  | 0, _, _, value, len, _ => .char (Char.ofNat value) len
  | _ + 1, _, _, _, _, [] => .incomplete
  | more + 1, lo, hi, value, len, b :: rest =>
      if lo ≤ b.toNat ∧ b.toNat ≤ hi then
        utf8Follow more 0x80 0xBF (value * 64 + b.toNat % 64) (len + 1) rest
      else .invalid len

/-- The number of continuation bytes after a first byte, the bounds of the first of them and
the bits of the first byte. -/
def utf8Lead (b : Nat) : Option (Nat × Nat × Nat × Nat) :=
  if b < 0x80 then some (0, 0x80, 0xBF, b)
  else if b < 0xC2 then none
  else if b < 0xE0 then some (1, 0x80, 0xBF, b - 0xC0)
  else if b = 0xE0 then some (2, 0xA0, 0xBF, 0)
  else if b = 0xED then some (2, 0x80, 0x9F, 0xD)
  else if b < 0xF0 then some (2, 0x80, 0xBF, b - 0xE0)
  else if b = 0xF0 then some (3, 0x90, 0xBF, 0)
  else if b < 0xF4 then some (3, 0x80, 0xBF, b - 0xF0)
  else if b = 0xF4 then some (3, 0x80, 0x8F, 4)
  else none

def utf8Front : List UInt8 → Utf8Front
  | [] => .incomplete
  | b :: rest =>
      match utf8Lead b.toNat with
      | none => .invalid 1
      | some (more, lo, hi, value) => utf8Follow more lo hi value 1 rest

theorem utf8Follow_char {more lo hi value k len : Nat} {l : List UInt8} {c : Char}
    (h : utf8Follow more lo hi value k l = .char c len) :
    ∃ code rest, l = code ++ rest ∧ len = k + code.length
      ∧ ∀ m, utf8Follow more lo hi value k (code ++ m) = .char c len := by
  induction more generalizing lo hi value k l with
  | zero =>
      obtain ⟨rfl, rfl⟩ := Utf8Front.char.inj h
      exact ⟨[], l, rfl, rfl, fun _ => rfl⟩
  | succ more ih =>
      cases l with
      | nil => cases h
      | cons b l =>
          rw [utf8Follow] at h
          split at h
          · rename_i hb
            obtain ⟨code, rest, rfl, hlen, hcode⟩ := ih h
            refine ⟨b :: code, rest, rfl, ?_, fun m => ?_⟩
            · rw [hlen, List.length_cons]
              omega
            · rw [List.cons_append, utf8Follow, if_pos hb]
              exact hcode m
          · cases h

theorem utf8Follow_invalid {more lo hi value k len : Nat} {l : List UInt8}
    (h : utf8Follow more lo hi value k l = .invalid len) :
    k ≤ len ∧ len ≤ k + l.length
      ∧ ∀ m, utf8Follow more lo hi value k (l ++ m) = .invalid len := by
  induction more generalizing lo hi value k l with
  | zero => cases h
  | succ more ih =>
      cases l with
      | nil => cases h
      | cons b l =>
          rw [utf8Follow] at h
          split at h
          · rename_i hb
            obtain ⟨hle, hlen, hstay⟩ := ih h
            rw [List.length_cons]
            refine ⟨by omega, by omega, fun m => ?_⟩
            rw [List.cons_append, utf8Follow, if_pos hb]
            exact hstay m
          · rename_i hb
            cases h
            refine ⟨le_refl _, Nat.le_add_right _ _, fun m => ?_⟩
            rw [List.cons_append, utf8Follow, if_neg hb]

/-- The bytes of a character are read in the same way whatever follows them. -/
theorem utf8Front_char {l : List UInt8} {c : Char} {len : Nat} (h : utf8Front l = .char c len) :
    ∃ code rest, l = code ++ rest ∧ len = code.length ∧ 0 < len
      ∧ ∀ m, utf8Front (code ++ m) = .char c len := by
  cases l with
  | nil => cases h
  | cons b l =>
      rw [utf8Front] at h
      split at h
      · cases h
      · rename_i hlead
        obtain ⟨code, rest, rfl, hlen, hcode⟩ := utf8Follow_char h
        refine ⟨b :: code, rest, rfl, ?_, by omega, fun m => ?_⟩
        · rw [hlen, List.length_cons]
          omega
        · rw [List.cons_append, utf8Front, hlead]
          exact hcode m

theorem utf8Front_invalid {l : List UInt8} {len : Nat} (h : utf8Front l = .invalid len) :
    0 < len ∧ len ≤ l.length ∧ ∀ m, utf8Front (l ++ m) = .invalid len := by
  cases l with
  | nil => cases h
  | cons b l =>
      rw [utf8Front] at h
      split at h
      · rename_i hlead
        cases h
        refine ⟨Nat.one_pos, Nat.le_add_left _ _, fun m => ?_⟩
        rw [List.cons_append, utf8Front, hlead]
      · rename_i hlead
        obtain ⟨hle, hlen, hstay⟩ := utf8Follow_invalid h
        refine ⟨hle, ?_, fun m => ?_⟩
        · rw [List.length_cons]
          omega
        · rw [List.cons_append, utf8Front, hlead]
          exact hstay m

/-! ## Decoding with replacement characters -/

/-- U+FFFD. -/
def replacement : Char := Char.ofNat 0xFFFD

def utf8Scan (l : List UInt8) : Option (Char × List UInt8) :=
  match utf8Front l with
  | .char c len => some (c, l.drop len)
  | .invalid len => some (replacement, l.drop len)
  | .incomplete => none

theorem utf8Scan_spec {l r : List UInt8} {c : Char} (h : utf8Scan l = some (c, r)) :
    r.length < l.length ∧ ∀ m, utf8Scan (l ++ m) = some (c, r ++ m) := by
  rw [utf8Scan] at h
  split at h
  · rename_i hfront
    obtain ⟨rfl, rfl⟩ := Prod.mk.inj (Option.some.inj h)
    obtain ⟨code, rest, rfl, hlen, hpos, hcode⟩ := utf8Front_char hfront
    refine ⟨?_, fun m => ?_⟩
    · rw [List.length_drop, List.length_append]
      omega
    · simp only [utf8Scan, List.append_assoc, hcode, hlen, List.drop_left]
  · rename_i hfront
    obtain ⟨rfl, rfl⟩ := Prod.mk.inj (Option.some.inj h)
    obtain ⟨hpos, hlen, hstay⟩ := utf8Front_invalid hfront
    refine ⟨?_, fun m => ?_⟩
    · rw [List.length_drop]
      omega
    · simp only [utf8Scan, hstay, List.drop_append_of_le_length hlen]
  · cases h

/-- Decoding with a replacement character for bytes that begin no character. -/
def utf8Scanner : Scanner UInt8 Char where
  scan := utf8Scan
  length_of_scan h := (utf8Scan_spec h).1
  scan_append h := (utf8Scan_spec h).2

theorem utf8Scan_char {l : List UInt8} {c : Char} {len : Nat} (h : utf8Front l = .char c len) :
    utf8Scanner.scan l = some (c, l.drop len) := by
  simp only [utf8Scanner, utf8Scan, h]

theorem utf8Scan_invalid {l : List UInt8} {len : Nat} (h : utf8Front l = .invalid len) :
    utf8Scanner.scan l = some (replacement, l.drop len) := by
  simp only [utf8Scanner, utf8Scan, h]

theorem utf8Scan_incomplete {l : List UInt8} (h : utf8Front l = .incomplete) :
    utf8Scanner.scan l = none := by
  simp only [utf8Scanner, utf8Scan, h]

/-! ## Decoding with errors -/

/-- `Utf8Error`: the length of the valid beginning, and the length of the invalid bytes after
it, unless the bytes end there. -/
structure Utf8Error where
  validUpTo : Nat
  errorLen : Option Nat
  deriving DecidableEq, Repr

/-- `str::from_utf8`. -/
def fromUtf8 (l : List UInt8) : Except Utf8Error (List Char) :=
  if l = [] then .ok []
  else
    match h : utf8Front l with
    | .char c len =>
        have : (l.drop len).length < l.length := utf8Scanner.length_of_scan (utf8Scan_char h)
        match fromUtf8 (l.drop len) with
        | .ok t => .ok (c :: t)
        | .error e => .error { e with validUpTo := len + e.validUpTo }
    | .invalid len => .error ⟨0, some len⟩
    | .incomplete => .error ⟨0, none⟩
termination_by l.length
decreasing_by exact this

theorem fromUtf8_nil : fromUtf8 [] = .ok [] := by
  rw [fromUtf8, if_pos rfl]

theorem fromUtf8_char {l : List UInt8} {c : Char} {len : Nat} (h : utf8Front l = .char c len) :
    fromUtf8 l = match fromUtf8 (l.drop len) with
      | .ok t => .ok (c :: t)
      | .error e => .error { e with validUpTo := len + e.validUpTo } := by
  have hne : l ≠ [] := by
    rintro rfl
    cases h
  rw [fromUtf8, if_neg hne]
  split <;> rename_i h' <;> rw [h] at h' <;> cases h'
  rfl

/-- Where decoding succeeds, the scanner gives the same characters. -/
theorem drain_of_fromUtf8_ok {l : List UInt8} {t : List Char} (h : fromUtf8 l = .ok t) :
    utf8Scanner.drain l = (t, []) := by
  fun_induction fromUtf8 l generalizing t with
  | case1 =>
      cases h
      exact Scanner.drain_of_none Scanner.scan_nil
  | case2 l hne c len hfront _ t' ht ih =>
      cases h
      rw [Scanner.drain_of_some (utf8Scan_char hfront), ih ht]
  | case3 => cases h
  | case4 => cases h
  | case5 => cases h

/-- Where decoding fails, the valid beginning decodes, and what follows it begins no
character. -/
theorem of_fromUtf8_error {l : List UInt8} {e : Utf8Error} (h : fromUtf8 l = .error e) :
    ∃ t, fromUtf8 (l.take e.validUpTo) = .ok t
      ∧ utf8Scanner.drain l
        = (t ++ (utf8Scanner.drain (l.drop e.validUpTo)).1,
          (utf8Scanner.drain (l.drop e.validUpTo)).2)
      ∧ utf8Front (l.drop e.validUpTo)
        = match e.errorLen with
          | none => .incomplete
          | some len => .invalid len := by
  fun_induction fromUtf8 l generalizing e with
  | case1 => cases h
  | case2 => cases h
  | case3 l hne c len hfront _ e' he ih =>
      cases h
      obtain ⟨t, ht, hdrain, hafter⟩ := ih he
      obtain ⟨code, rest, rfl, hlen, -, hcode⟩ := utf8Front_char hfront
      simp only [hlen, List.drop_left] at ht hdrain hafter ⊢
      have htake : (code ++ rest).take (code.length + e'.validUpTo)
          = code ++ rest.take e'.validUpTo := List.take_length_add_append _
      have hdrop : (code ++ rest).drop (code.length + e'.validUpTo)
          = rest.drop e'.validUpTo := List.drop_length_add_append _
      refine ⟨c :: t, ?_, ?_, ?_⟩
      · rw [htake, fromUtf8_char (hcode _), hlen, List.drop_left, ht]
      · rw [Scanner.drain_of_some (utf8Scan_char hfront), hlen, List.drop_left, hdrain, hdrop]
        rfl
      · rw [hdrop]
        exact hafter
  | case4 l hne len hfront =>
      cases h
      exact ⟨[], fromUtf8_nil, rfl, hfront⟩
  | case5 l hne hfront =>
      cases h
      exact ⟨[], fromUtf8_nil, rfl, hfront⟩

theorem length_after_invalid {l : List UInt8} {e : Utf8Error} {bad : Nat}
    (h : fromUtf8 l = .error e) (h' : e.errorLen = some bad) :
    (l.drop (e.validUpTo + bad)).length < l.length := by
  obtain ⟨t, -, -, hafter⟩ := of_fromUtf8_error h
  rw [h'] at hafter
  have hbad := utf8Front_invalid hafter
  rw [List.length_drop] at hbad ⊢
  omega

/-! ## Encoding -/

/-- A continuation byte within its bounds adds six bits. -/
theorem utf8Follow_cons {more lo hi value len : Nat} {b : UInt8} {rest : List UInt8}
    (h : lo ≤ b.toNat) (h' : b.toNat ≤ hi) :
    utf8Follow (more + 1) lo hi value len (b :: rest)
      = utf8Follow more 0x80 0xBF (value * 64 + b.toNat % 64) (len + 1) rest := by
  rw [utf8Follow, if_pos ⟨h, h'⟩]

theorem utf8Front_cons {b : UInt8} {more lo hi value : Nat} (h : utf8Lead b.toNat = some (more, lo, hi, value))
    (rest : List UInt8) : utf8Front (b :: rest) = utf8Follow more lo hi value 1 rest := by
  rw [utf8Front, h]

theorem utf8Lead_one {b : Nat} (h : b < 0x80) : utf8Lead b = some (0, 0x80, 0xBF, b) := by
  rw [utf8Lead, if_pos h]

theorem utf8Lead_two {b : Nat} (h : 0xC2 ≤ b) (h' : b < 0xE0) :
    utf8Lead b = some (1, 0x80, 0xBF, b - 0xC0) := by
  rw [utf8Lead, if_neg (by omega), if_neg (by omega), if_pos h']

/-- The bounds exclude what two bytes can encode, and the surrogates. -/
theorem utf8Lead_three {b : Nat} (h : 0xE0 ≤ b) (h' : b < 0xF0) :
    utf8Lead b
      = some (2, if b = 0xE0 then 0xA0 else 0x80, if b = 0xED then 0x9F else 0xBF, b - 0xE0) := by
  rw [utf8Lead, if_neg (by omega), if_neg (by omega), if_neg (by omega)]
  by_cases h₀ : b = 0xE0
  · subst h₀
    rfl
  · by_cases h₁ : b = 0xED
    · subst h₁
      rfl
    · rw [if_neg h₀, if_neg h₁, if_pos h', if_neg h₀, if_neg h₁]

/-- The bounds exclude what three bytes can encode, and what is above the last character. -/
theorem utf8Lead_four {b : Nat} (h : 0xF0 ≤ b) (h' : b < 0xF5) :
    utf8Lead b
      = some (3, if b = 0xF0 then 0x90 else 0x80, if b = 0xF4 then 0x8F else 0xBF, b - 0xF0) := by
  rw [utf8Lead, if_neg (by omega), if_neg (by omega), if_neg (by omega), if_neg (by omega),
    if_neg (by omega), if_neg (by omega)]
  by_cases h₀ : b = 0xF0
  · subst h₀
    rfl
  · by_cases h₁ : b = 0xF4
    · subst h₁
      rfl
    · rw [if_neg h₀, if_pos (by omega), if_neg h₀, if_neg h₁]

/-- The front of an encoded character is the character. -/
theorem utf8Front_encode (c : Char) (m : List UInt8) :
    utf8Front (String.utf8EncodeChar c ++ m) = .char c (String.utf8EncodeChar c).length := by
  have hvalid : c.toNat < 0xD800 ∨ 0xDFFF < c.toNat ∧ c.toNat < 0x110000 := c.valid
  have hof : Char.ofNat c.toNat = c := Char.ofNat_toNat c
  have hbyte : ∀ n, n < 256 → (UInt8.ofNat n).toNat = n := fun n hn => UInt8.toNat_ofNat_of_lt hn
  fun_cases String.utf8EncodeChar c with
  | case1 v h =>
      have hv : v = c.toNat := rfl
      have h₀ := hbyte v (by omega)
      rw [List.singleton_append, utf8Front_cons (by rw [h₀, utf8Lead_one (by omega)]), utf8Follow,
        hv, hof]
      rfl
  | case2 v h h' =>
      have hv : v = c.toNat := rfl
      have h₀ := hbyte (v / 64 % 0x20 + 0xc0) (by omega)
      have h₁ := hbyte (v % 0x40 + 0x80) (by omega)
      rw [List.cons_append, List.singleton_append,
        utf8Front_cons (by rw [h₀, utf8Lead_two (by omega) (by omega)]),
        utf8Follow_cons (by omega) (by omega), h₁, utf8Follow]
      have hvalue : (v / 64 % 0x20 + 0xc0 - 0xC0) * 64 + (v % 0x40 + 0x80) % 64 = c.toNat := by
        omega
      rw [hvalue, hof]
      rfl
  | case3 v h h' h'' =>
      have hv : v = c.toNat := rfl
      have h₀ := hbyte (v / 4096 % 0x10 + 0xe0) (by omega)
      have h₁ := hbyte (v / 64 % 0x40 + 0x80) (by omega)
      have h₂ := hbyte (v % 0x40 + 0x80) (by omega)
      have hlo : (if v / 4096 % 0x10 + 0xe0 = 0xE0 then 0xA0 else 0x80) ≤ v / 64 % 0x40 + 0x80 := by
        split <;> omega
      have hhi : v / 64 % 0x40 + 0x80 ≤ if v / 4096 % 0x10 + 0xe0 = 0xED then 0x9F else 0xBF := by
        split <;> omega
      rw [List.cons_append, List.cons_append, List.singleton_append,
        utf8Front_cons (by rw [h₀, utf8Lead_three (by omega) (by omega)]),
        utf8Follow_cons (by rw [h₁]; exact hlo) (by rw [h₁]; exact hhi),
        utf8Follow_cons (by omega) (by omega), h₁, h₂, utf8Follow]
      have hvalue : ((v / 4096 % 0x10 + 0xe0 - 0xE0) * 64 + (v / 64 % 0x40 + 0x80) % 64) * 64
          + (v % 0x40 + 0x80) % 64 = c.toNat := by omega
      rw [hvalue, hof]
      rfl
  | case4 v h h' h'' =>
      have hv : v = c.toNat := rfl
      have h₀ := hbyte (v / 262144 % 0x08 + 0xf0) (by omega)
      have h₁ := hbyte (v / 4096 % 0x40 + 0x80) (by omega)
      have h₂ := hbyte (v / 64 % 0x40 + 0x80) (by omega)
      have h₃ := hbyte (v % 0x40 + 0x80) (by omega)
      have hlo : (if v / 262144 % 0x08 + 0xf0 = 0xF0 then 0x90 else 0x80)
          ≤ v / 4096 % 0x40 + 0x80 := by
        split <;> omega
      have hhi : v / 4096 % 0x40 + 0x80
          ≤ if v / 262144 % 0x08 + 0xf0 = 0xF4 then 0x8F else 0xBF := by
        split <;> omega
      rw [List.cons_append, List.cons_append, List.cons_append, List.singleton_append,
        utf8Front_cons (by rw [h₀, utf8Lead_four (by omega) (by omega)]),
        utf8Follow_cons (by rw [h₁]; exact hlo) (by rw [h₁]; exact hhi),
        utf8Follow_cons (by omega) (by omega), utf8Follow_cons (by omega) (by omega), h₁, h₂, h₃,
        utf8Follow]
      have hvalue : (((v / 262144 % 0x08 + 0xf0 - 0xF0) * 64 + (v / 4096 % 0x40 + 0x80) % 64) * 64
          + (v / 64 % 0x40 + 0x80) % 64) * 64 + (v % 0x40 + 0x80) % 64 = c.toNat := by omega
      rw [hvalue, hof]
      rfl

/-- Text is decoded to what was encoded, and nothing is carried over. -/
theorem drain_encode (t : List Char) :
    utf8Scanner.drain (t.flatMap String.utf8EncodeChar) = (t, []) := by
  induction t with
  | nil => exact Scanner.drain_of_none Scanner.scan_nil
  | cons c t ih =>
      have hscan := utf8Scan_char (utf8Front_encode c (t.flatMap String.utf8EncodeChar))
      rw [List.drop_left] at hscan
      rw [List.flatMap_cons, Scanner.drain_of_some hscan, ih]

/-- Encoded text is valid. -/
theorem fromUtf8_encode (t : List Char) : fromUtf8 (t.flatMap String.utf8EncodeChar) = .ok t := by
  induction t with
  | nil => exact fromUtf8_nil
  | cons c t ih =>
      rw [List.flatMap_cons, fromUtf8_char (utf8Front_encode c _), List.drop_left, ih]

end AuraGateway.RustStd
