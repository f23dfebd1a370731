import AuraGateway.Standard.Utf8

/-!
# Beginnings of characters

Bytes that are the beginning of a character can be completed to one (`utf8Follow_completion`), and a
character is read from no other bytes than its encoding (`utf8EncodeChar_of_front`). So what a decoder
holds back as incomplete is a proper prefix of an encoded character, of at most three bytes
(`exists_char_of_incomplete`).
-/

set_option autoImplicit false

namespace AuraGateway.RustStd

open AuraGateway.Foundations

/-! ## First bytes -/

/-- The first byte decides how many bytes follow; the bounds of the next one leave a value that needs
that many. -/
theorem utf8Lead_cases {b n lo hi v : Nat} (h : utf8Lead b = some (n, lo, hi, v)) :
    (n = 0 ∧ b < 0x80 ∧ v = b ∧ 0x80 ≤ lo ∧ lo ≤ hi ∧ hi ≤ 0xBF)
      ∨ (n = 1 ∧ 0xC2 ≤ b ∧ b < 0xE0 ∧ v = b - 0xC0 ∧ 0x80 ≤ lo ∧ lo ≤ hi ∧ hi ≤ 0xBF)
      ∨ (n = 2 ∧ 0xE0 ≤ b ∧ b < 0xF0 ∧ v = b - 0xE0 ∧ 0x80 ≤ lo ∧ lo ≤ hi ∧ hi ≤ 0xBF
        ∧ (b = 0xE0 → 0xA0 ≤ lo) ∧ (b = 0xED → hi ≤ 0x9F))
      ∨ (n = 3 ∧ 0xF0 ≤ b ∧ b < 0xF5 ∧ v = b - 0xF0 ∧ 0x80 ≤ lo ∧ lo ≤ hi ∧ hi ≤ 0xBF
        ∧ (b = 0xF0 → 0x90 ≤ lo) ∧ (b = 0xF4 → hi ≤ 0x8F)) := by
  rw [utf8Lead] at h
  split_ifs at h with h₁ h₂ h₃ h₄ h₅ h₆ h₇ h₈ h₉
  all_goals
    simp only [Option.some.injEq, Prod.mk.injEq] at h
    obtain ⟨rfl, rfl, rfl, rfl⟩ := h
  · exact Or.inl ⟨rfl, h₁, rfl, by decide⟩
  · exact Or.inr (Or.inl ⟨rfl, not_lt.mp h₂, h₃, rfl, by decide⟩)
  · refine Or.inr (Or.inr (Or.inl ⟨rfl, ?_⟩))
    rw [h₄]
    decide
  · refine Or.inr (Or.inr (Or.inl ⟨rfl, ?_⟩))
    rw [h₅]
    decide
  · refine Or.inr (Or.inr (Or.inl ⟨rfl, not_lt.mp h₃, h₆, rfl, by decide, by decide, by decide,
      ?_, ?_⟩))
    · exact fun heq => absurd heq h₄
    · exact fun heq => absurd heq h₅
  · refine Or.inr (Or.inr (Or.inr ⟨rfl, ?_⟩))
    rw [h₇]
    decide
  · refine Or.inr (Or.inr (Or.inr ⟨rfl, not_lt.mp h₆, by omega, rfl, by decide, by decide,
      by decide, ?_, ?_⟩))
    · exact fun heq => absurd heq h₇
    · exact fun heq => absurd heq (Nat.ne_of_lt h₈)
  · refine Or.inr (Or.inr (Or.inr ⟨rfl, ?_⟩))
    rw [h₉]
    decide

/-! ## Completing a character -/

/-- The least continuation byte completes what only lacks continuation bytes. -/
theorem utf8Follow_replicate (n v k : Nat) :
    ∃ c, utf8Follow n 0x80 0xBF v k (List.replicate n 0x80) = .char c (k + n) := by
  induction n generalizing v k with
  | zero => exact ⟨_, rfl⟩
  | succ n ih =>
      obtain ⟨c, hc⟩ := ih (v * 64 + (0x80 : UInt8).toNat % 64) (k + 1)
      refine ⟨c, ?_⟩
      rw [List.replicate_succ, utf8Follow_cons (by decide) (by decide), hc]
      congr 1
      omega

/-- What is incomplete lacks bytes, and some bytes complete it. -/
theorem utf8Follow_completion {n lo hi v k : Nat} {l : List UInt8} (hlo : lo ≤ hi) (hhi : hi ≤ 0xBF)
    (h : utf8Follow n lo hi v k l = .incomplete) :
    l.length < n ∧ ∃ m c, m ≠ [] ∧ (l ++ m).length = n
      ∧ utf8Follow n lo hi v k (l ++ m) = .char c (k + n) := by
  induction n generalizing lo hi v k l with
  | zero => cases h
  | succ n ih =>
      cases l with
      | nil =>
          have hbyte : (UInt8.ofNat lo).toNat = lo := UInt8.toNat_ofNat_of_lt (by
            show lo < 256
            omega)
          obtain ⟨c, hc⟩ :=
            utf8Follow_replicate n (v * 64 + (UInt8.ofNat lo).toNat % 64) (k + 1)
          refine ⟨Nat.succ_pos n, UInt8.ofNat lo :: List.replicate n 0x80, c,
            List.cons_ne_nil _ _, ?_, ?_⟩
          · rw [List.nil_append, List.length_cons, List.length_replicate]
          · rw [List.nil_append, utf8Follow_cons (by omega) (by omega), hc]
            congr 1
            omega
      | cons b l =>
          rw [utf8Follow] at h
          split at h
          · rename_i hb
            obtain ⟨hlt, m, c, hne, hlength, hc⟩ := ih (by decide) (by decide) h
            refine ⟨Nat.succ_lt_succ hlt, m, c, hne, congrArg (· + 1) hlength, ?_⟩
            rw [List.cons_append, utf8Follow_cons hb.1 hb.2, hc]
            congr 1
            omega
          · cases h

/-! ## Reading a character back -/

theorem toNat_charOfNat {v : Nat} (h : v < 0xD800 ∨ 0xDFFF < v ∧ v < 0x110000) :
    (Char.ofNat v).val.toNat = v := by
  have hvalid : v.isValidChar := h
  show (Char.ofNat v).toNat = v
  rw [Char.toNat_ofNat, if_pos hvalid]

theorem ofNat_eq {n : Nat} {b : UInt8} (h : n = b.toNat) : UInt8.ofNat n = b := by
  rw [h, UInt8.ofNat_toNat]

theorem utf8EncodeChar_one {v : Nat} (h : v < 0x80) :
    String.utf8EncodeChar (Char.ofNat v) = [UInt8.ofNat v] := by
  rw [String.utf8EncodeChar, toNat_charOfNat (by omega), if_pos (by omega)]

theorem utf8EncodeChar_two {v : Nat} (h : 0x80 ≤ v) (h' : v < 0x800) :
    String.utf8EncodeChar (Char.ofNat v)
      = [UInt8.ofNat (v / 64 % 0x20 + 0xC0), UInt8.ofNat (v % 0x40 + 0x80)] := by
  rw [String.utf8EncodeChar, toNat_charOfNat (by omega), if_neg (by omega), if_pos (by omega)]

theorem utf8EncodeChar_three {v : Nat} (h : 0x800 ≤ v) (h' : v < 0x10000)
    (hvalid : v < 0xD800 ∨ 0xDFFF < v) :
    String.utf8EncodeChar (Char.ofNat v)
      = [UInt8.ofNat (v / 4096 % 0x10 + 0xE0), UInt8.ofNat (v / 64 % 0x40 + 0x80),
          UInt8.ofNat (v % 0x40 + 0x80)] := by
  rw [String.utf8EncodeChar, toNat_charOfNat (by omega), if_neg (by omega), if_neg (by omega),
    if_pos (by omega)]

theorem utf8EncodeChar_four {v : Nat} (h : 0x10000 ≤ v) (h' : v < 0x110000) :
    String.utf8EncodeChar (Char.ofNat v)
      = [UInt8.ofNat (v / 262144 % 0x08 + 0xF0), UInt8.ofNat (v / 4096 % 0x40 + 0x80),
          UInt8.ofNat (v / 64 % 0x40 + 0x80), UInt8.ofNat (v % 0x40 + 0x80)] := by
  rw [String.utf8EncodeChar, toNat_charOfNat (by omega), if_neg (by omega), if_neg (by omega),
    if_neg (by omega)]

/-- A continuation byte that is read is within its bounds. -/
theorem of_utf8Follow_cons {n lo hi v k len : Nat} {b : UInt8} {l : List UInt8} {c : Char}
    (h : utf8Follow (n + 1) lo hi v k (b :: l) = .char c len) :
    (lo ≤ b.toNat ∧ b.toNat ≤ hi)
      ∧ utf8Follow n 0x80 0xBF (v * 64 + b.toNat % 64) (k + 1) l = .char c len := by
  rw [utf8Follow] at h
  split at h
  · rename_i hb
    exact ⟨hb, h⟩
  · cases h

/-- Bytes that are read as a character up to the last of them are its encoding. -/
theorem utf8EncodeChar_of_front {b : UInt8} {n lo hi v len : Nat} {rest : List UInt8} {c : Char}
    (hlead : utf8Lead b.toNat = some (n, lo, hi, v)) (hlength : rest.length = n)
    (h : utf8Follow n lo hi v 1 rest = .char c len) : String.utf8EncodeChar c = b :: rest := by
  have hcases := utf8Lead_cases hlead
  clear hlead
  rcases hcases with ⟨hn, hb, hv, -⟩ | ⟨hn, hb, hb', hv, hlo, hle, hhi⟩
    | ⟨hn, hb, hb', hv, hlo, hle, hhi, hfirst, hlast⟩
    | ⟨hn, hb, hb', hv, hlo, hle, hhi, hfirst, hlast⟩
  · subst hn
    subst hv
    obtain rfl := List.length_eq_zero_iff.mp hlength
    rw [← (Utf8Front.char.inj h).1, utf8EncodeChar_one hb, UInt8.ofNat_toNat]
  · subst hn
    obtain ⟨b₁, rfl⟩ := List.length_eq_one_iff.mp hlength
    obtain ⟨h₁, h⟩ := of_utf8Follow_cons h
    rw [← (Utf8Front.char.inj h).1, utf8EncodeChar_two (by omega) (by omega),
      ofNat_eq (b := b) (by omega), ofNat_eq (b := b₁) (by omega)]
  · subst hn
    obtain ⟨b₁, b₂, rfl⟩ := List.length_eq_two.mp hlength
    obtain ⟨h₁, h⟩ := of_utf8Follow_cons h
    obtain ⟨h₂, h⟩ := of_utf8Follow_cons h
    rw [← (Utf8Front.char.inj h).1, utf8EncodeChar_three (by omega) (by omega) (by omega),
      ofNat_eq (b := b) (by omega), ofNat_eq (b := b₁) (by omega), ofNat_eq (b := b₂) (by omega)]
  · subst hn
    obtain ⟨b₁, b₂, b₃, rfl⟩ := List.length_eq_three.mp hlength
    obtain ⟨h₁, h⟩ := of_utf8Follow_cons h
    obtain ⟨h₂, h⟩ := of_utf8Follow_cons h
    obtain ⟨h₃, h⟩ := of_utf8Follow_cons h
    rw [← (Utf8Front.char.inj h).1, utf8EncodeChar_four (by omega) (by omega),
      ofNat_eq (b := b) (by omega), ofNat_eq (b := b₁) (by omega), ofNat_eq (b := b₂) (by omega),
      ofNat_eq (b := b₃) (by omega)]

/-- Bytes that are the beginning of a character are at most three, and a proper prefix of the
encoding of one. -/
theorem exists_char_of_incomplete {l : List UInt8} (h : utf8Front l = .incomplete) :
    l.length ≤ 3 ∧ ∃ c rest, rest ≠ [] ∧ String.utf8EncodeChar c = l ++ rest := by
  cases l with
  | nil => exact ⟨Nat.zero_le 3, 'a', [0x61], List.cons_ne_nil _ _, rfl⟩
  | cons b l =>
      rw [utf8Front] at h
      split at h
      · cases h
      · rename_i n lo hi v hlead
        have hbounds : n ≤ 3 ∧ lo ≤ hi ∧ hi ≤ 0xBF := by
          have hcases := utf8Lead_cases hlead
          omega
        obtain ⟨hlt, m, c, hne, hlength, hc⟩ := utf8Follow_completion hbounds.2.1 hbounds.2.2 h
        refine ⟨?_, c, m, hne, ?_⟩
        · rw [List.length_cons]
          omega
        · exact utf8EncodeChar_of_front hlead hlength hc

end AuraGateway.RustStd
