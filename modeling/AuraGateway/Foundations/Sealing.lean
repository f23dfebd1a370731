import Mathlib

/-!
# Sealed messages and envelopes

A cipher with authentication decrypts what was encrypted under the same key and nonce and rejects
everything else. What was encrypted is a log of key, nonce and message (`Honest`).

An envelope has two layers: a message is sealed under a key of its own, and that key is sealed
under an outer one. Where the inner keys are fresh, an envelope opens exactly when all of its parts
come from one issue, under the outer key of that issue (`open_eq_some_iff`), so parts of several
envelopes cannot be mixed.
-/

set_option autoImplicit false

namespace AuraGateway.Foundations.Sealing

universe u v w x

variable {K : Type u} {N : Type v} {M : Type w} {C : Type x}

/-- Encryption and decryption of messages under a key and a nonce; either may fail. -/
structure Cipher (K : Type u) (N : Type v) (M : Type w) (C : Type x) where
  encrypt : K → N → M → Option C
  decrypt : K → N → C → Option M

/-- The cipher decrypts what was encrypted under the same key and nonce, and nothing else. -/
def Cipher.Honest (cipher : Cipher K N M C) (log : Set (K × N × M)) : Prop :=
  ∀ k n c m, cipher.decrypt k n c = some m ↔ (k, n, m) ∈ log ∧ cipher.encrypt k n m = some c

/-! ## Envelopes -/

/-- An issue of an envelope: the keys, nonces and the message that went into it. -/
structure Issue (K : Type u) (N : Type v) (M : Type w) where
  outer : K
  inner : K
  wrapNonce : N
  nonce : N
  message : M

/-- The messages that the issues have sealed: each inner key, and each message under it. -/
def issuedLog (encodeKey : K → M) (issues : Set (Issue K N M)) : Set (K × N × M) :=
  {t | ∃ i ∈ issues, t = (i.outer, i.wrapNonce, encodeKey i.inner) ∨ t = (i.inner, i.nonce, i.message)}

/-- Each issue draws an inner key of its own, and none of the keys that wrap others. -/
structure Fresh (issues : Set (Issue K N M)) (outers : Set K) : Prop where
  own : ∀ i ∈ issues, ∀ j ∈ issues, i.inner = j.inner → i = j
  outer_mem : ∀ i ∈ issues, i.outer ∈ outers
  inner_not_mem : ∀ i ∈ issues, i.inner ∉ outers

section Open

variable (cipher : Cipher K N M C) (encodeKey : K → M) (decodeKey : M → Option K)

/-- Open the wrapped key with the outer key, and the message with what is in it. -/
def openEnvelope (outer : K) (wrapNonce nonce : N) (wrapped body : C) : Option M :=
  (cipher.decrypt outer wrapNonce wrapped).bind fun m =>
    (decodeKey m).bind fun inner => cipher.decrypt inner nonce body

variable {cipher encodeKey decodeKey} {issues : Set (Issue K N M)} {outer : K}
  {wrapNonce nonce : N} {wrapped body : C} {m : M}

/-- An issued envelope opens to its message. -/
theorem open_of_issued (hhonest : cipher.Honest (issuedLog encodeKey issues))
    (hdecode : ∀ k, decodeKey (encodeKey k) = some k) {i : Issue K N M} (hi : i ∈ issues)
    (hwrapped : cipher.encrypt i.outer i.wrapNonce (encodeKey i.inner) = some wrapped)
    (hbody : cipher.encrypt i.inner i.nonce i.message = some body) :
    openEnvelope cipher decodeKey i.outer i.wrapNonce i.nonce wrapped body = some i.message := by
  have hkey := (hhonest _ _ _ _).mpr ⟨⟨i, hi, .inl rfl⟩, hwrapped⟩
  have hmessage := (hhonest _ _ _ _).mpr ⟨⟨i, hi, .inr rfl⟩, hbody⟩
  rw [openEnvelope, hkey, Option.bind_some, hdecode, Option.bind_some, hmessage]

/-- Under an outer key, the log has wrapped keys only. -/
theorem exists_issue_of_outer {outers : Set K} (hfresh : Fresh issues outers)
    (houter : outer ∈ outers) (h : (outer, wrapNonce, m) ∈ issuedLog encodeKey issues) :
    ∃ i ∈ issues, i.outer = outer ∧ i.wrapNonce = wrapNonce ∧ m = encodeKey i.inner := by
  obtain ⟨i, hi, heq | heq⟩ := h
  · simp only [Prod.mk.injEq] at heq
    obtain ⟨rfl, rfl, hm⟩ := heq
    exact ⟨i, hi, rfl, rfl, hm⟩
  · simp only [Prod.mk.injEq] at heq
    obtain ⟨rfl, -⟩ := heq
    exact absurd houter (hfresh.inner_not_mem i hi)

/-- Under an inner key, the log has the message of its own issue only. -/
theorem eq_issue_of_inner {outers : Set K} (hfresh : Fresh issues outers) {i : Issue K N M}
    (hi : i ∈ issues) (h : (i.inner, nonce, m) ∈ issuedLog encodeKey issues) :
    i.nonce = nonce ∧ i.message = m := by
  obtain ⟨j, hj, heq | heq⟩ := h
  · simp only [Prod.mk.injEq] at heq
    obtain ⟨hinner, -⟩ := heq
    exact absurd (hinner ▸ hfresh.outer_mem j hj) (hfresh.inner_not_mem i hi)
  · simp only [Prod.mk.injEq] at heq
    obtain ⟨hinner, rfl, rfl⟩ := heq
    obtain rfl := hfresh.own i hi j hj hinner
    exact ⟨rfl, rfl⟩

/-- An envelope opens exactly when all its parts come from one issue under the outer key. -/
theorem open_eq_some_iff {outers : Set K} (hhonest : cipher.Honest (issuedLog encodeKey issues))
    (hdecode : ∀ k, decodeKey (encodeKey k) = some k) (hfresh : Fresh issues outers)
    (houter : outer ∈ outers) :
    openEnvelope cipher decodeKey outer wrapNonce nonce wrapped body = some m
      ↔ ∃ i ∈ issues, i.outer = outer ∧ i.wrapNonce = wrapNonce ∧ i.nonce = nonce ∧ i.message = m
          ∧ cipher.encrypt i.outer i.wrapNonce (encodeKey i.inner) = some wrapped
          ∧ cipher.encrypt i.inner i.nonce i.message = some body := by
  constructor
  · intro h
    obtain ⟨key, hkey, h⟩ := Option.bind_eq_some_iff.mp h
    obtain ⟨inner, hinner, hmessage⟩ := Option.bind_eq_some_iff.mp h
    obtain ⟨hlogged, hwrapped⟩ := (hhonest _ _ _ _).mp hkey
    obtain ⟨i, hi, rfl, rfl, rfl⟩ := exists_issue_of_outer hfresh houter hlogged
    obtain rfl := Option.some.inj ((hdecode i.inner).symm.trans hinner)
    obtain ⟨hlogged', hbody⟩ := (hhonest _ _ _ _).mp hmessage
    obtain ⟨rfl, rfl⟩ := eq_issue_of_inner hfresh hi hlogged'
    exact ⟨i, hi, rfl, rfl, rfl, rfl, hwrapped, hbody⟩
  · rintro ⟨i, hi, rfl, rfl, rfl, rfl, hwrapped, hbody⟩
    exact open_of_issued hhonest hdecode hi hwrapped hbody

end Open

end AuraGateway.Foundations.Sealing
