import AuraGateway.Crypto.Hex
import AuraGateway.Foundations.Sealing

/-!
# Envelope encryption of provider credentials

A provider's API key is encrypted under a data key of its own, and that key is wrapped with the
master key; the nonce of the outer layer stands before the wrapped key, the one of the inner layer
in a JSON record. The cipher and what was drawn at random are given from outside.

Opening never panics, whatever the bytes and the record are (`openStored_ne_panic`): every slice
and every conversion to a fixed length is behind a check. It refines the opening of an abstract
envelope (`decryptCredential_eq_ok_iff`), so a stored credential opens exactly when it
consists of the parts of one that was issued under the master key (`stored_credential_opens_iff`).
Of the record only the nonce is read, in either case of its digits.
-/

set_option autoImplicit false

namespace AuraGateway.Crypto

open AuraGateway.RustStd AuraGateway.Auth AuraGateway.Types AuraGateway.Foundations.Sealing

/-! ## Buffers of fixed length -/

/-- `[u8; n]`. -/
abbrev Bytes (n : Nat) := {bytes : List UInt8 // bytes.length = n}

def aesKeySize : Nat := 32

def nonceSize : Nat := 12

abbrev AesKey := Bytes aesKeySize

abbrev AesNonce := Bytes nonceSize

/-- What an error carries: an own message, or the error of a library. -/
inductive CryptoCause where
  | text (message : String)
  | cipher
  | hex (error : FromHexError)
  | utf8 (error : Utf8Error)
  deriving DecidableEq, Repr

/-- Crypto-related errors. -/
inductive CryptoError where
  | encryptionFailed (cause : CryptoCause)
  | decryptionFailed (cause : CryptoCause)
  | invalidKeyLength (expected actual : Nat)
  | invalidNonceLength (expected actual : Nat)
  deriving DecidableEq, Repr

/-- A function fails with an error, or panics where a buffer has not the length it must have. -/
inductive CryptoFailure where
  | error (e : CryptoError)
  | panic (expected actual : Nat)
  deriving DecidableEq, Repr

/-- `copy_from_slice` and `Nonce::from_slice`: they panic at another length. -/
def fromSlice (n : Nat) (bytes : List UInt8) : Except CryptoFailure (Bytes n) :=
  if h : bytes.length = n then .ok ⟨bytes, h⟩ else .error (.panic n bytes.length)

/-- `&bytes[..stop]` and `&bytes[stop..]`: they panic beyond the end. -/
def splitSlice (stop : Nat) (bytes : List UInt8) : Except CryptoFailure (List UInt8 × List UInt8) :=
  if stop ≤ bytes.length then .ok (bytes.take stop, bytes.drop stop)
  else .error (.panic stop bytes.length)

/-- `map_err(..)?`. -/
def orFail {ε α : Type} (f : ε → CryptoError) : Except ε α → Except CryptoFailure α
  | .ok a => .ok a
  | .error e => .error (.error (f e))

/-- A cipher operation that fails without saying why. -/
def orCipherError {α : Type} (f : CryptoCause → CryptoError) : Option α → Except CryptoFailure α
  | some a => .ok a
  | none => .error (.error (f .cipher))

theorem orFail_eq_ok_iff {ε α : Type} {f : ε → CryptoError} {x : Except ε α} {a : α} :
    orFail f x = .ok a ↔ x = .ok a := by
  cases x <;> simp [orFail]

theorem orCipherError_eq_ok_iff {α : Type} {f : CryptoCause → CryptoError} {x : Option α} {a : α} :
    orCipherError f x = .ok a ↔ x = some a := by
  cases x <;> simp [orCipherError]

/-! ## Keys -/

/-- AES-256-GCM. -/
abbrev AesGcm := Cipher AesKey AesNonce (List UInt8) (List UInt8)

/-- `Aes256Gcm::new_from_slice`: an error at another length. -/
def newFromSlice (f : CryptoCause → CryptoError) (bytes : List UInt8) :
    Except CryptoFailure AesKey :=
  if h : bytes.length = aesKeySize then .ok ⟨bytes, h⟩ else .error (.error (f .cipher))

/-- Create a key from raw bytes; data keys and master keys alike. -/
def keyFromBytes (bytes : List UInt8) : Except CryptoFailure AesKey :=
  if bytes.length ≠ aesKeySize then
    .error (.error (.invalidKeyLength aesKeySize bytes.length))
  else fromSlice aesKeySize bytes

/-- Create a master key from a hex-encoded string. -/
def masterKeyFromHex (hexKey : List Char) : Except CryptoFailure AesKey := do
  let bytes ← orFail (fun e => .decryptionFailed (.hex e)) (hexDecode (utf8 hexKey))
  keyFromBytes bytes

/-- Export the master key as a hex string. -/
def masterKeyToHex (key : AesKey) : List Char := hexEncode key.val

section Cipher

variable (aes : AesGcm)

/-- Wrap a data key with a master key; the nonce is drawn at random. -/
def wrapDek (masterKey dek : AesKey) (nonceBytes : AesNonce) : Except CryptoFailure (List UInt8) := do
  let cipherKey ← newFromSlice .encryptionFailed masterKey.val
  let nonce ← fromSlice nonceSize nonceBytes.val
  let ciphertext ← orCipherError .encryptionFailed (aes.encrypt cipherKey nonce dek.val)
  .ok (nonceBytes.val ++ ciphertext)

/-- Unwrap a wrapped data key. -/
def unwrapDek (masterKey : AesKey) (wrappedDek : List UInt8) : Except CryptoFailure AesKey :=
  if wrappedDek.length < nonceSize then
    .error (.error (.decryptionFailed (.text "Wrapped DEK too short")))
  else do
    let cipherKey ← newFromSlice .decryptionFailed masterKey.val
    let parts ← splitSlice nonceSize wrappedDek
    let nonce ← fromSlice nonceSize parts.1
    let plaintext ← orCipherError .decryptionFailed (aes.decrypt cipherKey nonce parts.2)
    keyFromBytes plaintext

/-! ## Credentials -/

/-- Encrypted credential data. -/
structure EncryptedCredential where
  ciphertext : List UInt8
  wrappedDek : List UInt8
  nonce : AesNonce
  deriving DecidableEq

/-- Encryption parameters as JSON for storage. -/
def EncryptedCredential.encryptionParams (c : EncryptedCredential) : Json :=
  .object [("algorithm", .string "AES-256-GCM"),
    ("nonce", .string (String.ofList (hexEncode c.nonce.val)))]

/-- What one encryption draws at random. -/
structure EnvelopeDraws where
  dek : AesKey
  wrapNonce : AesNonce
  nonce : AesNonce

/-- Encrypt a provider API key using envelope encryption. -/
def encryptCredential (draws : EnvelopeDraws) (masterKey : AesKey) (apiKey : String) :
    Except CryptoFailure EncryptedCredential := do
  let wrappedDek ← wrapDek aes masterKey draws.dek draws.wrapNonce
  let cipherKey ← newFromSlice .encryptionFailed draws.dek.val
  let nonce ← fromSlice nonceSize draws.nonce.val
  let ciphertext ←
    orCipherError .encryptionFailed (aes.encrypt cipherKey nonce (utf8 apiKey.toList))
  .ok { ciphertext, wrappedDek, nonce := draws.nonce }

/-- Decrypt a provider API key using envelope encryption. -/
def decryptCredential (masterKey : AesKey) (ciphertext wrappedDek nonce : List UInt8) :
    Except CryptoFailure String :=
  if nonce.length ≠ nonceSize then
    .error (.error (.invalidNonceLength nonceSize nonce.length))
  else do
    let dek ← unwrapDek aes masterKey wrappedDek
    let cipherKey ← newFromSlice .decryptionFailed dek.val
    let nonce ← fromSlice nonceSize nonce
    let plaintext ← orCipherError .decryptionFailed (aes.decrypt cipherKey nonce ciphertext)
    let text ← orFail (fun e => .decryptionFailed (.utf8 e)) (fromUtf8 plaintext)
    .ok (String.ofList text)

/-- Parse encryption params JSON to extract the nonce. -/
def parseEncryptionParams (params : Json) : Except CryptoFailure AesNonce :=
  match (params.get "nonce").bind Json.asStr with
  | none => .error (.error (.decryptionFailed (.text "Missing nonce in params")))
  | some nonceHex => do
      let nonceBytes ← orFail (fun e => .decryptionFailed (.hex e)) (hexDecode (utf8 nonceHex.toList))
      if nonceBytes.length ≠ nonceSize then
        .error (.error (.invalidNonceLength nonceSize nonceBytes.length))
      else fromSlice nonceSize nonceBytes

/-- A credential as it is stored. -/
structure StoredCredential where
  ciphertext : List UInt8
  wrappedDek : List UInt8
  encryptionParams : Json

def EncryptedCredential.stored (c : EncryptedCredential) : StoredCredential :=
  ⟨c.ciphertext, c.wrappedDek, c.encryptionParams⟩

/-- Decrypt a stored credential, with the nonce of its record. -/
def openStored (masterKey : AesKey) (c : StoredCredential) : Except CryptoFailure String := do
  let nonce ← parseEncryptionParams c.encryptionParams
  decryptCredential aes masterKey c.ciphertext c.wrappedDek nonce.val

end Cipher

/-! ## What each step does -/

section Steps

variable {n : Nat}

@[simp] theorem fromSlice_val (b : Bytes n) : fromSlice n b.val = .ok b := by
  rw [fromSlice, dif_pos b.property]

@[simp] theorem newFromSlice_val (f : CryptoCause → CryptoError) (key : AesKey) :
    newFromSlice f key.val = .ok key := by
  rw [newFromSlice, dif_pos key.property]

/-- Bytes of the length of a key. -/
def decodeKey (bytes : List UInt8) : Option AesKey :=
  if h : bytes.length = aesKeySize then some ⟨bytes, h⟩ else none

@[simp] theorem decodeKey_val (key : AesKey) : decodeKey key.val = some key := by
  rw [decodeKey, dif_pos key.property]

theorem keyFromBytes_eq (bytes : List UInt8) :
    keyFromBytes bytes = match decodeKey bytes with
      | some key => .ok key
      | none => .error (.error (.invalidKeyLength aesKeySize bytes.length)) := by
  by_cases h : bytes.length = aesKeySize
  · rw [keyFromBytes, if_neg (not_not.mpr h), fromSlice, dif_pos h, decodeKey, dif_pos h]
  · rw [keyFromBytes, if_pos h, decodeKey, dif_neg h]

theorem keyFromBytes_eq_ok_iff {bytes : List UInt8} {key : AesKey} :
    keyFromBytes bytes = .ok key ↔ decodeKey bytes = some key := by
  rw [keyFromBytes_eq]
  cases decodeKey bytes <;> simp

theorem masterKeyFromHex_toHex (key : AesKey) : masterKeyFromHex (masterKeyToHex key) = .ok key := by
  rw [masterKeyFromHex, masterKeyToHex, hexDecode_encode]
  exact (keyFromBytes_eq key.val).trans (by rw [decodeKey_val])

variable {aes : AesGcm} {masterKey : AesKey}

theorem wrapDek_eq_ok_iff {dek : AesKey} {nonce : AesNonce} {wrapped : List UInt8} :
    wrapDek aes masterKey dek nonce = .ok wrapped
      ↔ ∃ c, aes.encrypt masterKey nonce dek.val = some c ∧ wrapped = nonce.val ++ c := by
  simp only [wrapDek, newFromSlice_val, fromSlice_val]
  cases h : aes.encrypt masterKey nonce dek.val with
  | none => simp [orCipherError, bind, Except.bind, h]
  | some c => simp [orCipherError, bind, Except.bind, h, eq_comm]

/-- A wrapped key that has room for a nonce is one with a nonce before it. -/
theorem unwrapDek_append (nonce : AesNonce) (c : List UInt8) :
    unwrapDek aes masterKey (nonce.val ++ c)
      = (orCipherError .decryptionFailed (aes.decrypt masterKey nonce c)) >>= keyFromBytes := by
  have hlength : nonce.val.length = nonceSize := nonce.property
  have hlong : nonceSize ≤ (nonce.val ++ c).length := by
    rw [List.length_append]
    omega
  have htake : (nonce.val ++ c).take nonceSize = nonce.val := List.take_left' hlength
  have hdrop : (nonce.val ++ c).drop nonceSize = c := List.drop_left' hlength
  rw [unwrapDek, if_neg (not_lt.mpr hlong), newFromSlice_val, splitSlice, if_pos hlong, htake, hdrop]
  simp only [bind, Except.bind, fromSlice_val]

theorem unwrapDek_short {wrapped : List UInt8} (h : wrapped.length < nonceSize) :
    unwrapDek aes masterKey wrapped
      = .error (.error (.decryptionFailed (.text "Wrapped DEK too short"))) := if_pos h

/-- Bytes are too short for a nonce, or begin with one. -/
theorem short_or_nonce (bytes : List UInt8) :
    bytes.length < nonceSize ∨ ∃ (nonce : AesNonce) (c : List UInt8), bytes = nonce.val ++ c := by
  by_cases h : bytes.length < nonceSize
  · exact .inl h
  · have hlength : (bytes.take nonceSize).length = nonceSize := List.length_take_of_le (not_lt.mp h)
    exact .inr ⟨⟨bytes.take nonceSize, hlength⟩, bytes.drop nonceSize,
      (List.take_append_drop nonceSize bytes).symm⟩

end Steps

/-! ## No panics -/

/-- The computation does not panic. -/
def NoPanic {α : Type} (x : Except CryptoFailure α) : Prop :=
  ∀ expected actual, x ≠ .error (.panic expected actual)

section NoPanic

variable {α β : Type}

theorem noPanic_ok (a : α) : NoPanic (.ok a : Except CryptoFailure α) := by
  intro expected actual h
  cases h

theorem noPanic_error (e : CryptoError) : NoPanic (.error (.error e) : Except CryptoFailure α) := by
  intro expected actual h
  cases h

theorem NoPanic.bind {x : Except CryptoFailure α} {f : α → Except CryptoFailure β}
    (hx : NoPanic x) (hf : ∀ a, NoPanic (f a)) : NoPanic (x >>= f) := by
  cases x with
  | ok a => exact hf a
  | error failure =>
      cases failure with
      | error e => exact noPanic_error e
      | panic expected actual => exact absurd rfl (hx expected actual)

theorem noPanic_orFail {ε : Type} (f : ε → CryptoError) (x : Except ε α) : NoPanic (orFail f x) := by
  cases x with
  | ok a => exact noPanic_ok a
  | error e => exact noPanic_error (f e)

theorem noPanic_orCipherError (f : CryptoCause → CryptoError) (x : Option α) :
    NoPanic (orCipherError f x) := by
  cases x with
  | some a => exact noPanic_ok a
  | none => exact noPanic_error (f .cipher)

theorem noPanic_keyFromBytes (bytes : List UInt8) : NoPanic (keyFromBytes bytes) := by
  rw [keyFromBytes_eq]
  split
  · exact noPanic_ok _
  · exact noPanic_error _

theorem noPanic_unwrapDek (aes : AesGcm) (masterKey : AesKey) (wrapped : List UInt8) :
    NoPanic (unwrapDek aes masterKey wrapped) := by
  rcases short_or_nonce wrapped with hshort | ⟨nonce, c, rfl⟩
  · rw [unwrapDek_short hshort]
    exact noPanic_error _
  · rw [unwrapDek_append]
    exact (noPanic_orCipherError _ _).bind noPanic_keyFromBytes

/-- A nonce of another length is an error, and a nonce is one of its length. -/
theorem decryptCredential_val (aes : AesGcm) (masterKey : AesKey) (ciphertext wrapped : List UInt8)
    (nonce : AesNonce) :
    decryptCredential aes masterKey ciphertext wrapped nonce.val
      = unwrapDek aes masterKey wrapped >>= fun dek =>
          orCipherError .decryptionFailed (aes.decrypt dek nonce ciphertext) >>= fun plaintext =>
            orFail (fun e => .decryptionFailed (.utf8 e)) (fromUtf8 plaintext) >>= fun text =>
              .ok (String.ofList text) := by
  rw [decryptCredential, if_neg (not_not.mpr nonce.property)]
  simp only [newFromSlice_val, fromSlice_val]
  rfl

theorem noPanic_decryptCredential (aes : AesGcm) (masterKey : AesKey)
    (ciphertext wrapped nonce : List UInt8) :
    NoPanic (decryptCredential aes masterKey ciphertext wrapped nonce) := by
  by_cases h : nonce.length = nonceSize
  · rw [decryptCredential_val aes masterKey ciphertext wrapped ⟨nonce, h⟩]
    refine (noPanic_unwrapDek aes masterKey wrapped).bind fun dek => ?_
    refine (noPanic_orCipherError _ _).bind fun plaintext => ?_
    exact (noPanic_orFail _ _).bind fun text => noPanic_ok _
  · rw [decryptCredential, if_pos h]
    exact noPanic_error _

theorem noPanic_parseEncryptionParams (params : Json) : NoPanic (parseEncryptionParams params) := by
  unfold parseEncryptionParams
  split
  · exact noPanic_error _
  · refine (noPanic_orFail _ _).bind fun nonceBytes => ?_
    split
    · exact noPanic_error _
    · rename_i hlength
      rw [fromSlice, dif_pos (not_not.mp hlength)]
      exact noPanic_ok _

/-- Opening a stored credential never panics, whatever it consists of. -/
theorem openStored_ne_panic (aes : AesGcm) (masterKey : AesKey) (c : StoredCredential) :
    NoPanic (openStored aes masterKey c) :=
  (noPanic_parseEncryptionParams _).bind fun _ => noPanic_decryptCredential _ _ _ _ _

end NoPanic

/-! ## Envelopes -/

section Envelopes

variable {aes : AesGcm} {masterKey : AesKey} {ciphertext wrapped : List UInt8} {nonce : AesNonce}
  {text : String}

/-- Decryption opens the abstract envelope, and what is inside is text. -/
theorem decryptCredential_eq_ok_iff :
    decryptCredential aes masterKey ciphertext wrapped nonce.val = .ok text
      ↔ ∃ (wrapNonce : AesNonce) (c m : List UInt8), wrapped = wrapNonce.val ++ c
          ∧ openEnvelope aes decodeKey masterKey wrapNonce nonce c ciphertext = some m
          ∧ fromUtf8 m = .ok text.toList := by
  rw [decryptCredential_val]
  rcases short_or_nonce wrapped with hshort | ⟨wrapNonce, c, rfl⟩
  · rw [unwrapDek_short hshort]
    constructor
    · intro h
      cases h
    · rintro ⟨wrapNonce, c, m, rfl, -⟩
      rw [List.length_append, wrapNonce.property] at hshort
      omega
  · simp only [unwrapDek_append, except_bind_eq_ok, orCipherError_eq_ok_iff, orFail_eq_ok_iff,
      keyFromBytes_eq_ok_iff, openEnvelope, Option.bind_eq_some_iff]
    constructor
    · rintro ⟨dek, ⟨m, hm, hdek⟩, plaintext, hplaintext, t, ht, htext⟩
      obtain rfl := Except.ok.inj htext
      exact ⟨wrapNonce, c, plaintext, rfl, ⟨m, hm, dek, hdek, hplaintext⟩, by simpa using ht⟩
    · rintro ⟨wrapNonce', c', plaintext, heq, ⟨m, hm, dek, hdek, hplaintext⟩, ht⟩
      -- the nonce before the wrapped key is the only one of its length
      obtain ⟨hnonce, rfl⟩ := List.append_inj heq
        (wrapNonce.property.trans wrapNonce'.property.symm)
      obtain rfl := Subtype.ext hnonce
      exact ⟨dek, ⟨m, hm, hdek⟩, plaintext, hplaintext, text.toList, ht, by simp⟩

/-- An encryption of a credential: who encrypts what, with which draws. -/
structure EncryptionCall where
  masterKey : AesKey
  apiKey : String
  draws : EnvelopeDraws

def EncryptionCall.run (aes : AesGcm) (call : EncryptionCall) :
    Except CryptoFailure EncryptedCredential :=
  encryptCredential aes call.draws call.masterKey call.apiKey

/-- The issue of an abstract envelope that an encryption is. -/
def EncryptionCall.issue (call : EncryptionCall) : Issue AesKey AesNonce (List UInt8) where
  outer := call.masterKey
  inner := call.draws.dek
  wrapNonce := call.draws.wrapNonce
  nonce := call.draws.nonce
  message := utf8 call.apiKey.toList

/-- Encryption issues the abstract envelope, with the nonce before the wrapped key. -/
theorem run_eq_ok_iff {call : EncryptionCall} {cred : EncryptedCredential} :
    call.run aes = .ok cred
      ↔ ∃ c, aes.encrypt call.masterKey call.draws.wrapNonce call.draws.dek.val = some c
          ∧ aes.encrypt call.draws.dek call.draws.nonce (utf8 call.apiKey.toList)
            = some cred.ciphertext
          ∧ cred.wrappedDek = call.draws.wrapNonce.val ++ c ∧ cred.nonce = call.draws.nonce := by
  simp only [EncryptionCall.run, encryptCredential, except_bind_eq_ok, wrapDek_eq_ok_iff,
    newFromSlice_val, fromSlice_val, orCipherError_eq_ok_iff, Except.ok.injEq]
  constructor
  · rintro ⟨wrapped, ⟨c, hc, rfl⟩, dek, rfl, nonce, rfl, ciphertext, hciphertext, rfl⟩
    exact ⟨c, hc, hciphertext, rfl, rfl⟩
  · rintro ⟨c, hc, hciphertext, hwrapped, hnonce⟩
    refine ⟨_, ⟨c, hc, rfl⟩, _, rfl, _, rfl, _, hciphertext, ?_⟩
    rw [← hwrapped, ← hnonce]

/-- The record of a credential has its nonce. -/
theorem parse_encryptionParams (cred : EncryptedCredential) :
    parseEncryptionParams cred.encryptionParams = .ok cred.nonce := by
  have hget : (cred.encryptionParams.get "nonce").bind Json.asStr
      = some (String.ofList (hexEncode cred.nonce.val)) := rfl
  unfold parseEncryptionParams
  rw [hget]
  simp only [String.toList_ofList, hexDecode_encode]
  show (if cred.nonce.val.length ≠ nonceSize then _ else fromSlice nonceSize cred.nonce.val) = _
  rw [if_neg (not_not.mpr cred.nonce.property), fromSlice_val]

theorem openStored_eq_ok_iff {c : StoredCredential} :
    openStored aes masterKey c = .ok text
      ↔ ∃ nonce, parseEncryptionParams c.encryptionParams = .ok nonce
          ∧ decryptCredential aes masterKey c.ciphertext c.wrappedDek nonce.val = .ok text :=
  except_bind_eq_ok

/-- The parts of a stored credential are those of an issued one; of its record only the nonce
counts. -/
structure StoredCredential.IsPartsOf (c : StoredCredential) (cred : EncryptedCredential) : Prop where
  ciphertext : c.ciphertext = cred.ciphertext
  wrappedDek : c.wrappedDek = cred.wrappedDek
  nonce : parseEncryptionParams c.encryptionParams = .ok cred.nonce

theorem stored_isPartsOf (cred : EncryptedCredential) : cred.stored.IsPartsOf cred :=
  ⟨rfl, rfl, parse_encryptionParams cred⟩

/-- The issues of the encryptions that were made. -/
def issuesOf (calls : List EncryptionCall) : Set (Issue AesKey AesNonce (List UInt8)) :=
  {i | ∃ call ∈ calls, i = call.issue}

variable {calls : List EncryptionCall}

/-- The parts of an encryption open to its plaintext. -/
theorem openStored_of_isPartsOf (hhonest : aes.Honest (issuedLog (·.val) (issuesOf calls)))
    {call : EncryptionCall} (hcall : call ∈ calls) {cred : EncryptedCredential}
    (hrun : call.run aes = .ok cred) {c : StoredCredential} (hparts : c.IsPartsOf cred) :
    openStored aes call.masterKey c = .ok call.apiKey := by
  obtain ⟨wrapped, hwrapped, hbody, hcat, hnonce⟩ := run_eq_ok_iff.mp hrun
  refine openStored_eq_ok_iff.mpr ⟨cred.nonce, hparts.nonce, ?_⟩
  rw [hparts.ciphertext, hparts.wrappedDek, hcat, hnonce, decryptCredential_eq_ok_iff]
  exact ⟨call.draws.wrapNonce, wrapped, utf8 call.apiKey.toList, rfl,
    open_of_issued hhonest decodeKey_val ⟨call, hcall, rfl⟩ hwrapped hbody, fromUtf8_encode _⟩

/-- What opens has the parts of an encryption. -/
theorem exists_call_of_openStored (hhonest : aes.Honest (issuedLog (·.val) (issuesOf calls)))
    {masterKeys : Set AesKey} (hfresh : Fresh (issuesOf calls) masterKeys)
    (hmaster : masterKey ∈ masterKeys) {c : StoredCredential}
    (h : openStored aes masterKey c = .ok text) :
    ∃ call ∈ calls, call.masterKey = masterKey ∧ call.apiKey = text
      ∧ ∃ cred, call.run aes = .ok cred ∧ c.IsPartsOf cred := by
  obtain ⟨nonce, hparams, hdecrypt⟩ := openStored_eq_ok_iff.mp h
  obtain ⟨wrapNonce, wrapped, m, hcat, hopen, htext⟩ := decryptCredential_eq_ok_iff.mp hdecrypt
  obtain ⟨i, ⟨call, hcall, rfl⟩, hkey, rfl, rfl, rfl, hwrapped, hbody⟩ :=
    (open_eq_some_iff hhonest decodeKey_val hfresh hmaster).mp hopen
  have happ : call.apiKey.toList = text.toList :=
    Except.ok.inj ((fromUtf8_encode call.apiKey.toList).symm.trans htext)
  let cred : EncryptedCredential := ⟨c.ciphertext, c.wrappedDek, call.draws.nonce⟩
  have hrun : call.run aes = .ok cred := run_eq_ok_iff.mpr ⟨wrapped, hwrapped, hbody, hcat, rfl⟩
  exact ⟨call, hcall, hkey, String.toList_inj.mp happ, cred, hrun, rfl, rfl, hparams⟩

end Envelopes

/-- Where the cipher decrypts exactly what was encrypted: what an encryption issues opens to the
plaintext, nothing makes opening panic, and, the data keys being fresh, a stored credential opens
with a master key exactly when its parts are those of one encryption under that key, and then
to the plaintext of that encryption. -/
theorem stored_credential_opens_iff (aes : AesGcm) (calls : List EncryptionCall)
    (masterKeys : Set AesKey) (hhonest : aes.Honest (issuedLog (·.val) (issuesOf calls))) :
    (∀ call ∈ calls, ∀ cred, call.run aes = .ok cred →
        openStored aes call.masterKey cred.stored = .ok call.apiKey)
      ∧ (∀ masterKey c, NoPanic (openStored aes masterKey c))
      ∧ (Fresh (issuesOf calls) masterKeys → ∀ masterKey ∈ masterKeys, ∀ c text,
          openStored aes masterKey c = .ok text
            ↔ ∃ call ∈ calls, call.masterKey = masterKey ∧ call.apiKey = text
                ∧ ∃ cred, call.run aes = .ok cred ∧ c.IsPartsOf cred) := by
  refine ⟨?_, openStored_ne_panic aes, ?_⟩
  · intro call hcall cred hrun
    exact openStored_of_isPartsOf hhonest hcall hrun (stored_isPartsOf cred)
  · intro hfresh masterKey hmaster c text
    constructor
    · exact exists_call_of_openStored hhonest hfresh hmaster
    · rintro ⟨call, hcall, rfl, rfl, cred, hrun, hparts⟩
      exact openStored_of_isPartsOf hhonest hcall hrun hparts

namespace Sample

theorem length_replicate (n : Nat) (b : UInt8) : (List.replicate n b).length = n :=
  List.length_replicate

def masterKey : AesKey := ⟨List.replicate 32 1, length_replicate 32 1⟩

/-- One encryption, with constant bytes as draws. -/
def call : EncryptionCall where
  masterKey := masterKey
  apiKey := "sk"
  draws :=
    { dek := ⟨List.replicate 32 2, length_replicate 32 2⟩
      wrapNonce := ⟨List.replicate 12 3, length_replicate 12 3⟩
      nonce := ⟨List.replicate 12 10, length_replicate 12 10⟩ }

/-- What AES-256-GCM gives for the wrapped key, with its tag. -/
def wrappedKey : List UInt8 :=
  [250, 99, 22, 152, 253, 134, 53, 107, 175, 254, 228, 101, 206, 27, 38, 170, 186, 49, 163, 79, 133,
    205, 192, 176, 174, 18, 191, 68, 168, 72, 132, 113, 85, 214, 136, 153, 148, 85, 142, 14, 130, 23,
    166, 118, 29, 117, 22, 90]

/-- What AES-256-GCM gives for the plaintext, with its tag. -/
def body : List UInt8 :=
  [187, 165, 43, 25, 138, 119, 237, 145, 136, 193, 116, 106, 220, 137, 10, 173, 175, 161]

/-- AES-256-GCM on what the encryption seals. -/
def aes : AesGcm where
  encrypt key nonce m :=
    if key = masterKey ∧ nonce = call.draws.wrapNonce ∧ m = call.draws.dek.val then some wrappedKey
    else if key = call.draws.dek ∧ nonce = call.draws.nonce ∧ m = utf8 "sk".toList then some body
    else none
  decrypt key nonce c :=
    if key = masterKey ∧ nonce = call.draws.wrapNonce ∧ c = wrappedKey then some call.draws.dek.val
    else if key = call.draws.dek ∧ nonce = call.draws.nonce ∧ c = body then some (utf8 "sk".toList)
    else none

theorem dek_ne_masterKey : call.draws.dek ≠ masterKey := by decide

/-- One row of a table, read by message and by ciphertext. -/
theorem sealed_iff {N : Type} [DecidableEq N] (nonce nonce' : N) (m m' c c' : List UInt8) :
    (if nonce = nonce' ∧ c = c' then some m' else none) = some m
      ↔ (nonce = nonce' ∧ m = m') ∧ (if nonce = nonce' ∧ m = m' then some c' else none) = some c := by
  by_cases hnonce : nonce = nonce'
  · simp only [hnonce, true_and]
    constructor
    · intro h
      split at h
      · rename_i hc
        obtain rfl := Option.some.inj h
        exact ⟨rfl, by rw [if_pos rfl, hc]⟩
      · cases h
    · rintro ⟨rfl, h⟩
      rw [if_pos rfl] at h
      rw [if_pos (Option.some.inj h).symm]
  · simp [hnonce]

theorem aes_honest : aes.Honest (issuedLog (·.val) (issuesOf [call])) := by
  intro key nonce c m
  have hlog : (key, nonce, m) ∈ issuedLog (·.val) (issuesOf [call])
      ↔ (key = masterKey ∧ nonce = call.draws.wrapNonce ∧ m = call.draws.dek.val)
        ∨ (key = call.draws.dek ∧ nonce = call.draws.nonce ∧ m = utf8 "sk".toList) := by
    simp [issuedLog, issuesOf, EncryptionCall.issue, call]
  rw [hlog]
  by_cases hmaster : key = masterKey
  · have hdek : key ≠ call.draws.dek := hmaster ▸ dek_ne_masterKey.symm
    simp only [aes, hmaster, dek_ne_masterKey.symm, true_and, false_and, if_false, or_false]
    exact sealed_iff _ _ _ _ _ _
  · simp only [aes, hmaster, false_and, if_false, false_or]
    by_cases hdek : key = call.draws.dek
    · simp only [hdek, true_and]
      exact sealed_iff _ _ _ _ _ _
    · simp [hdek]

theorem call_fresh : Fresh (issuesOf [call]) {masterKey} where
  own := by
    rintro i ⟨c, hc, rfl⟩ j ⟨c', hc', rfl⟩ -
    rw [List.mem_singleton.mp hc, List.mem_singleton.mp hc']
  outer_mem := by
    rintro i ⟨c, hc, rfl⟩
    rw [List.mem_singleton.mp hc]
    exact Set.mem_singleton masterKey
  inner_not_mem := by
    rintro i ⟨c, hc, rfl⟩
    rw [List.mem_singleton.mp hc]
    exact dek_ne_masterKey

/-- The record of the issued credential with another algorithm and with upper-case digits. -/
def alteredParams : Json :=
  .object [("algorithm", .string "none"), ("nonce", .string "0A0A0A0A0A0A0A0A0A0A0A0A")]

def issued : EncryptedCredential := ⟨body, call.draws.wrapNonce.val ++ wrappedKey, call.draws.nonce⟩

def altered : StoredCredential := { issued.stored with encryptionParams := alteredParams }

theorem run_call : call.run aes = .ok issued := by rfl

theorem altered_isPartsOf : altered.IsPartsOf issued := ⟨rfl, rfl, by rfl⟩

end Sample

/-- A record may name another algorithm and spell the nonce in another way, and the credential is
decrypted all the same. -/
theorem altered_record_opens :
    Sample.altered.encryptionParams.get "algorithm"
        ≠ Sample.issued.stored.encryptionParams.get "algorithm"
      ∧ openStored Sample.aes Sample.masterKey Sample.altered = .ok "sk" := by
  refine ⟨?_, openStored_of_isPartsOf Sample.aes_honest List.mem_cons_self Sample.run_call
    Sample.altered_isPartsOf⟩
  intro h
  exact absurd (Json.string.inj (Option.some.inj h)) (by decide)

theorem stored_credential_opens_sample :
    openStored Sample.aes Sample.masterKey Sample.issued.stored = .ok "sk"
      ∧ ∀ c text, openStored Sample.aes Sample.masterKey c = .ok text
          ↔ ∃ call ∈ [Sample.call], call.masterKey = Sample.masterKey ∧ call.apiKey = text
              ∧ ∃ cred, call.run Sample.aes = .ok cred ∧ c.IsPartsOf cred :=
  ⟨(stored_credential_opens_iff Sample.aes [Sample.call] {Sample.masterKey} Sample.aes_honest).1
      Sample.call List.mem_cons_self Sample.issued Sample.run_call,
    (stored_credential_opens_iff Sample.aes [Sample.call] {Sample.masterKey} Sample.aes_honest).2.2
      Sample.call_fresh Sample.masterKey (Set.mem_singleton Sample.masterKey)⟩

end AuraGateway.Crypto
