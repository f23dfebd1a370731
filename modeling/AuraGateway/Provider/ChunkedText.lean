import AuraGateway.Provider.Sse
import AuraGateway.Standard.Utf8Completion

/-!
# Text in chunks

Feeding a byte sequence to `pushUtf8` chunk by chunk leaves the same text and the same pending bytes as
feeding it at once (`feedChunks_eq`). Encoded text comes back whole, and whatever is pending is the
beginning of a character (`feedChunks_spec`).
-/

set_option autoImplicit false

namespace AuraGateway.Provider

open AuraGateway.Foundations AuraGateway.RustStd

/-- Feed chunks one after another to a buffer and its pending bytes. -/
def feedChunks (s : List Char × List UInt8) (chunks : List (List UInt8)) :
    List Char × List UInt8 :=
  chunks.foldl (fun s chunk => pushUtf8 s.1 s.2 chunk) s

/-- Two chunks are taken like one. -/
theorem pushUtf8_append (buffer : List Char) (pending chunk chunk' : List UInt8) :
    pushUtf8 (pushUtf8 buffer pending chunk).1 (pushUtf8 buffer pending chunk).2 chunk'
      = pushUtf8 buffer pending (chunk ++ chunk') := by
  have htogether := Scanner.drain_append (S := utf8Scanner) (pending ++ chunk) chunk'
  rw [List.append_assoc] at htogether
  rw [pushUtf8_eq, pushUtf8_eq, pushUtf8_eq, htogether, List.append_assoc]

/-- Where the chunks end makes no difference. -/
theorem feedChunks_eq (buffer : List Char) (chunks : List (List UInt8)) :
    feedChunks (buffer, []) chunks = pushUtf8 buffer [] chunks.flatten := by
  induction chunks using List.reverseRecOn with
  | nil =>
      show (buffer, []) = _
      rw [List.flatten_nil, pushUtf8_eq, List.nil_append,
        Scanner.drain_of_none Scanner.scan_nil, List.append_nil]
  | append_singleton chunks chunk ih =>
      have hlast : feedChunks (buffer, []) (chunks ++ [chunk])
          = pushUtf8 (feedChunks (buffer, []) chunks).1 (feedChunks (buffer, []) chunks).2 chunk := by
        rw [feedChunks, List.foldl_append]
        rfl
      rw [hlast, ih, pushUtf8_append, List.flatten_append, List.flatten_singleton]

/-- What is left pending is the beginning of a character. -/
theorem utf8Front_pending (buffer : List Char) (pending chunk : List UInt8) :
    utf8Front (pushUtf8 buffer pending chunk).2 = .incomplete := by
  have hnone : utf8Scan (utf8Scanner.drain (pending ++ chunk)).2 = none :=
    Scanner.scan_drain (S := utf8Scanner) (pending ++ chunk)
  rw [pushUtf8_eq]
  rw [utf8Scan] at hnone
  split at hnone
  · cases hnone
  · cases hnone
  · assumption

/-- Text that comes in chunks: however a byte sequence is cut, it is taken as if it came at once; encoded
text is decoded, with nothing left over; and at every point the bytes left over are at most three, and
a proper prefix of a character. -/
theorem feedChunks_spec (buffer : List Char) (chunks : List (List UInt8)) :
    feedChunks (buffer, []) chunks = pushUtf8 buffer [] chunks.flatten
      ∧ (∀ text, chunks.flatten = text.flatMap String.utf8EncodeChar →
        feedChunks (buffer, []) chunks = (buffer ++ text, []))
      ∧ (feedChunks (buffer, []) chunks).2.length ≤ 3
      ∧ ∃ c rest, rest ≠ []
        ∧ String.utf8EncodeChar c = (feedChunks (buffer, []) chunks).2 ++ rest := by
  rw [feedChunks_eq]
  refine ⟨rfl, fun text htext => ?_, exists_char_of_incomplete (utf8Front_pending buffer [] _)⟩
  rw [htext, pushUtf8_eq, List.nil_append, drain_encode]

end AuraGateway.Provider
