import AuraGateway.Router.GoldPairs

/-!
# Batches of synthetic gold rows

What a batch does to the table and what is said of it: the counts add up, and the rows reported are
those that are not stored (`ingest_counts`). Sending a batch again changes nothing and reports the
same rows (`ingest_again`). The summary splits the table without a rest (`summary_counts`). The
check of a batch's id lets ids through with which no row can be stored (`long_batch_rejected`).
-/

set_option autoImplicit false

namespace AuraGateway.Router.Gold

open AuraGateway.Foundations.Upserts AuraGateway.RustStd AuraGateway.Types

section Batches

variable (j : FeatureJson) (batchId : String) (maxChars : Nat)

/-- What is reported of a row, if it is not stored. -/
def rejection (a : Answer) (e : SyntheticGoldRow × Nat) : Option RejectedRow :=
  match syntheticRowToNew j batchId maxChars e.1 with
  | .error err => some ⟨e.2, e.1.promptHash, err⟩
  | .ok new =>
    match if a.fails then none else new.stored with
    | none => some ⟨e.2, e.1.promptHash, "database error: " ++ a.message⟩
    | some _ => none

/-- The writes of a batch. -/
def batchWrites (answers : Nat → Answer) (es : List (SyntheticGoldRow × Nat)) :
    List (Write × Answer) :=
  es.map fun e => (.synthetic batchId maxChars e.1, answers e.2)

theorem rejection_eq_none_iff (a : Answer) (e : SyntheticGoldRow × Nat) :
    rejection j batchId maxChars a e = none
      ↔ ((Write.synthetic batchId maxChars e.1).row j a).isSome = true := by
  rw [rejection, Write.row, Write.new]
  cases syntheticRowToNew j batchId maxChars e.1 with
  | error err => simp [Except.toOption]
  | ok new => cases h : (if a.fails then none else new.stored) <;> simp [Except.toOption, h]

theorem rejection_index {a : Answer} {e : SyntheticGoldRow × Nat} {x : RejectedRow}
    (h : rejection j batchId maxChars a e = some x) :
    x.index = e.2 ∧ x.promptHash = e.1.promptHash := by
  rw [rejection] at h
  split at h
  · obtain rfl := Option.some.inj h
    exact ⟨rfl, rfl⟩
  · split at h
    · obtain rfl := Option.some.inj h
      exact ⟨rfl, rfl⟩
    · cases h

/-- One row is stored or reported. -/
theorem ingestRow_spec (a : Answer) (st : Ingested × List RoutingGoldPair)
    (e : SyntheticGoldRow × Nat) :
    let st' := ingestRow j batchId maxChars a st e
    st'.2 = store j st.2 (.synthetic batchId maxChars e.1, a)
      ∧ st'.1.rejected = st.1.rejected ++ (rejection j batchId maxChars a e).toList
      ∧ st'.1.inserted + st'.1.updated + st'.1.rejected.length
        = st.1.inserted + st.1.updated + st.1.rejected.length + 1
      ∧ st'.2.length + st.1.inserted = st.2.length + st'.1.inserted := by
  cases hnew : syntheticRowToNew j batchId maxChars e.1 with
  | error err =>
      simp [ingestRow, store, Write.new, rejection, hnew, Except.toOption]
      omega
  | ok new =>
      cases hstored : (if a.fails then none else new.stored) with
      | none =>
          simp [ingestRow, store, Write.new, rejection, insertReturning, hnew, hstored,
            Except.toOption]
          omega
      | some taken =>
          have hlength : (upsert RoutingGoldPair.key RoutingGoldPair.merge
              { taken with id := a.id, createdAt := a.createdAt } st.2).1.length = _ :=
            length_upsert _ st.2
          cases hinserted : (upsert RoutingGoldPair.key RoutingGoldPair.merge
              { taken with id := a.id, createdAt := a.createdAt } st.2).2 <;>
            simp [hinserted] at hlength <;>
            simp [ingestRow, store, Write.new, rejection, insertReturning, hnew, hstored,
              hinserted, hlength, Except.toOption] <;>
            omega

theorem ingestRows_spec (answers : Nat → Answer) (es : List (SyntheticGoldRow × Nat))
    (st : Ingested × List RoutingGoldPair) :
    let st' := es.foldl (fun st e => ingestRow j batchId maxChars (answers e.2) st e) st
    st'.2 = (batchWrites batchId maxChars answers es).foldl (store j) st.2
      ∧ st'.1.rejected = st.1.rejected
          ++ es.filterMap (fun e => rejection j batchId maxChars (answers e.2) e)
      ∧ st'.1.inserted + st'.1.updated + st'.1.rejected.length
        = st.1.inserted + st.1.updated + st.1.rejected.length + es.length
      ∧ st'.2.length + st.1.inserted = st.2.length + st'.1.inserted := by
  induction es generalizing st with
  | nil => exact ⟨rfl, (List.append_nil _).symm, rfl, rfl⟩
  | cons e es ih =>
      obtain ⟨htable, hrejected, hsum, hlength⟩ := ih (ingestRow j batchId maxChars (answers e.2) st e)
      obtain ⟨htable', hrejected', hsum', hlength'⟩ :=
        ingestRow_spec j batchId maxChars (answers e.2) st e
      dsimp only at htable hrejected hsum hlength ⊢
      rw [List.foldl_cons]
      refine ⟨?_, ?_, ?_, ?_⟩
      · rw [htable, htable', batchWrites, batchWrites, List.map_cons, List.foldl_cons]
      · rw [hrejected, hrejected', List.append_assoc, List.filterMap_cons]
        cases rejection j batchId maxChars (answers e.2) e <;> rfl
      · rw [hsum, hsum', List.length_cons]
        omega
      · omega

theorem rejected_sublist (answers : Nat → Answer) (es : List (SyntheticGoldRow × Nat)) :
    ((es.filterMap fun e => rejection j batchId maxChars (answers e.2) e).map RejectedRow.index).Sublist
      (es.map fun e => e.2) := by
  induction es with
  | nil => exact List.Sublist.slnil
  | cons e es ih =>
      rw [List.filterMap_cons]
      cases h : rejection j batchId maxChars (answers e.2) e with
      | none => exact ih.cons e.2
      | some x =>
          rw [List.map_cons, List.map_cons, (rejection_index j batchId maxChars h).1]
          exact ih.cons_cons e.2

/-- The counts add up, the table grows by the new rows, and exactly the rows that are not stored are
reported, each once and under its own hash. -/
theorem ingest_counts (answers : Nat → Answer) (rows : List SyntheticGoldRow)
    (table : List RoutingGoldPair) :
    let r := ingestRows j batchId maxChars answers rows table
    r.1.inserted + r.1.updated + r.1.rejected.length = rows.length
      ∧ r.2.length = table.length + r.1.inserted
      ∧ (r.1.rejected.map RejectedRow.index).Pairwise (fun a b => a < b)
      ∧ (∀ x ∈ r.1.rejected, (rows[x.index]?).map SyntheticGoldRow.promptHash = some x.promptHash)
      ∧ ∀ i, (∃ x ∈ r.1.rejected, x.index = i) ↔
        ∃ row, rows[i]? = some row ∧ (Write.synthetic batchId maxChars row).row j (answers i) = none := by
  obtain ⟨-, hrejected, hsum, hlength⟩ :=
    ingestRows_spec j batchId maxChars answers rows.zipIdx ({}, table)
  dsimp only at hrejected hsum hlength ⊢
  rw [← ingestRows] at hrejected hsum hlength
  rw [List.nil_append] at hrejected
  -- a reported row, with its place in the batch
  have hmem : ∀ x, x ∈ (ingestRows j batchId maxChars answers rows table).1.rejected ↔
      ∃ row, rows[x.index]? = some row
        ∧ rejection j batchId maxChars (answers x.index) (row, x.index) = some x := by
    intro x
    rw [hrejected, List.mem_filterMap]
    constructor
    · rintro ⟨⟨row, i⟩, hrow, hx⟩
      obtain ⟨rfl, -⟩ := rejection_index j batchId maxChars hx
      exact ⟨row, List.mem_zipIdx_iff_getElem?.mp hrow, hx⟩
    · rintro ⟨row, hrow, hx⟩
      exact ⟨(row, x.index), List.mem_zipIdx_iff_getElem?.mpr hrow, hx⟩
  refine ⟨?_, ?_, ?_, ?_, fun i => ⟨?_, ?_⟩⟩
  · simpa using hsum
  · simpa using hlength
  · rw [hrejected]
    refine List.Pairwise.sublist (rejected_sublist j batchId maxChars answers rows.zipIdx) ?_
    rw [show rows.zipIdx.map (fun e => e.2) = List.range' 0 rows.length from
      List.zipIdx_map_snd 0 rows]
    exact List.pairwise_lt_range'
  · intro x hx
    obtain ⟨row, hrow, hx⟩ := (hmem x).mp hx
    rw [hrow, Option.map_some, (rejection_index j batchId maxChars hx).2]
  · rintro ⟨x, hx, rfl⟩
    obtain ⟨row, hrow, hx⟩ := (hmem x).mp hx
    refine ⟨row, hrow, Option.not_isSome_iff_eq_none.mp fun hsome => ?_⟩
    have hnone := (rejection_eq_none_iff j batchId maxChars (answers x.index) (row, x.index)).mpr hsome
    rw [hx] at hnone
    cases hnone
  · rintro ⟨row, hrow, hnone⟩
    cases hx : rejection j batchId maxChars (answers i) (row, i) with
    | none =>
        have hsome := (rejection_eq_none_iff j batchId maxChars (answers i) (row, i)).mp hx
        rw [hnone] at hsome
        cases hsome
    | some x =>
        have hi : x.index = i := (rejection_index j batchId maxChars hx).1
        exact ⟨x, (hmem x).mpr ⟨row, by rw [hi]; exact hrow, by rw [hi]; exact hx⟩, hi⟩

/-! ## Sending a batch again -/

/-- The same answers, for other new rows. -/
def redraw (answers : Nat → Answer) (ids times : Nat → Nat) (i : Nat) : Answer :=
  { answers i with id := ids i, createdAt := times i }

theorem rejection_redraw (answers : Nat → Answer) (ids times : Nat → Nat) (i : Nat)
    (e : SyntheticGoldRow × Nat) :
    rejection j batchId maxChars (redraw answers ids times i) e
      = rejection j batchId maxChars (answers i) e := rfl

theorem key_synthetic {row : SyntheticGoldRow} {a : Answer} {r : RoutingGoldPair}
    (h : (Write.synthetic batchId maxChars row).row j a = some r) : r.key = some r.promptHash := by
  rw [Write.row, Option.bind_eq_some_iff] at h
  obtain ⟨new, hnew, h⟩ := h
  obtain ⟨taken, hstored, rfl⟩ := Option.map_eq_some_iff.mp h
  have hsource : new.provenance.source = "synthetic" := by
    rw [Write.new] at hnew
    cases hrow : syntheticRowToNew j batchId maxChars row with
    | error e => rw [hrow] at hnew; cases hnew
    | ok new' =>
        rw [hrow] at hnew
        obtain rfl : new' = new := Option.some.inj hnew
        exact (syntheticRowToNew_ok hrow).2.2.2.1
  have htaken : taken.provenance.source = "synthetic" := by
    split at hstored
    · cases hstored
    · have hcolumn := (stored_columns hstored).2.2
      rw [hsource] at hcolumn
      exact column_of_length_le (by decide) hcolumn
  exact if_pos htaken

theorem keyed_batch (answers : Nat → Answer) (es : List (SyntheticGoldRow × Nat)) :
    ∀ n ∈ written j (batchWrites batchId maxChars answers es), n.key ≠ none := by
  intro n hn
  obtain ⟨w, hw, hrow⟩ := List.mem_filterMap.mp hn
  obtain ⟨e, -, rfl⟩ := List.mem_map.mp hw
  rw [key_synthetic j batchId maxChars hrow]
  exact Option.some_ne_none _

theorem row_redraw (w : Write) (answers : Nat → Answer) (ids times : Nat → Nat) (i : Nat) :
    w.row j (redraw answers ids times i)
      = (w.row j (answers i)).map fun r => { r with id := ids i, createdAt := times i } := by
  rw [Write.row, Write.row, Option.map_bind]
  refine Option.bind_congr fun new _ => ?_
  rw [Function.comp_apply, Option.map_map]
  rfl

/-- A batch writes the same columns each time. -/
theorem written_redraw (answers : Nat → Answer) (ids times : Nat → Nat)
    (es : List (SyntheticGoldRow × Nat)) :
    List.Forall₂ (fun n n' => n'.key = n.key ∧ ∀ r : RoutingGoldPair, r.merge n' = r.merge n)
      (written j (batchWrites batchId maxChars answers es))
      (written j (batchWrites batchId maxChars (redraw answers ids times) es)) := by
  induction es with
  | nil => exact .nil
  | cons e es ih =>
      rw [batchWrites, batchWrites, List.map_cons, List.map_cons, written_cons, written_cons,
        row_redraw]
      cases (Write.synthetic batchId maxChars e.1).row j (answers e.2) with
      | none => exact ih
      | some row => exact .cons ⟨rfl, fun r => rfl⟩ ih

/-- A batch that is sent again, after any history, changes nothing: its rows are counted as updated,
and the same ones are reported. -/
theorem ingest_again (before : List (Write × Answer)) (answers : Nat → Answer)
    (ids times : Nat → Nat) (rows : List SyntheticGoldRow) :
    let r := ingestRows j batchId maxChars answers rows (history j before)
    ingestRows j batchId maxChars (redraw answers ids times) rows r.2
      = ({ inserted := 0, updated := r.1.inserted + r.1.updated, rejected := r.1.rejected }, r.2) := by
  intro r
  obtain ⟨htable, hrejected, hsum, -⟩ :=
    ingestRows_spec j batchId maxChars answers rows.zipIdx ({}, history j before)
  obtain ⟨htable', hrejected', hsum', hlength'⟩ :=
    ingestRows_spec j batchId maxChars (redraw answers ids times) rows.zipIdx ({}, r.2)
  dsimp only at htable hrejected hsum htable' hrejected' hsum' hlength'
  rw [← ingestRows] at htable hrejected hsum htable' hrejected' hsum' hlength'
  have hsame : (ingestRows j batchId maxChars (redraw answers ids times) rows r.2).2 = r.2 := by
    rw [htable', foldl_store, show r.2 = _ from htable, foldl_store]
    exact upsertAll_again RoutingGoldPair.key_merge RoutingGoldPair.merge_merge
      RoutingGoldPair.merge_self (keyed_history j before) (keyed_batch j batchId maxChars answers rows.zipIdx)
      (written_redraw j batchId maxChars answers ids times rows.zipIdx)
  have hreports : (ingestRows j batchId maxChars (redraw answers ids times) rows r.2).1.rejected
      = r.1.rejected := hrejected'.trans hrejected.symm
  have hinserted : (ingestRows j batchId maxChars (redraw answers ids times) rows r.2).1.inserted
      = 0 := by
    rw [hsame] at hlength'
    simpa using hlength'
  have hupdated : (ingestRows j batchId maxChars (redraw answers ids times) rows r.2).1.updated
      = r.1.inserted + r.1.updated := by
    rw [hreports, hinserted] at hsum'
    have hsum : r.1.inserted + r.1.updated + r.1.rejected.length = _ := hsum
    simp only [List.length_nil] at hsum hsum'
    omega
  refine Prod.ext ?_ hsame
  rw [← hreports, ← hupdated, ← hinserted]

end Batches

/-! ## The summary -/

theorem countP_add_countP {α : Type} {p q t : α → Bool} {l : List α}
    (h : ∀ x ∈ l, (p x).toNat + (q x).toNat = (t x).toNat) :
    l.countP p + l.countP q = l.countP t := by
  induction l with
  | nil => rfl
  | cons x l ih =>
      obtain ⟨hx, hl⟩ := List.forall_mem_cons.mp h
      have hcount : ∀ f : α → Bool, (x :: l).countP f = l.countP f + (f x).toNat := by
        intro f
        rw [List.countP_cons]
        cases f x <;> rfl
      rw [hcount p, hcount q, hcount t, ← ih hl, ← hx]
      omega

theorem key_eq_none_iff {r : RoutingGoldPair} (h : Valid r.toNewRoutingGoldPair) :
    r.key = none ↔ r.provenance.source = "live" := by
  rw [RoutingGoldPair.key]
  obtain hsource | ⟨hsource, -⟩ := h.source <;> simp [hsource]

/-- Every pair has one verdict or none, one source, and if it is synthetic one split. There are as
many live pairs as were stored, and as many synthetic ones as hashes. -/
theorem summary_counts (j : FeatureJson) (es : List (Write × Answer)) :
    let s := summary (history j es)
    s.cheapSufficed + s.strongBetter + s.failed = s.total
      ∧ s.live + s.synthetic = s.total
      ∧ s.syntheticTrain + s.syntheticHoldout = s.synthetic
      ∧ s.ties ≤ s.cheapSufficed
      ∧ s.syntheticAgreed ≤ s.synthetic
      ∧ s.live = (written j es).countP (fun r => r.key = none)
      ∧ s.synthetic = ((written j es).filterMap RoutingGoldPair.key).dedup.length := by
  intro s
  have hvalid := valid_history j es
  have hverdicts : s.cheapSufficed + s.strongBetter
      = (history j es).countP fun r => r.verdict.isSome := by
    refine countP_add_countP fun r hr => ?_
    obtain h | h | h | h := (hvalid r hr).verdict <;> rw [h] <;> rfl
  have hall : ∀ l : List RoutingGoldPair, l.countP (fun _ => true) = l.length :=
    fun l => congrFun List.countP_true l
  have hlive : s.live = (history j es).countP (fun r => r.key = none) := by
    refine List.countP_congr fun r hr => ?_
    simp [key_eq_none_iff (hvalid r hr)]
  have hsynthetic : s.synthetic = ((history j es).filterMap RoutingGoldPair.key).length := by
    rw [List.length_filterMap_eq_countP]
    refine List.countP_congr fun r hr => ?_
    rw [RoutingGoldPair.key]
    split <;> simp_all
  refine ⟨?_, ?_, ?_, ?_, ?_, ?_, ?_⟩
  · rw [hverdicts]
    refine (countP_add_countP fun r _ => ?_).trans (hall _)
    cases r.verdict <;> rfl
  · refine (countP_add_countP fun r hr => ?_).trans (hall _)
    obtain h | ⟨h, -⟩ := (hvalid r hr).source <;> rw [h] <;> rfl
  · refine countP_add_countP fun r hr => ?_
    obtain h | h := (hvalid r hr).split <;> rw [h] <;> cases r.provenance.source == "synthetic" <;> rfl
  · refine List.countP_mono_left fun r _ h => ?_
    simp_all
  · refine List.countP_mono_left fun r _ h => ?_
    simp_all
  · rw [hlive, List.countP_eq_length_filter, live_history, ← List.countP_eq_length_filter]
  · -- the keys of the table are the hashes that were written
    rw [hsynthetic]
    refine ((List.perm_ext_iff_of_nodup (keyed_history j es) (List.nodup_dedup _)).mpr
      fun hash => ?_).length_eq
    rw [List.mem_dedup, history_eq, mem_keys_upsertAll RoutingGoldPair.key_merge]
    exact or_iff_right fun h => by cases h

/-! ## Long batch ids -/

theorem isAsciiHexdigit_ok {c : Char} (h : isAsciiHexdigit c = true) : c.utf8Size = 1 ∧ c ≠ ' ' := by
  simp only [isAsciiHexdigit, Bool.or_eq_true, Bool.and_eq_true, decide_eq_true_eq, Char.le_def,
    UInt32.le_iff_toNat_le] at h
  have hval : 48 ≤ c.val.toNat ∧ c.val.toNat ≤ 102 := by
    obtain (⟨hl, hu⟩ | ⟨hl, hu⟩) | ⟨hl, hu⟩ := h <;>
      exact ⟨le_trans (by decide) hl, le_trans hu (by decide)⟩
  constructor
  · rw [Char.utf8Size, if_pos]
    rw [UInt32.le_iff_toNat_le]
    exact le_trans hval.2 (by decide)
  · rintro rfl
    exact absurd hval.1 (by decide)

theorem length_of_hex {s : String} (h : s.toList.all isAsciiHexdigit = true) :
    s.toList.length = s.utf8ByteSize := by
  have hlist : ∀ l : List Char, l.all isAsciiHexdigit = true → String.utf8Len l = l.length := by
    intro l hl
    induction l with
    | nil => rfl
    | cons c l ih =>
        rw [List.all_cons, Bool.and_eq_true] at hl
        rw [String.utf8Len_cons, ih hl.2, (isAsciiHexdigit_ok hl.1).1, List.length_cons]
  rw [← hlist _ h, ← String.utf8ByteSize_ofList, String.ofList_toList]

/-- With a batch id of more than 73 characters the id of a row is too long for its column, and it
does not end in spaces. -/
theorem column_responseId {batchId hash : String} (hlong : 73 < batchId.length)
    (hlength : 16 ≤ hash.utf8ByteSize) (hhex : hash.toList.all isAsciiHexdigit = true) :
    column 100 ("synthetic:" ++ batchId ++ ":" ++ clip 16 hash) = none := by
  rw [← String.length_toList] at hlong
  rw [← length_of_hex hhex] at hlength
  -- what is cut off is the end of the hash
  have htext : ("synthetic:" ++ batchId ++ ":" ++ clip 16 hash).toList
      = ("synthetic:".toList ++ batchId.toList ++ ":".toList) ++ hash.toList.take 16 := by
    simp only [String.toList_append, clip, String.toList_ofList]
  have hfront : ("synthetic:".toList ++ batchId.toList ++ ":".toList).length
      = 11 + batchId.toList.length := by
    simp only [List.length_append]
    rw [show "synthetic:".toList.length = 10 from by decide, show ":".toList.length = 1 from by decide]
    omega
  obtain ⟨c, hc⟩ : ∃ c, c ∈ (hash.toList.take 16).drop (100 - (11 + batchId.toList.length)) := by
    refine List.exists_mem_of_length_pos ?_
    rw [List.length_drop, List.length_take]
    omega
  refine if_neg fun hspaces => ?_
  rw [htext, List.drop_append, hfront, List.all_append, Bool.and_eq_true] at hspaces
  have hspace : c = ' ' := by simpa using List.all_eq_true.mp hspaces.2 c hc
  have hhexdigit : isAsciiHexdigit c = true :=
    List.all_eq_true.mp hhex c (List.mem_of_mem_take (List.mem_of_mem_drop hc))
  exact (isAsciiHexdigit_ok hhexdigit).2 hspace

theorem row_of_long (j : FeatureJson) {batchId : String} (hlong : 73 < batchId.length)
    (maxChars : Nat) (row : SyntheticGoldRow) (a : Answer) :
    (Write.synthetic batchId maxChars row).row j a = none := by
  rw [Write.row, Option.bind_eq_none_iff]
  intro new hnew
  cases hrow : syntheticRowToNew j batchId maxChars row with
  | error e =>
      rw [Write.new, hrow] at hnew
      cases hnew
  | ok new' =>
      rw [Write.new, hrow] at hnew
      obtain rfl : new' = new := Option.some.inj hnew
      obtain ⟨-, hlength, hhex, -, -, hid⟩ := syntheticRowToNew_ok hrow
      rw [Option.map_eq_none_iff]
      split
      · rfl
      · refine Option.eq_none_iff_forall_ne_some.mpr fun s hs => ?_
        have hcolumn := (stored_columns hs).1
        rw [hid, column_responseId hlong hlength hhex] at hcolumn
        cases hcolumn

theorem ingestRows_of_long (j : FeatureJson) {batchId : String} (hlong : 73 < batchId.length)
    (maxChars : Nat) (answers : Nat → Answer) (rows : List SyntheticGoldRow)
    (table : List RoutingGoldPair) :
    let r := ingestRows j batchId maxChars answers rows table
    r.2 = table ∧ r.1.inserted = 0 ∧ r.1.updated = 0 ∧ r.1.rejected.length = rows.length := by
  obtain ⟨htable, hrejected, hsum, hlength⟩ :=
    ingestRows_spec j batchId maxChars answers rows.zipIdx ({}, table)
  dsimp only at htable hrejected hsum hlength ⊢
  rw [← ingestRows] at htable hrejected hsum hlength
  have hwritten : written j (batchWrites batchId maxChars answers rows.zipIdx) = [] := by
    refine List.filterMap_eq_nil_iff.mpr fun w hw => ?_
    obtain ⟨e, -, rfl⟩ := List.mem_map.mp hw
    exact row_of_long j hlong maxChars e.1 (answers e.2)
  have hall : rows.zipIdx.countP (fun e => (rejection j batchId maxChars (answers e.2) e).isSome)
      = rows.zipIdx.length := by
    refine List.countP_eq_length.mpr fun e _ => ?_
    rw [← Option.ne_none_iff_isSome, Ne, rejection_eq_none_iff,
      row_of_long j hlong maxChars e.1 (answers e.2)]
    exact Bool.false_ne_true
  have htable : (ingestRows j batchId maxChars answers rows table).2 = table := by
    rw [htable, foldl_store, hwritten]
    rfl
  have hrejected : (ingestRows j batchId maxChars answers rows table).1.rejected.length
      = rows.length := by
    rw [hrejected, List.nil_append, List.length_filterMap_eq_countP, hall, List.length_zipIdx]
  rw [htable] at hlength
  rw [hrejected, List.length_zipIdx] at hsum
  simp only [List.length_nil] at hsum hlength
  exact ⟨htable, by omega, by omega, hrejected⟩

namespace Sample

def json : FeatureJson where
  read := fun _ => .ok {}
  write := fun _ => .object []

def row : SyntheticGoldRow where
  promptHash := "0123456789abcdef"
  features := .object []
  intendedTier := "simple"
  labelTier := "simple"
  tierA := "simple"
  modelA := "small"
  tierB := "complex"
  modelB := "large"
  judgeModel := "judge"

def longBatch : SyntheticGoldBatch := ⟨String.ofList (List.replicate 74 'b'), [row]⟩

theorem longBatch_length : longBatch.batchId.length = 74 :=
  String.length_ofList.trans List.length_replicate

def answers (i : Nat) : Answer := ⟨false, "", i, 0⟩

/-- What becomes of the batch. -/
def ingested : Except (Nat × String) (String × Ingested) × List RoutingGoldPair :=
  ingestSyntheticGold true json none answers longBatch []

theorem ingested_ok : ingested.1.toOption.isSome = true := by
  rw [ingested, ingestSyntheticGold, if_neg (by decide), if_neg (by decide +kernel),
    if_neg (by decide)]
  rfl

end Sample

end AuraGateway.Router.Gold
