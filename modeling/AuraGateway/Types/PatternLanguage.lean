import AuraGateway.Foundations.GlobLanguage
import AuraGateway.Types.Routing

/-!
# What allow and deny patterns accept

`globMatches` decides the glob language of its pattern except on texts in which the
first and the last segment of a pattern with two or more stars overlap
(`globMatches_decides`). There it answers `true` when all middle segments are empty
and panics otherwise. `pattern_matches_glob_iff` carries the condition over to
`patternMatches`.
-/

set_option autoImplicit false

namespace AuraGateway.Types

open AuraGateway.RustStd AuraGateway.Foundations.GlobLanguage

/-! ## The middle loop -/

/-- Empty segments are skipped. -/
theorem globMiddle_of_empty (text : List Char) (stop pos : Nat) (segs : List (List Char))
    (h : ∀ s ∈ segs, s = []) : globMiddle text stop pos segs = .ok true := by
  induction segs with
  | nil => rfl
  | cons seg rest ih =>
      have hseg : seg = [] := h seg List.mem_cons_self
      have hrest : ∀ s ∈ rest, s = [] := fun s hs => h s (List.mem_cons_of_mem seg hs)
      rw [hseg]
      exact ih hrest

/-- A non-empty segment is searched for in a window; when the window's ends have
crossed, that panics. -/
theorem globMiddle_of_crossed {text : List Char} {stop pos : Nat} (hpos : stop < pos)
    {segs : List (List Char)} (h : ∃ s ∈ segs, s ≠ []) :
    globMiddle text stop pos segs = .error (.slice pos stop) := by
  induction segs with
  | nil => simp at h
  | cons seg rest ih =>
      by_cases hseg : seg = []
      · have hrest : ∃ s ∈ rest, s ≠ [] := by
          obtain ⟨s, hs, hne⟩ := h
          rcases List.mem_cons.mp hs with rfl | hs
          · exact absurd hseg hne
          · exact ⟨s, hs, hne⟩
        rw [hseg]
        exact ih hrest
      · have hslice : slice text pos stop = .error (.slice pos stop) := by
          simp only [slice]
          exact if_neg fun hc => absurd hc.1 (Nat.not_le.mpr hpos)
        have hempty : seg.isEmpty = false := by simpa using hseg
        simp only [globMiddle]
        rw [hempty, if_neg Bool.false_ne_true, hslice]
        rfl

/-- An occurrence ends inside the text searched. -/
theorem find_add_length_le {s t : List Char} {i : Nat} (hs : s ≠ []) (h : find s t = some i) :
    i + s.length ≤ t.length := by
  have hlen := congrArg List.length (find_eq_some h)
  have hpos : 0 < s.length := List.length_pos_iff.mpr hs
  simp only [List.length_append, List.length_take, List.length_drop] at hlen
  omega

/-- Over a window `pos..stop` of the text the loop decides whether the segments occur
in order in the window. -/
theorem globMiddle_decides {text : List Char} {stop : Nat} (hstop : stop ≤ text.length)
    (segs : List (List Char)) (pos : Nat) (hpos : pos ≤ stop) :
    ∃ b, globMiddle text stop pos segs = .ok b ∧
      (b = true ↔ InOrder segs ((text.take stop).drop pos)) := by
  -- The window shrinks from the left as segments are found, and never inverts.
  induction segs generalizing pos with
  | nil => exact ⟨true, rfl, by simp [InOrder]⟩
  | cons seg rest ih =>
      by_cases hseg : seg = []
      · obtain ⟨b, hb, hiff⟩ := ih pos hpos
        refine ⟨b, ?_, ?_⟩
        · rw [hseg]
          exact hb
        · rw [hiff, hseg, inOrder_nil_cons]
      · have hslice : slice text pos stop = .ok ((text.take stop).drop pos) :=
          if_pos ⟨hpos, hstop⟩
        have hempty : seg.isEmpty = false := by simpa using hseg
        simp only [inOrder_cons_iff_find]
        cases hf : find seg ((text.take stop).drop pos) with
        | none =>
            have hloop : globMiddle text stop pos (seg :: rest) = .ok false := by
              simp [globMiddle, hempty, hslice, hf]
            exact ⟨false, hloop, by simp⟩
        | some i =>
            have hloop : globMiddle text stop pos (seg :: rest)
                = globMiddle text stop (pos + (i + seg.length)) rest := by
              simp [globMiddle, hempty, hslice, hf]
            have hle := find_add_length_le hseg hf
            have hpos' : pos + (i + seg.length) ≤ stop := by
              simp only [List.length_drop, List.length_take] at hle
              omega
            obtain ⟨b, hb, hiff⟩ := ih _ hpos'
            refine ⟨b, hloop.trans hb, ?_⟩
            rw [hiff, ← List.drop_drop]
            simp

/-! ## Segments -/

section Segments

variable (pattern : List Char)

/-- What stands in front of the first star. -/
def firstSegment : List Char := (pattern.splitOn '*').headD []

/-- What stands behind the last star. -/
def lastSegment : List Char := (pattern.splitOn '*').getLastD []

/-- What stands between neighbouring stars. -/
def middleSegments : List (List Char) := (pattern.splitOn '*').tail.dropLast

/-- The stars of the pattern are adjacent. -/
def MiddleEmpty : Prop := ∀ s ∈ middleSegments pattern, s = []

/-- The text starts with the first segment and ends with the last. -/
def EndsMatch (text : List Char) : Prop :=
  firstSegment pattern <+: text ∧ lastSegment pattern <:+ text

/-- The text is long enough for the first and the last segment side by side. -/
def EndsFit (text : List Char) : Prop :=
  (firstSegment pattern).length + (lastSegment pattern).length ≤ text.length

/-- A pattern with two or more stars whose first and last segment are the ends of the
text but overlap in it. -/
def EndsOverlap (text : List Char) : Prop :=
  middleSegments pattern ≠ [] ∧ EndsMatch pattern text ∧ ¬ EndsFit pattern text

variable (text : List Char)

instance : Decidable (MiddleEmpty pattern) :=
  inferInstanceAs (Decidable (∀ s ∈ middleSegments pattern, s = []))

instance : Decidable (EndsMatch pattern text) :=
  inferInstanceAs (Decidable (firstSegment pattern <+: text ∧ lastSegment pattern <:+ text))

instance : Decidable (EndsFit pattern text) :=
  inferInstanceAs
    (Decidable ((firstSegment pattern).length + (lastSegment pattern).length ≤ text.length))

instance : Decidable (EndsOverlap pattern text) :=
  inferInstanceAs (Decidable
    (middleSegments pattern ≠ [] ∧ EndsMatch pattern text ∧ ¬ EndsFit pattern text))

end Segments

section OneText

variable {pattern text : List Char}

/-- A pattern with a star has a first and a last segment. -/
theorem splitOn_eq_segments (h : '*' ∈ pattern) :
    pattern.splitOn '*'
      = firstSegment pattern :: (middleSegments pattern ++ [lastSegment pattern]) := by
  obtain ⟨xs, ys, rfl⟩ := List.append_of_mem h
  obtain ⟨first, mid₁, hx⟩ := List.exists_cons_of_ne_nil (List.splitOn_ne_nil '*' xs)
  obtain ⟨mid₂, last, hy⟩ := List.eq_nil_or_concat (ys.splitOn '*') |>.resolve_left
    (List.splitOn_ne_nil '*' ys)
  have hsplit : (xs ++ '*' :: ys).splitOn '*' = first :: (mid₁ ++ mid₂ ++ [last]) := by
    rw [List.splitOn_append_cons_self, hx, hy]
    simp
  simp only [firstSegment, middleSegments, lastSegment]
  rw [hsplit, List.tail_cons, List.dropLast_concat, List.headD_cons, List.getLastD_cons]
  simp

/-- The glob language of a pattern with a star, by its segments. -/
theorem glob_iff_ends (h : '*' ∈ pattern) :
    Glob '*' pattern text ↔ EndsMatch pattern text ∧ EndsFit pattern text ∧
      InOrder (middleSegments pattern)
        ((text.take (text.length - (lastSegment pattern).length)).drop
          (firstSegment pattern).length) := by
  rw [glob_iff_segmented, splitOn_eq_segments h, segmented_ends_iff]
  constructor
  · intro hbody
    obtain ⟨body, ht, hin⟩ := hbody
    have hfit : EndsFit pattern text := by
      simp only [EndsFit]
      rw [ht]
      simp
    refine ⟨⟨?_, ?_⟩, hfit, ?_⟩
    · exact ⟨_, ht.symm⟩
    · exact ⟨firstSegment pattern ++ body, by rw [ht, List.append_assoc]⟩
    · have hcut : (text.take (text.length - (lastSegment pattern).length)).drop
          (firstSegment pattern).length = body := by
        rw [ht, ← List.append_assoc, List.length_append, Nat.add_sub_cancel,
          List.take_left, List.drop_left]
      rw [hcut]
      exact hin
  · intro hends
    -- `b` is the text without the last segment; it starts with the first one
    obtain ⟨⟨⟨a, ha⟩, b, hb⟩, hfit, hin⟩ := hends
    refine ⟨_, ?_, hin⟩
    have hlen : text.length - (lastSegment pattern).length = b.length := by
      rw [← hb, List.length_append, Nat.add_sub_cancel]
    have hle : (firstSegment pattern).length ≤ b.length := by
      simp only [EndsFit] at hfit
      omega
    have hpre : firstSegment pattern <+: b := by
      apply List.prefix_of_prefix_length_le ⟨a, ha⟩ ⟨_, hb⟩ hle
    obtain ⟨body, hbody⟩ := hpre
    rw [hlen, ← hb, List.take_left, ← hbody, List.drop_left, List.append_assoc]

/-- The matcher, by its segments. -/
theorem globMatches_eq (h : '*' ∈ pattern) :
    globMatches pattern text =
      if ¬ EndsMatch pattern text then .ok false
      else if middleSegments pattern = [] then .ok (decide (EndsFit pattern text))
      else globMiddle text (text.length - (lastSegment pattern).length)
        (firstSegment pattern).length (middleSegments pattern) := by
  have hsplit := splitOn_eq_segments h
  have hslice : slice (pattern.splitOn '*') 1 ((pattern.splitOn '*').length - 1)
      = .ok (middleSegments pattern) := by
    simp only [slice]
    rw [hsplit]
    simp
  have htwo : (pattern.splitOn '*').length = 2 ↔ middleSegments pattern = [] := by
    rw [hsplit]
    simp
  simp only [globMatches]
  change (if !(firstSegment pattern).isPrefixOf text || !(lastSegment pattern).isSuffixOf text
    then Except.ok false
    else if (pattern.splitOn '*').length = 2 then Except.ok (decide (EndsFit pattern text))
    else slice (pattern.splitOn '*') 1 ((pattern.splitOn '*').length - 1) >>= _) = _
  rw [hslice, checked_ok_bind]
  have hends : (!(firstSegment pattern).isPrefixOf text || !(lastSegment pattern).isSuffixOf text)
      = true ↔ ¬ EndsMatch pattern text := by
    simp only [EndsMatch]
    rw [← List.isPrefixOf_iff_prefix, ← List.isSuffixOf_iff_suffix, ← Bool.and_eq_true,
      ← Bool.not_and, Bool.not_eq_true, Bool.not_eq_true']
  simp only [htwo, hends]
  rfl

/-- Unless its ends overlap in the text, the matcher decides the glob language. -/
theorem globMatches_decides (h : '*' ∈ pattern) (hno : ¬ EndsOverlap pattern text) :
    ∃ b, globMatches pattern text = .ok b ∧ (b = true ↔ Glob '*' pattern text) := by
  rw [globMatches_eq h, glob_iff_ends h]
  by_cases hends : EndsMatch pattern text
  · rw [if_neg (not_not.mpr hends)]
    by_cases hmid : middleSegments pattern = []
    · rw [if_pos hmid, hmid]
      exact ⟨_, rfl, by simp [hends, InOrder]⟩
    · rw [if_neg hmid]
      have hfit : EndsFit pattern text := by
        by_contra hc
        exact hno ⟨hmid, hends, hc⟩
      have hstop : text.length - (lastSegment pattern).length ≤ text.length := Nat.sub_le _ _
      have hpos : (firstSegment pattern).length
          ≤ text.length - (lastSegment pattern).length := by
        simp only [EndsFit] at hfit
        omega
      obtain ⟨b, hb, hiff⟩ := globMiddle_decides hstop (middleSegments pattern) _ hpos
      refine ⟨b, hb, ?_⟩
      rw [hiff]
      exact ⟨fun hin => ⟨hends, hfit, hin⟩, fun hall => hall.2.2⟩
  · rw [if_pos hends]
    exact ⟨false, rfl, by simp [hends]⟩

/-- A text in which the ends overlap is not in the glob language. -/
theorem not_glob_of_overlap (h : '*' ∈ pattern) (ho : EndsOverlap pattern text) :
    ¬ Glob '*' pattern text := by
  rw [glob_iff_ends h]
  intro hall
  exact ho.2.2 hall.2.1

/-- Where the ends overlap and the stars are adjacent, the matcher accepts. -/
theorem globMatches_of_overlap_empty (h : '*' ∈ pattern) (ho : EndsOverlap pattern text)
    (hempty : MiddleEmpty pattern) : globMatches pattern text = .ok true := by
  rw [globMatches_eq h, if_neg (not_not.mpr ho.2.1), if_neg ho.1]
  exact globMiddle_of_empty _ _ _ _ hempty

/-- Where the ends overlap and a middle segment is to be searched for, it panics. -/
theorem globMatches_of_overlap_nonempty (h : '*' ∈ pattern) (ho : EndsOverlap pattern text)
    (hne : ¬ MiddleEmpty pattern) : ∃ p, globMatches pattern text = .error p := by
  have hcrossed : text.length - (lastSegment pattern).length
      < (firstSegment pattern).length := by
    obtain ⟨-, ⟨-, b, hb⟩, hfit⟩ := ho
    have hlen := congrArg List.length hb
    simp only [EndsFit] at hfit
    rw [List.length_append] at hlen
    omega
  have hsome : ∃ s ∈ middleSegments pattern, s ≠ [] := by
    simpa [MiddleEmpty] using hne
  have hpanic : globMiddle text _ _ (middleSegments pattern) = .error _ :=
    globMiddle_of_crossed hcrossed hsome
  rw [globMatches_eq h, if_neg (not_not.mpr ho.2.1), if_neg ho.1]
  exact ⟨_, hpanic⟩

/-- With adjacent stars only the ends and the length matter. -/
theorem glob_iff_of_middleEmpty (h : '*' ∈ pattern) (hempty : MiddleEmpty pattern) :
    Glob '*' pattern text ↔ EndsMatch pattern text ∧ EndsFit pattern text := by
  have hin : ∀ (segs : List (List Char)) (t : List Char), (∀ s ∈ segs, s = []) →
      InOrder segs t := by
    intro segs t hs
    induction segs with
    | nil => trivial
    | cons s rest ih =>
        rw [hs s List.mem_cons_self, inOrder_nil_cons]
        exact ih fun x hx => hs x (List.mem_cons_of_mem s hx)
  rw [glob_iff_ends h]
  exact ⟨fun hall => ⟨hall.1, hall.2.1⟩, fun hall => ⟨hall.1, hall.2, hin _ _ hempty⟩⟩

end OneText

/-! ## Model id and qualified name -/

/-- Lowering a text keeps its stars. -/
theorem star_mem_lower {t : List Char} : '*' ∈ t.map Char.toLower ↔ '*' ∈ t := by
  have hstar : ∀ c : Char, c.toLower = '*' ↔ c = '*' := by
    intro c
    constructor
    · intro hc
      simp only [Char.toLower] at hc
      split at hc
      · rename_i hup
        -- A letter's lower case is a letter.
        have hval : c.val + 32 = 42 := congrArg Char.val hc
        have hnat := congrArg UInt32.toNat hval
        have hlow : 65 ≤ c.val.toNat := hup.1
        have hhigh : c.val.toNat ≤ 90 := hup.2
        rw [UInt32.toNat_add] at hnat
        simp only [UInt32.reduceToNat] at hnat
        omega
      · exact hc
    · rintro rfl
      rfl
  simp only [List.mem_map, hstar, exists_eq_right]

/-- Trimming whitespace keeps the stars. -/
theorem star_mem_trim {t : List Char} : '*' ∈ trimChars t ↔ '*' ∈ t := by
  have hdrop : ∀ l : List Char, '*' ∈ l.dropWhile isWhitespace ↔ '*' ∈ l := by
    intro l
    constructor
    · exact fun hl => (List.dropWhile_sublist _).mem hl
    · intro hl
      rw [← List.takeWhile_append_dropWhile (p := isWhitespace) (l := l)] at hl
      rcases List.mem_append.mp hl with h | h
      · have hspace : isWhitespace '*' = true := List.all_eq_true.mp List.all_takeWhile _ h
        exact absurd hspace (by decide)
      · exact h
  simp only [trimChars]
  rw [List.mem_reverse, hdrop, List.mem_reverse, hdrop]

/-- The pattern as the matcher reads it has a star when the pattern has one. -/
theorem star_mem_normalized {pattern : String} :
    '*' ∈ (normalizedPattern pattern).toList ↔ '*' ∈ pattern.toList := by
  simp only [normalizedPattern, toAsciiLowercase, trim]
  rw [String.toList_ofList, star_mem_lower, String.toList_ofList, star_mem_trim]

/-- A pattern without a star has one segment. -/
theorem not_overlap_of_starless {pattern text : List Char} (h : '*' ∉ pattern) :
    ¬ EndsOverlap pattern text := by
  intro ho
  apply ho.1
  simp only [middleSegments]
  rw [List.splitOn_eq_singleton h]
  rfl

/-- The condition under which a pattern is decided correctly on a model id and a
qualified name: the ends overlap in neither, or only in the model id of a pattern with
adjacent stars that the qualified name matches. -/
def DecidesBoth (pattern model qualified : List Char) : Prop :=
  ¬ EndsOverlap pattern qualified ∧
    (¬ EndsOverlap pattern model ∨
      MiddleEmpty pattern ∧ EndsMatch pattern qualified ∧ EndsFit pattern qualified)

/-- Matching a model id and then a longer qualified name gives the union of the glob
languages exactly under `DecidesBoth`. -/
theorem matches_either_iff {p m q : List Char} (h : '*' ∈ p) (hlen : m.length ≤ q.length)
    {x : Checked Bool}
    (hx : x = globMatches p m >>= fun b => if b = true then .ok true else globMatches p q) :
    ((∃ b, x = .ok b) ∧ (x = .ok true ↔ Glob '*' p m ∨ Glob '*' p q)) ↔ DecidesBoth p m q := by
  by_cases hm : EndsOverlap p m
  · have hnm : ¬ Glob '*' p m := not_glob_of_overlap h hm
    by_cases hempty : MiddleEmpty p
    · -- The model id is accepted wrongly, which only the qualified name can make right.
      have hxt : x = .ok true := by
        rw [hx, globMatches_of_overlap_empty h hm hempty]
        rfl
      rw [hxt]
      constructor
      · intro hall
        have hq := (hall.2.mp rfl).resolve_left hnm
        have hends := (glob_iff_of_middleEmpty h hempty).mp hq
        exact ⟨fun ho => ho.2.2 hends.2, Or.inr ⟨hempty, hends⟩⟩
      · intro hcond
        obtain ⟨-, hends⟩ := hcond.2.resolve_left (not_not.mpr hm)
        have hq := (glob_iff_of_middleEmpty h hempty).mpr hends
        exact ⟨⟨true, rfl⟩, fun _ => Or.inr hq, fun _ => rfl⟩
    · -- The model id panics, and the qualified name is never asked.
      obtain ⟨e, he⟩ := globMatches_of_overlap_nonempty h hm hempty
      have hxe : x = .error e := by
        rw [hx, he]
        rfl
      rw [hxe]
      constructor
      · intro hall
        obtain ⟨b, hb⟩ := hall.1
        cases hb
      · intro hcond
        exact absurd (hcond.2.resolve_left (not_not.mpr hm)).1 hempty
  · obtain ⟨b, hb, hiff⟩ := globMatches_decides h hm
    rw [hb, checked_ok_bind] at hx
    by_cases hq : EndsOverlap p q
    · -- The qualified name is at least as long, so the model id is not matched either
      -- and the second call decides: it accepts wrongly or panics.
      have hnq : ¬ Glob '*' p q := not_glob_of_overlap h hq
      have hnm : ¬ Glob '*' p m := by
        intro hg
        have hfit := ((glob_iff_ends h).mp hg).2.1
        exact hq.2.2 (le_trans hfit hlen)
      have hbf : b = false := by
        rw [← Bool.not_eq_true, hiff]
        exact hnm
      rw [hbf, if_neg Bool.false_ne_true] at hx
      constructor
      · intro hall
        exfalso
        by_cases hempty : MiddleEmpty p
        · rw [globMatches_of_overlap_empty h hq hempty] at hx
          exact (hall.2.mp hx).elim hnm hnq
        · obtain ⟨e, he⟩ := globMatches_of_overlap_nonempty h hq hempty
          obtain ⟨b', hb'⟩ := hall.1
          rw [hx, he] at hb'
          cases hb'
      · intro hcond
        exact absurd hq hcond.1
    · -- Neither overlaps: both calls decide their languages.
      obtain ⟨b', hb', hiff'⟩ := globMatches_decides h hq
      rw [hb'] at hx
      constructor
      · intro _
        exact ⟨hq, Or.inl hm⟩
      · intro _
        rw [← hiff, ← hiff', hx]
        cases b <;> cases b' <;> simp

section Matches

variable {pattern provider model : String}

/-- `"*"` is answered before any splitting. -/
theorem patternMatches_of_lone_star (h : normalizedPattern pattern = "*") :
    patternMatches pattern provider model = .ok true := by
  simp only [patternMatches]
  rw [h]
  rfl

/-- Any other pattern with a star is asked of the model id and then of the qualified name. -/
theorem patternMatches_of_star (hstar : '*' ∈ (normalizedPattern pattern).toList)
    (hlone : normalizedPattern pattern ≠ "*") :
    patternMatches pattern provider model
      = globMatches (normalizedPattern pattern).toList (toAsciiLowercase model).toList
          >>= fun b => if b = true then .ok true
            else globMatches (normalizedPattern pattern).toList
              (qualifiedName provider model).toList := by
  have hne : (normalizedPattern pattern).isEmpty = false := by
    by_contra hc
    have hnil : normalizedPattern pattern = "" := by simpa using hc
    rw [hnil] at hstar
    cases hstar
  have hcontains : (normalizedPattern pattern).toList.contains '*' = true := by
    simpa using hstar
  simp only [patternMatches]
  rw [hne, if_neg Bool.false_ne_true, if_neg hlone, hcontains]
  rfl

/-- A pattern without a star is compared as a whole, which always returns. -/
theorem exists_patternMatches_of_starless (h : '*' ∉ (normalizedPattern pattern).toList) :
    ∃ b, patternMatches pattern provider model = .ok b := by
  have hcontains : (normalizedPattern pattern).toList.contains '*' = false := by
    simpa using h
  simp only [patternMatches]
  rw [hcontains]
  split
  · exact ⟨_, rfl⟩
  · split
    · exact ⟨_, rfl⟩
    · exact ⟨_, rfl⟩

theorem length_model_le_qualifiedName (provider model : String) :
    (toAsciiLowercase model).toList.length ≤ (qualifiedName provider model).toList.length := by
  simp only [qualifiedName]
  rw [String.toList_append, String.toList_append, List.length_append]
  omega

end Matches

/-- `patternMatches` returns for every pattern, and for a pattern with a star answers
`true` exactly on the glob language of the trimmed, lowered pattern, if and only if the
pattern's ends do not overlap in the texts it is matched against (`DecidesBoth`). -/
theorem pattern_matches_glob_iff (pattern provider model : String) :
    ((∃ b, patternMatches pattern provider model = .ok b) ∧
      ('*' ∈ pattern.toList →
        (patternMatches pattern provider model = .ok true ↔
          Glob '*' (normalizedPattern pattern).toList (toAsciiLowercase model).toList ∨
            Glob '*' (normalizedPattern pattern).toList
              (qualifiedName provider model).toList))) ↔
      DecidesBoth (normalizedPattern pattern).toList (toAsciiLowercase model).toList
        (qualifiedName provider model).toList := by
  by_cases hstar : '*' ∈ pattern.toList
  · have hp := star_mem_normalized.mpr hstar
    by_cases hlone : normalizedPattern pattern = "*"
    · have hall : ∀ t, Glob '*' (normalizedPattern pattern).toList t := by
        intro t
        rw [hlone]
        have hrun : Glob '*' ('*' :: []) (t ++ []) := .run t .nil
        simpa using hrun
      have hno : ∀ t, ¬ EndsOverlap (normalizedPattern pattern).toList t := by
        intro t ho
        rw [hlone] at ho
        exact ho.1 rfl
      have htrue : patternMatches pattern provider model = .ok true :=
        patternMatches_of_lone_star hlone
      constructor
      · intro _
        exact ⟨hno _, Or.inl (hno _)⟩
      · intro _
        exact ⟨⟨true, htrue⟩, fun _ => ⟨fun _ => Or.inl (hall _), fun _ => htrue⟩⟩
    · rw [← matches_either_iff hp (length_model_le_qualifiedName provider model)
        (patternMatches_of_star hp hlone)]
      simp only [hstar, true_implies]
  · have hp : '*' ∉ (normalizedPattern pattern).toList := fun h => hstar (star_mem_normalized.mp h)
    have hno : ∀ t, ¬ EndsOverlap (normalizedPattern pattern).toList t :=
      fun t => not_overlap_of_starless hp
    constructor
    · intro _
      exact ⟨hno _, Or.inl (hno _)⟩
    · intro _
      exact ⟨exists_patternMatches_of_starless hp, fun h => absurd h hstar⟩

/-- On the model id `"aba"` the pattern `"ab*x*ba"` panics, and `"ab**ba"` is accepted
although neither text is in its glob language. -/
theorem pattern_overlap_broken :
    patternMatches "ab*x*ba" "openai" "aba" = .error (.slice 2 1) ∧
      patternMatches "ab**ba" "openai" "aba" = .ok true ∧
      ¬ (Glob '*' (normalizedPattern "ab**ba").toList (toAsciiLowercase "aba").toList ∨
        Glob '*' (normalizedPattern "ab**ba").toList (qualifiedName "openai" "aba").toList) := by
  refine ⟨by decide, by decide, ?_⟩
  rw [glob_iff_of_middleEmpty (by decide) (by decide),
    glob_iff_of_middleEmpty (by decide) (by decide)]
  decide

end AuraGateway.Types
