import Mathlib

/-!
# The order of IEEE doubles

`Float` carries a logical model, but its comparisons come without order lemmas:
`<` and `≤` are Boolean functions on unpacked values, and `NaN` is related to
nothing. This file sends every value that is not `NaN` to a rank in a linear
order (`rank`) and shows that the comparisons are the comparisons of ranks
(`lt_iff_rank`, `le_iff_rank`). The order facts the development uses follow from
those two statements. Singles have the same unpacked values, hence the same ranks.
-/

set_option autoImplicit false

namespace AuraGateway.Foundations.FloatOrder

open Float.Model (UnpackedFloat)

/-- Ranks of the values that are not `NaN`: a coarse class from `-2` (negative
infinity) to `2` (positive infinity), then exponent and mantissa. -/
abbrev Rank := Int ×ₗ Int ×ₗ Int

/-- Rank of an unpacked value; `NaN` has none. -/
def unpackedRank : UnpackedFloat → Option Rank
  | .notANumber => none
  | .infinity .negative => some (toLex (-2, toLex (0, 0)))
  | .finite .negative m e _ => some (toLex (-1, toLex (-e, -(m : Int))))
  | .zero _ => some (toLex (0, toLex (0, 0)))
  | .finite .positive m e _ => some (toLex (1, toLex (e, (m : Int))))
  | .infinity .positive => some (toLex (2, toLex (0, 0)))

/-- Rank of a double. -/
def rank (x : Float) : Option Rank := unpackedRank x.toModel.unpack

/-- Comparison of two ranks, undefined when one of them is missing. -/
def compareRank : Option Rank → Option Rank → Option Ordering
  | some a, some b => some (compare a b)
  | _, _ => none

/-- Lexicographic comparison, component by component. -/
theorem compare_toLex {α β : Type*} [LinearOrder α] [LinearOrder β] (a c : α) (b d : β) :
    compare (toLex (a, b)) (toLex (c, d)) = (compare a c).then (compare b d) := by
  rw [Prod.Lex.compare_def]
  rfl

theorem compare_neg (a b : Int) : compare (-a) (-b) = (compare a b).swap := by
  rcases lt_trichotomy a b with h | rfl | h
  · rw [compare_lt_iff_lt.mpr h, compare_gt_iff_gt.mpr (Int.neg_lt_neg h)]
    rfl
  · rw [compare_eq_iff_eq.mpr rfl, compare_eq_iff_eq.mpr rfl]
    rfl
  · rw [compare_gt_iff_gt.mpr h, compare_lt_iff_lt.mpr (Int.neg_lt_neg h)]
    rfl

theorem compare_natCast (m n : Nat) : compare (m : Int) (n : Int) = compare m n := by
  rcases lt_trichotomy m n with h | rfl | h
  · rw [compare_lt_iff_lt.mpr h, compare_lt_iff_lt.mpr (Int.ofNat_lt.mpr h)]
  · rw [compare_eq_iff_eq.mpr rfl, compare_eq_iff_eq.mpr rfl]
  · rw [compare_gt_iff_gt.mpr h, compare_gt_iff_gt.mpr (Int.ofNat_lt.mpr h)]

/-- The model's comparison of unpacked values is the comparison of ranks. -/
theorem unpacked_compare_eq (x y : UnpackedFloat) :
    x.compare y = compareRank (unpackedRank x) (unpackedRank y) := by
  -- Outside two finite values of one sign both sides evaluate on the constructors.
  cases x with
  | notANumber => cases y <;> rfl
  | infinity s =>
      cases s <;> cases y with
      | notANumber => rfl
      | infinity t => cases t <;> rfl
      | zero t => rfl
      | finite t m e h => cases t <;> rfl
  | zero s =>
      cases y with
      | notANumber => rfl
      | infinity t => cases t <;> rfl
      | zero t => rfl
      | finite t m e h => cases t <;> rfl
  | finite s m e h =>
      cases s <;> cases y with
      | notANumber => rfl
      | infinity t => cases t <;> rfl
      | zero t => rfl
      | finite t m' e' h' =>
          -- Two finite values of one sign: for negatives exponent and mantissa count
          -- the other way, hence `compare_neg`.
          cases t with
          | negative =>
              first
                | rfl
                | (simp only [UnpackedFloat.compare, unpackedRank, compareRank, compare_toLex,
                    compare_neg, compare_natCast]
                   cases compare e e' <;> cases compare m m' <;> rfl)
          | positive =>
              first
                | rfl
                | (simp only [UnpackedFloat.compare, unpackedRank, compareRank, compare_toLex,
                    compare_natCast]
                   cases compare e e' <;> cases compare m m' <;> rfl)

/-- The model's `<` on unpacked values is `<` on ranks, both present. -/
theorem unpacked_lt_iff (x y : UnpackedFloat) :
    (x.compare y == some .lt) = true
      ↔ ∃ a b, unpackedRank x = some a ∧ unpackedRank y = some b ∧ a < b := by
  rw [unpacked_compare_eq]
  cases unpackedRank x with
  | none => simp [compareRank]
  | some a =>
      cases unpackedRank y with
      | none => simp [compareRank]
      | some b => simp [compareRank, compare_lt_iff_lt]

/-- The model's `≤` on unpacked values is `≤` on ranks, both present. -/
theorem unpacked_le_iff (x y : UnpackedFloat) :
    (x.compare y).any (·.isLE) = true
      ↔ ∃ a b, unpackedRank x = some a ∧ unpackedRank y = some b ∧ a ≤ b := by
  rw [unpacked_compare_eq]
  cases unpackedRank x with
  | none => simp [compareRank]
  | some a =>
      cases unpackedRank y with
      | none => simp [compareRank]
      | some b => simp [compareRank, Ordering.isLE_iff_ne_gt, compare_le_iff_le]

theorem unpacked_isNaN_iff (x : UnpackedFloat) : x.isNaN = true ↔ unpackedRank x = none := by
  cases x with
  | notANumber => simp [UnpackedFloat.isNaN, unpackedRank]
  | infinity s => cases s <;> simp [UnpackedFloat.isNaN, unpackedRank]
  | zero s => simp [UnpackedFloat.isNaN, unpackedRank]
  | finite s m e h => cases s <;> simp [UnpackedFloat.isNaN, unpackedRank]

/-- `<` on doubles is `<` on ranks, both present. -/
theorem lt_iff_rank (x y : Float) :
    x < y ↔ ∃ a b, rank x = some a ∧ rank y = some b ∧ a < b := by
  -- `Float.lt` is `decide` of the model's `<`, itself a test on the unpacked values.
  show decide (x.toModel < y.toModel) = true ↔ _
  rw [decide_eq_true_iff]
  exact unpacked_lt_iff x.toModel.unpack y.toModel.unpack

/-- `≤` on doubles is `≤` on ranks, both present. -/
theorem le_iff_rank (x y : Float) :
    x ≤ y ↔ ∃ a b, rank x = some a ∧ rank y = some b ∧ a ≤ b := by
  show decide (x.toModel ≤ y.toModel) = true ↔ _
  rw [decide_eq_true_iff]
  exact unpacked_le_iff x.toModel.unpack y.toModel.unpack

/-- A value is `NaN` exactly when it has no rank. -/
theorem isNaN_iff_rank (x : Float) : x.isNaN = true ↔ rank x = none :=
  unpacked_isNaN_iff x.toModel.unpack

theorem float_lt_of_le_of_lt {x y z : Float} (h₁ : x ≤ y) (h₂ : y < z) : x < z := by
  obtain ⟨a, b, ha, hb, hab⟩ := (le_iff_rank x y).mp h₁
  obtain ⟨b', c, hb', hc, hbc⟩ := (lt_iff_rank y z).mp h₂
  obtain rfl : b = b' := Option.some.inj (hb.symm.trans hb')
  exact (lt_iff_rank x z).mpr ⟨a, c, ha, hc, hab.trans_lt hbc⟩

theorem float_lt_of_lt_of_le {x y z : Float} (h₁ : x < y) (h₂ : y ≤ z) : x < z := by
  obtain ⟨a, b, ha, hb, hab⟩ := (lt_iff_rank x y).mp h₁
  obtain ⟨b', c, hb', hc, hbc⟩ := (le_iff_rank y z).mp h₂
  obtain rfl : b = b' := Option.some.inj (hb.symm.trans hb')
  exact (lt_iff_rank x z).mpr ⟨a, c, ha, hc, hab.trans_le hbc⟩

theorem float_le_trans {x y z : Float} (h₁ : x ≤ y) (h₂ : y ≤ z) : x ≤ z := by
  obtain ⟨a, b, ha, hb, hab⟩ := (le_iff_rank x y).mp h₁
  obtain ⟨b', c, hb', hc, hbc⟩ := (le_iff_rank y z).mp h₂
  obtain rfl : b = b' := Option.some.inj (hb.symm.trans hb')
  exact (le_iff_rank x z).mpr ⟨a, c, ha, hc, hab.trans hbc⟩

theorem float_le_of_lt {x y : Float} (h : x < y) : x ≤ y := by
  obtain ⟨a, b, ha, hb, hab⟩ := (lt_iff_rank x y).mp h
  exact (le_iff_rank x y).mpr ⟨a, b, ha, hb, hab.le⟩

theorem float_lt_irrefl (x : Float) : ¬ x < x := by
  intro h
  obtain ⟨a, b, ha, hb, hab⟩ := (lt_iff_rank x x).mp h
  obtain rfl : a = b := Option.some.inj (ha.symm.trans hb)
  exact hab.false

/-- Among values that are not `NaN` the order is total. -/
theorem float_le_of_not_lt {x y : Float} (hx : x.isNaN = false) (hy : y.isNaN = false)
    (h : ¬ y < x) : x ≤ y := by
  have hrank : ∀ z : Float, z.isNaN = false → rank z ≠ none := by
    intro z hz e
    rw [(isNaN_iff_rank z).mpr e] at hz
    cases hz
  have hrx := hrank x hx
  have hry := hrank y hy
  obtain ⟨a, ha⟩ := Option.ne_none_iff_exists'.mp hrx
  obtain ⟨b, hb⟩ := Option.ne_none_iff_exists'.mp hry
  refine (le_iff_rank x y).mpr ⟨a, b, ha, hb, ?_⟩
  by_contra hc
  exact h ((lt_iff_rank y x).mpr ⟨b, a, hb, ha, not_le.mp hc⟩)

/-- A value something is below is not `NaN`. -/
theorem float_le_refl {x : Float} (hx : x.isNaN = false) : x ≤ x :=
  float_le_of_not_lt hx hx (float_lt_irrefl x)

theorem not_isNaN_of_lt {x y : Float} (h : x < y) : x.isNaN = false ∧ y.isNaN = false := by
  obtain ⟨a, b, ha, hb, -⟩ := (lt_iff_rank x y).mp h
  constructor
  · by_contra hc
    rw [Bool.not_eq_false, isNaN_iff_rank, ha] at hc
    cases hc
  · by_contra hc
    rw [Bool.not_eq_false, isNaN_iff_rank, hb] at hc
    cases hc

theorem float_not_lt_of_le {x y : Float} (h : x ≤ y) : ¬ y < x :=
  fun hc => float_lt_irrefl y (float_lt_of_lt_of_le hc h)

/-! ## Single precision -/

/-- Rank of a single. -/
def rank32 (x : Float32) : Option Rank := unpackedRank x.toModel.unpack

theorem lt_iff_rank32 (x y : Float32) :
    x < y ↔ ∃ a b, rank32 x = some a ∧ rank32 y = some b ∧ a < b := by
  show decide (x.toModel < y.toModel) = true ↔ _
  rw [decide_eq_true_iff]
  exact unpacked_lt_iff x.toModel.unpack y.toModel.unpack

theorem le_iff_rank32 (x y : Float32) :
    x ≤ y ↔ ∃ a b, rank32 x = some a ∧ rank32 y = some b ∧ a ≤ b := by
  show decide (x.toModel ≤ y.toModel) = true ↔ _
  rw [decide_eq_true_iff]
  exact unpacked_le_iff x.toModel.unpack y.toModel.unpack

theorem isNaN_iff_rank32 (x : Float32) : x.isNaN = true ↔ rank32 x = none :=
  unpacked_isNaN_iff x.toModel.unpack

theorem float32_le_trans {x y z : Float32} (h₁ : x ≤ y) (h₂ : y ≤ z) : x ≤ z := by
  obtain ⟨a, b, ha, hb, hab⟩ := (le_iff_rank32 x y).mp h₁
  obtain ⟨b', c, hb', hc, hbc⟩ := (le_iff_rank32 y z).mp h₂
  obtain rfl : b = b' := Option.some.inj (hb.symm.trans hb')
  exact (le_iff_rank32 x z).mpr ⟨a, c, ha, hc, hab.trans hbc⟩

theorem float32_le_of_lt {x y : Float32} (h : x < y) : x ≤ y := by
  obtain ⟨a, b, ha, hb, hab⟩ := (lt_iff_rank32 x y).mp h
  exact (le_iff_rank32 x y).mpr ⟨a, b, ha, hb, hab.le⟩

/-- Something that is compared is not `NaN`. -/
theorem not_isNaN_of_le32 {x y : Float32} (h : x ≤ y) : x.isNaN = false := by
  obtain ⟨a, b, ha, -, -⟩ := (le_iff_rank32 x y).mp h
  by_contra hc
  rw [Bool.not_eq_false, isNaN_iff_rank32, ha] at hc
  cases hc

/-- Among values that are not `NaN` the order is total. -/
theorem float32_le_of_not_lt {x y : Float32} (hx : x.isNaN = false) (hy : y.isNaN = false)
    (h : ¬ y < x) : x ≤ y := by
  have hrank : ∀ z : Float32, z.isNaN = false → ∃ a, rank32 z = some a := by
    intro z hz
    apply Option.ne_none_iff_exists'.mp
    intro hnone
    rw [(isNaN_iff_rank32 z).mpr hnone] at hz
    cases hz
  obtain ⟨a, ha⟩ := hrank x hx
  obtain ⟨b, hb⟩ := hrank y hy
  refine (le_iff_rank32 x y).mpr ⟨a, b, ha, hb, ?_⟩
  by_contra hc
  exact h ((lt_iff_rank32 y x).mpr ⟨b, a, hb, ha, not_le.mp hc⟩)

end AuraGateway.Foundations.FloatOrder
