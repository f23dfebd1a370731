import Mathlib

/-!
# Softmax

The weights that softmax gives to finitely many scores form a distribution, and a common shift of
the scores leaves them alone (`softmax_sub`). The mean of a quantity lies between its bounds
(`mean_mem_Icc`), and it does not fall when every score is raised by something that rises with the
quantity (`mean_le_mean_add`).
-/

set_option autoImplicit false

namespace AuraGateway.Foundations.Softmax

open Finset Real

universe u

variable {ι : Type u} [Fintype ι]

/-- The weights of the scores. -/
noncomputable def softmax (z : ι → ℝ) (i : ι) : ℝ := exp (z i) / ∑ j, exp (z j)

/-- The mean of a quantity under the weights of the scores. -/
noncomputable def mean (z f : ι → ℝ) : ℝ := ∑ i, softmax z i * f i

variable (z f w : ι → ℝ)

theorem sum_exp_pos [Nonempty ι] : 0 < ∑ j, exp (z j) :=
  sum_pos (fun j _ => exp_pos (z j)) univ_nonempty

/-! ## A distribution -/

theorem softmax_pos (i : ι) : 0 < softmax z i := by
  have : Nonempty ι := ⟨i⟩
  exact div_pos (exp_pos _) (sum_exp_pos z)

theorem sum_softmax [Nonempty ι] : ∑ i, softmax z i = 1 := by
  simp only [softmax, ← sum_div]
  exact div_self (sum_exp_pos z).ne'

theorem softmax_le_one (i : ι) : softmax z i ≤ 1 := by
  have : Nonempty ι := ⟨i⟩
  rw [← sum_softmax z]
  exact single_le_sum (fun j _ => (softmax_pos z j).le) (mem_univ i)

/-- Only differences of scores matter. -/
theorem softmax_sub (c : ℝ) : softmax (fun i => z i - c) = softmax z := by
  funext i
  simp only [softmax, exp_sub, ← sum_div]
  rw [div_div_div_cancel_right₀ (exp_pos c).ne']

theorem mean_mem_Icc [Nonempty ι] {a b : ℝ} (hf : ∀ i, f i ∈ Set.Icc a b) :
    mean z f ∈ Set.Icc a b := by
  have hweights : ∀ c : ℝ, ∑ i, softmax z i * c = c := by
    intro c
    rw [← sum_mul, sum_softmax, one_mul]
  constructor
  · rw [← hweights a]
    exact sum_le_sum fun i _ => mul_le_mul_of_nonneg_left (hf i).1 (softmax_pos z i).le
  · rw [← hweights b]
    exact sum_le_sum fun i _ => mul_le_mul_of_nonneg_left (hf i).2 (softmax_pos z i).le

/-! ## Raised scores -/

/-- Quantities that rise together have, under any weights, at least the covariance zero. -/
theorem sum_mul_sum_le {p f g : ι → ℝ} (hp : ∀ i, 0 ≤ p i) (h : Monovary f g) :
    (∑ i, p i * f i) * (∑ i, p i * g i) ≤ (∑ i, p i) * ∑ i, p i * (f i * g i) := by
  have hpairs : 0 ≤ ∑ i, ∑ j, p i * p j * ((f j - f i) * (g j - g i)) :=
    sum_nonneg fun i _ => sum_nonneg fun j _ =>
      mul_nonneg (mul_nonneg (hp i) (hp j)) (monovary_iff_forall_mul_nonneg.mp h i j)
  have hexpand : ∀ i j, p i * p j * ((f j - f i) * (g j - g i))
      = p i * (p j * (f j * g j)) + p i * (f i * g i) * p j
        - (p i * f i * (p j * g j) + p i * g i * (p j * f j)) := fun i j => by ring
  simp only [hexpand, sum_sub_distrib, sum_add_distrib, ← mul_sum, ← sum_mul] at hpairs
  linarith

/-- The weights of raised scores, from the weights before. -/
theorem softmax_add (i : ι) :
    softmax (z + w) i = softmax z i * exp (w i) / ∑ j, softmax z j * exp (w j) := by
  have : Nonempty ι := ⟨i⟩
  have hsum : ∑ j, softmax z j * exp (w j) = (∑ j, exp ((z + w) j)) / ∑ j, exp (z j) := by
    rw [sum_div]
    exact sum_congr rfl fun j _ => by rw [softmax, Pi.add_apply, exp_add, div_mul_eq_mul_div]
  rw [hsum, softmax, softmax, Pi.add_apply, exp_add, div_mul_eq_mul_div,
    div_div_div_cancel_right₀ (sum_exp_pos z).ne']

/-- A quantity that rises with what is added to the scores does not fall in the mean. -/
theorem mean_le_mean_add [Nonempty ι] (h : Monovary f w) : mean z f ≤ mean (z + w) f := by
  have hexp : Monovary f fun i => exp (w i) := fun i j hlt => h (exp_lt_exp.mp hlt)
  have hcovariance := sum_mul_sum_le (fun i => (softmax_pos z i).le) hexp
  rw [sum_softmax, one_mul] at hcovariance
  have htotal : 0 < ∑ j, softmax z j * exp (w j) :=
    sum_pos (fun j _ => mul_pos (softmax_pos z j) (exp_pos _)) univ_nonempty
  have hmean : mean (z + w) f
      = (∑ i, softmax z i * (f i * exp (w i))) / ∑ j, softmax z j * exp (w j) := by
    rw [mean, sum_div]
    refine sum_congr rfl fun i _ => ?_
    rw [softmax_add, div_mul_eq_mul_div, mul_assoc, mul_comm (exp (w i))]
  rw [hmean, le_div_iff₀ htotal]
  exact hcovariance

end AuraGateway.Foundations.Softmax
