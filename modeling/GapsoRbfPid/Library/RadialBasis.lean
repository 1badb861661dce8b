import GapsoRbfPid.Library.Vectors
import Mathlib.Algebra.BigOperators.Field
import Mathlib.Analysis.Calculus.Deriv.Pow
import Mathlib.Analysis.SpecialFunctions.ExpDeriv
import Mathlib.Topology.Algebra.Module.ModuleTopology

/-! Networks of Gaussian units, and their partial derivatives. A sum that takes the linear
factor of the derivative at another point than the input is the derivative only up to a
multiple of the distance between the two. -/

namespace GapsoRbfPid.Library.RadialBasis

variable {ι κ : Type*} [Fintype ι] [Fintype κ]

section Definitions

/-- A Gaussian unit. -/
noncomputable def unit (width : ℝ) (centre x : ι → ℝ) : ℝ :=
  Real.exp (-(∑ j, (x j - centre j) ^ 2) / (2 * width ^ 2))

structure Network (ι κ : Type*) where
  weight : κ → ℝ
  width : κ → ℝ
  centre : κ → ι → ℝ

variable (net : Network ι κ) (x : ι → ℝ)

noncomputable def Network.output : ℝ :=
  ∑ i, net.weight i * unit (net.width i) (net.centre i) x

/-- The sum of the derivative by the input `k`, with `y` in the place of that input. -/
noncomputable def Network.slopeAt (k : ι) (y : ℝ) : ℝ :=
  ∑ i, net.weight i * unit (net.width i) (net.centre i) x * (net.centre i k - y) / net.width i ^ 2

/-- The output with every unit divided by the square of its width. -/
noncomputable def Network.scaled : ℝ :=
  ∑ i, net.weight i * unit (net.width i) (net.centre i) x / net.width i ^ 2

end Definitions

section Derivative
variable [DecidableEq ι] (net : Network ι κ) (x : ι → ℝ) (k : ι)

/-- The sum of squares along one input. -/
theorem hasDerivAt_squares (centre : ι → ℝ) :
    HasDerivAt (fun t => ∑ j, (Function.update x k t j - centre j) ^ 2)
      (2 * (x k - centre k)) (x k) := by
  have terms : ∀ j ∈ Finset.univ, HasDerivAt
      (fun t => (Function.update x k t j - centre j) ^ 2)
      (if j = k then 2 * (x k - centre k) else 0) (x k) := by
    intro j _
    by_cases same : j = k
    · subst same
      simp only [Function.update_self, if_true]
      apply (((hasDerivAt_id (x j)).sub_const (centre j)).pow 2).congr_deriv
      simp
    · simp only [Function.update_of_ne same, if_neg same]
      exact hasDerivAt_const (x k) _
  apply (HasDerivAt.fun_sum terms).congr_deriv
  rw [Finset.sum_ite_eq' Finset.univ k, if_pos (Finset.mem_univ k)]

theorem hasDerivAt_unit (width : ℝ) (centre : ι → ℝ) :
    HasDerivAt (fun t => unit width centre (Function.update x k t))
      (unit width centre x * (centre k - x k) / width ^ 2) (x k) := by
  have inner := ((hasDerivAt_squares x k centre).fun_neg.div_const (2 * width ^ 2)).exp
  rw [Function.update_eq_self] at inner
  apply inner.congr_deriv
  unfold unit
  ring

theorem hasDerivAt_output :
    HasDerivAt (fun t => net.output (Function.update x k t)) (net.slopeAt x k (x k)) (x k) := by
  have units : ∀ i ∈ Finset.univ, HasDerivAt
      (fun t => net.weight i * unit (net.width i) (net.centre i) (Function.update x k t))
      (net.weight i * (unit (net.width i) (net.centre i) x * (net.centre i k - x k) /
        net.width i ^ 2)) (x k) :=
    fun i _ => (hasDerivAt_unit x k (net.width i) (net.centre i)).const_mul (net.weight i)
  apply (HasDerivAt.fun_sum units).congr_deriv
  unfold Network.slopeAt
  apply Finset.sum_congr rfl
  intro i _
  ring

end Derivative

section Factor
variable (net : Network ι κ) (x : ι → ℝ) (k : ι) (y : ℝ)

theorem slopeAt_eq : net.slopeAt x k y = net.slopeAt x k (x k) + net.scaled x * (x k - y) := by
  unfold Network.slopeAt Network.scaled
  rw [Finset.sum_mul, ← Finset.sum_add_distrib]
  apply Finset.sum_congr rfl
  intro i _
  ring

/-- The sum is the derivative exactly at the input itself, unless the scaled output vanishes. -/
theorem hasDerivAt_slopeAt_iff [DecidableEq ι] :
    HasDerivAt (fun t => net.output (Function.update x k t)) (net.slopeAt x k y) (x k) ↔
      y = x k ∨ net.scaled x = 0 := by
  have derivative := hasDerivAt_output net x k
  have same : net.slopeAt x k y = net.slopeAt x k (x k) ↔ y = x k ∨ net.scaled x = 0 := by
    rw [slopeAt_eq, add_eq_left, mul_eq_zero, sub_eq_zero, or_comm, eq_comm (a := y)]
  rw [← same]
  constructor
  · intro claimed
    exact claimed.unique derivative
  · intro equal
    rw [equal]
    exact derivative

/-- Units of one width scale the output by a constant. -/
theorem scaled_eq {width : ℝ} (uniform : ∀ i, net.width i = width) :
    net.scaled x = net.output x / width ^ 2 := by
  unfold Network.scaled Network.output
  rw [Finset.sum_div]
  apply Finset.sum_congr rfl
  intro i _
  rw [uniform i]

end Factor

end GapsoRbfPid.Library.RadialBasis
