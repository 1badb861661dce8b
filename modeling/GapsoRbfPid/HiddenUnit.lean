import Mathlib
import GapsoRbfPid.HiddenLayer
import GapsoRbfPid.ExponentialRange

/-! The hidden unit of `get_rbf_SSE` as the doubles compute it, against the same unit over the
reals with the real exponential. -/

namespace GapsoRbfPid.HiddenUnit
open Library Library.Binary64 HiddenLayer

/-- `sum[i]`. -/
def sumOf (SamIn c_k : Vector Float SAM_NUM) : Float :=
  Transition.sweep (fun sum (j : Fin SAM_NUM) =>
    sum + (SamIn[j] - c_k[j]) * (SamIn[j] - c_k[j])) 0.0

/-- `r[i]`. -/
def unitOf (unset : Exponential.Locals) (SamIn c_k : Vector Float SAM_NUM) (delta_k : Float) : Float :=
  Exponential.exp unset (-sumOf SamIn c_k / (2.0 * delta_k * delta_k))

/-- The centres and the width that `rbfgrad_set_parms` writes. -/
def centres : Vector Float SAM_NUM := Vector.replicate SAM_NUM 0.0
def width : Float := 40.0

section Sum

theorem zero_number : Number 0.0 ∧ value ℝ 0.0 = 0 := by
  have bits : (0.0 : Float).toBits = 0 := by decide +kernel
  exact Exponential.zero_value bits

theorem denominator_value : Number (2.0 * width * width) ∧ value ℝ (2.0 * width * width) = 3200 := by
  have pattern : exponentField (2.0 * width * width).toBits.toNat ≠ 2047 ∧
      signed (signOf (2.0 * width * width).toBits.toNat)
        (magnitude ℚ (2.0 * width * width).toBits.toNat) = 3200 := by decide +kernel
  have number := (number_iff_field _).mpr pattern.1
  refine ⟨number, ?_⟩
  rw [Exponential.cast_value number, value_eq number, pattern.2]
  norm_num

variable {x : Float} {v : ℝ}

/-- A centre at zero takes nothing away. -/
theorem sub_zero_value (number : Number x) (small : |value ℝ x| ≤ 1.01) :
    Number (x - 0.0) ∧ value ℝ (x - 0.0) = value ℝ x := by
  obtain ⟨zero, same⟩ := zero_number
  obtain ⟨difference, rounds⟩ := sub_rounds (K := ℝ) number zero
    (inside_of_le (by rw [same, sub_zero]; exact small.trans (by norm_num)))
  rw [same, sub_zero] at rounds
  exact ⟨difference, rounds.exact number.representable⟩

theorem square_near (number : Number x) (small : |value ℝ x| ≤ 1.01) :
    Approximates ((x - 0.0) * (x - 0.0)) (value ℝ x ^ 2) (1 / 2 ^ 53) 1.03 := by
  obtain ⟨difference, same⟩ := sub_zero_value number small
  have self : Approximates (x - 0.0) (value ℝ x) 0 1.01 :=
    (Approximates.exact difference same).weaken le_rfl small
  have product := self.mul_wide self (n := 1) (by norm_num) (by norm_num)
  rw [← pow_two] at product
  exact product.weaken (by norm_num) (product.size.trans (by norm_num))

variable {SamIn : Vector Float SAM_NUM}

/-- The sum of the squares of ten inputs in the unit range: every turn adds at most two roundings. -/
theorem sum_near (numbers : ∀ j : Fin SAM_NUM, Number SamIn[j])
    (small : ∀ j : Fin SAM_NUM, |value ℝ SamIn[j]| ≤ 1.01) :
    Approximates (sumOf SamIn centres) (∑ j : Fin SAM_NUM, value ℝ SamIn[j] ^ 2) (1 / 2 ^ 45) 10.3 := by
  let term : ℕ → ℝ := fun i => if h : i < SAM_NUM then value ℝ SamIn[(⟨i, h⟩ : Fin SAM_NUM)] ^ 2 else 0
  have terms (j : Fin SAM_NUM) : term j = value ℝ SamIn[j] ^ 2 := dif_pos j.isLt
  have whole : ∑ j : Fin SAM_NUM, value ℝ SamIn[j] ^ 2 = ∑ i ∈ Finset.range SAM_NUM, term i := by
    rw [← Fin.sum_univ_eq_sum_range]
    exact Finset.sum_congr rfl fun j _ => (terms j).symm
  let stands (n : ℕ) (sum : Float) : Prop :=
    Approximates sum (∑ i ∈ Finset.range n, term i) (n / 2 ^ 49) (1.03 * n)
  have start : stands 0 0.0 := by
    change Approximates 0.0 _ _ _
    obtain ⟨zero, same⟩ := zero_number
    rw [Finset.sum_range_zero]
    exact (Approximates.exact zero same).weaken (by norm_num) (by norm_num)
  have keeps (sum : Float) (j : Fin SAM_NUM) (before : stands j sum) :
      stands (j + 1) (sum + (SamIn[j] - centres[j]) * (SamIn[j] - centres[j])) := by
    change Approximates sum (∑ i ∈ Finset.range j, term i) _ _ at before
    change Approximates _ (∑ i ∈ Finset.range (j + 1), term i) ((j + 1 : ℕ) / 2 ^ 49) (1.03 * (j + 1 : ℕ))
    have centre : centres[j] = 0.0 := by
      rw [Vectors.getElem_fin]
      exact Vector.getElem_replicate _
    have index : (j.val : ℝ) ≤ 9 := by
      have bound : j.val ≤ 9 := Nat.le_of_lt_succ j.isLt
      exact_mod_cast bound
    have square := square_near (numbers j) (small j)
    have added := before.add_wide square (n := 4) (by linarith) (by norm_num)
    rw [centre, Finset.sum_range_succ, terms]
    apply added.weaken
    · push_cast
      linarith
    · push_cast
      linarith [added.size]
  have done : stands SAM_NUM (sumOf SamIn centres) := Transition.sweep_invariant keeps start
  change Approximates _ (∑ i ∈ Finset.range SAM_NUM, term i) _ _ at done
  rw [whole]
  exact done.weaken (by norm_num [SAM_NUM]) (done.size.trans (by norm_num [SAM_NUM]))

end Sum

section Unit
variable {SamIn : Vector Float SAM_NUM}

theorem argument_near (numbers : ∀ j : Fin SAM_NUM, Number SamIn[j])
    (small : ∀ j : Fin SAM_NUM, |value ℝ SamIn[j]| ≤ 1.01) :
    Number (-sumOf SamIn centres / (2.0 * width * width)) ∧
      |value ℝ (-sumOf SamIn centres / (2.0 * width * width)) -
          -(∑ j : Fin SAM_NUM, value ℝ SamIn[j] ^ 2) / 3200| ≤ 0.7 / 2 ^ 56 := by
  have opposite := (sum_near numbers small).neg
  obtain ⟨denominator, same⟩ := denominator_value
  have size : |value ℝ (-sumOf SamIn centres) / value ℝ (2.0 * width * width)| < 1 / 2 ^ 8 := by
    rw [same, abs_div, abs_of_pos (by norm_num : (0 : ℝ) < 3200), div_lt_iff₀ (by norm_num)]
    exact opposite.value_le.trans_lt (by norm_num)
  obtain ⟨quotient, near⟩ := div_near opposite.number denominator (by rw [same]; norm_num) size
    (by norm_num)
  rw [same] at near
  refine ⟨quotient, ?_⟩
  have error : |value ℝ (-sumOf SamIn centres) / 3200 -
      -(∑ j : Fin SAM_NUM, value ℝ SamIn[j] ^ 2) / 3200| ≤ 1 / 2 ^ 45 / 3200 := by
    rw [← sub_div, abs_div, abs_of_pos (by norm_num : (0 : ℝ) < 3200)]
    exact div_le_div_of_nonneg_right opposite.error (by norm_num)
  calc _ ≤ _ := abs_sub_le _ _ _
    _ ≤ 1 / 2 ^ (8 + 54) + 1 / 2 ^ 45 / 3200 := add_le_add near error
    _ ≤ 0.7 / 2 ^ 56 := by norm_num

/-- The exponential at a negative number that is known up to an error. -/
theorem exp_of_near (unset : Exponential.Locals) {x : Float} {v : ℝ} (number : Number x)
    (nonpos : v ≤ 0) (near : |value ℝ x - v| ≤ 1 / 2 ^ 56) :
    Number (Exponential.exp unset x) ∧
      |value ℝ (Exponential.exp unset x) - Real.exp v| ≤ 1 / 2 ^ 51 := by
  have unit : Real.exp v ≤ 1 := Real.exp_le_one_iff.mpr nonpos
  have shift : |Real.exp (value ℝ x) - Real.exp v| ≤ 1 / 2 ^ 55 := by
    calc |Real.exp (value ℝ x) - Real.exp v| ≤ 2 * |value ℝ x - v| * Real.exp v :=
          Library.ExpSeries.exp_apart (near.trans (by norm_num))
      _ ≤ 2 * (1 / 2 ^ 56) * 1 := by gcongr
      _ = 1 / 2 ^ 55 := by norm_num
  have bounded : Real.exp (value ℝ x) ≤ 2 := by
    have high := (abs_le.mp shift).2
    linarith
  have inside : Real.exp (value ℝ x) < 2 ^ 1024 := by
    calc Real.exp (value ℝ x) ≤ 2 := bounded
      _ < 2 ^ 2 := by norm_num
      _ ≤ 2 ^ 1024 := pow_le_pow_right₀ one_le_two (by norm_num)
  obtain ⟨result, error⟩ := (Exponential.exp_accurate unset number).1 inside
  have least : (1 : ℝ) / 2 ^ 1075 ≤ 1 / 2 ^ 55 :=
    one_div_le_one_div_of_le (by positivity) (pow_le_pow_right₀ one_le_two (by norm_num))
  have shifted : Real.exp (value ℝ x) ≤ 1 + 1 / 2 ^ 55 := by
    have high := (abs_le.mp shift).2
    linarith
  refine ⟨result, ?_⟩
  calc _ ≤ _ := abs_sub_le _ (Real.exp (value ℝ x)) _
    _ ≤ Real.exp (value ℝ x) / 2 ^ 52 + 1 / 2 ^ 1075 + 1 / 2 ^ 55 := add_le_add error shift
    _ ≤ (1 + 1 / 2 ^ 55) / 2 ^ 52 + 1 / 2 ^ 55 + 1 / 2 ^ 55 := by gcongr
    _ ≤ 1 / 2 ^ 51 := by norm_num

/-- What the rounding of the inputs makes of the sum of their squares. -/
theorem squares_close {t : Fin SAM_NUM → ℝ} (unit : ∀ j, |t j| ≤ 1)
    (close : ∀ j : Fin SAM_NUM, |value ℝ SamIn[j] - t j| ≤ 1 / 2 ^ 53) :
    |∑ j : Fin SAM_NUM, value ℝ SamIn[j] ^ 2 - ∑ j : Fin SAM_NUM, t j ^ 2| ≤ 21 / 2 ^ 53 := by
  have each (j : Fin SAM_NUM) : |value ℝ SamIn[j] ^ 2 - t j ^ 2| ≤ 2.1 / 2 ^ 53 := by
    have sum : |value ℝ SamIn[j] + t j| ≤ 2.1 := by
      have split : value ℝ SamIn[j] + t j = (value ℝ SamIn[j] - t j) + t j + t j := by ring
      rw [split]
      calc _ ≤ 1 / 2 ^ 53 + 1 + 1 :=
            (abs_add_three _ _ _).trans (add_le_add_three (close j) (unit j) (unit j))
        _ ≤ 2.1 := by norm_num
    rw [sq_sub_sq, abs_mul]
    calc _ ≤ 2.1 * (1 / 2 ^ 53) := mul_le_mul sum (close j) (abs_nonneg _) (by norm_num)
      _ = 2.1 / 2 ^ 53 := by ring
  rw [← Finset.sum_sub_distrib]
  calc _ ≤ ∑ j : Fin SAM_NUM, |value ℝ SamIn[j] ^ 2 - t j ^ 2| := Finset.abs_sum_le_sum_abs _ _
    _ ≤ ∑ _j : Fin SAM_NUM, 2.1 / 2 ^ 53 := Finset.sum_le_sum fun j _ => each j
    _ ≤ 21 / 2 ^ 53 := by
        simp only [Finset.sum_const, Finset.card_univ, Fintype.card_fin, SAM_NUM, nsmul_eq_mul]
        norm_num

/-- The unit of a network in its unit range, from inputs that are the rounded ones. -/
theorem unit_near (unset : Exponential.Locals) {p : RbfgradParms ℝ} (scaled : Scaled p)
    (numbers : ∀ j : Fin SAM_NUM, Number SamIn[j])
    (close : ∀ j : Fin SAM_NUM, |value ℝ SamIn[j] - p.SamIn[j]| ≤ 1 / 2 ^ 53) (i : Fin UNIT_NUM) :
    Number (unitOf unset SamIn centres width) ∧
      |value ℝ (unitOf unset SamIn centres width) - hidden Real.exp p i| ≤ 1 / 2 ^ 51 := by
  have unit (j : Fin SAM_NUM) : |p.SamIn[j]| ≤ 1 := by
    rw [abs_of_nonneg (scaled.inputs j).1]
    exact (scaled.inputs j).2
  have small (j : Fin SAM_NUM) : |value ℝ SamIn[j]| ≤ 1.01 := by
    have apart := abs_sub_abs_le_abs_sub (value ℝ SamIn[j]) p.SamIn[j]
    linarith [close j, unit j]
  obtain ⟨number, argument⟩ := argument_near numbers small
  have inputs := squares_close unit close
  rw [scaled.uniform.hidden_value, show (2 : ℝ) * 40 * 40 = 3200 by norm_num]
  have nonneg : 0 ≤ ∑ j : Fin SAM_NUM, p.SamIn[j] ^ 2 := Finset.sum_nonneg fun j _ => sq_nonneg _
  apply exp_of_near unset number
  · exact div_nonpos_of_nonpos_of_nonneg (by linarith) (by norm_num)
  · obtain ⟨argument_low, argument_high⟩ := abs_le.mp argument
    obtain ⟨inputs_low, inputs_high⟩ := abs_le.mp inputs
    rw [abs_le]
    constructor <;> linarith

/-- In every run after a successful `rbfgrad_init`, with probabilities in the unit interval and no
sample above 6500 packets, the doubles that stand for the inputs give every hidden unit but for
`2 ^ -51`. -/
theorem hidden_computed (kernel : Kernel Child) (exp : ℝ → ℝ) (g : Globals ℝ)
    (opt : Options ℝ) (fifoError : Option Errno) (random32 : ℕ → BitVec 32)
    (worker stopper : Task)
    (accepted : (rbfgradInit kernel opt fifoError random32 worker stopper
      ⟨g, .zeroed kernel⟩).1 = .ok ())
    (bounds : ∀ ctl stab, opt = some (.ok ⟨some ctl, some stab⟩) →
      UnitBounds ctl.p_min ctl.p_init ctl.p_max) (ops : List (Op ℝ Child))
    (unset : Exponential.Locals) (SamIn : Vector Float SAM_NUM)
    (numbers : ∀ j : Fin SAM_NUM, Number SamIn[j]) :
    let start := (rbfgradInit kernel opt fifoError random32 worker stopper ⟨g, .zeroed kernel⟩).2
    let p := (Transition.run (step kernel exp) start ops).qdisc.parms
    Transition.Along (step kernel exp) Ordinary start ops →
    (∀ j : Fin SAM_NUM, |value ℝ SamIn[j] - p.SamIn[j]| ≤ 1 / 2 ^ 53) →
    ∀ i, Number (unitOf unset SamIn centres width) ∧
      |value ℝ (unitOf unset SamIn centres width) - hidden Real.exp p i| ≤ 1 / 2 ^ 51 := by
  intro start p ordinary close i
  exact unit_near unset (run_scaled kernel exp g opt fifoError random32 worker stopper accepted bounds
    ops ordinary) numbers close i

/-- The inputs of the first worker call after the set-up of the tests. -/
theorem first_inputs (j : Fin SAM_NUM) :
    (Transition.run (step ByteFifo.kernel Real.exp) (Jacobian.opened (1 / 2))
      [.worker Jacobian.draws]).qdisc.parms.SamIn[j] = if j.val < SAM_NUM / 2 then 1 / 2 else 0 := by
  have start : (Jacobian.opened (1 / 2)).qdisc.parms =
      configured (Jacobian.options (1 / 2)) Deployment.stab Jacobian.draws .zeroed := by
    rw [Jacobian.opened, rbfgradInit, change_accepted]
    exact install_parms ByteFifo.kernel _ _ _ _
  have called : (Transition.run (step ByteFifo.kernel Real.exp) (Jacobian.opened (1 / 2))
      [.worker Jacobian.draws]).qdisc.parms =
        rbfgradMarkProbability Real.exp Jacobian.draws (Jacobian.opened (1 / 2)).qdisc.parms :=
    step_parms ByteFifo.kernel Real.exp (Jacobian.opened (1 / 2)) (.worker Jacobian.draws)
  have parts := layer_markProbability Real.exp Jacobian.draws (Jacobian.opened (1 / 2)).qdisc.parms
  simp only [layer, Prod.mk.injEq] at parts
  rw [called, parts.1, start]
  simp only [snapshot, configured, rbfgradSetParms, Jacobian.options, Vectors.getElem_fin,
    Vector.getElem_ofFn, Vector.getElem_replicate]
  split <;> simp

/-- The set-up of the tests after a worker call on its empty windows: five inputs are the initial
probability of one half, the others zero. -/
theorem hidden_computed_deployed :
    let p := (Transition.run (step ByteFifo.kernel Real.exp) (Jacobian.opened (1 / 2))
      [.worker Jacobian.draws]).qdisc.parms
    ∀ i, Number (unitOf ⟨0.0, 0.0, 0.0, 0⟩ (Vector.ofFn fun j : Fin SAM_NUM =>
      if j.val < SAM_NUM / 2 then Exponential.halF 0 else 0.0) centres width) ∧
      |value ℝ (unitOf ⟨0.0, 0.0, 0.0, 0⟩ (Vector.ofFn fun j : Fin SAM_NUM =>
        if j.val < SAM_NUM / 2 then Exponential.halF 0 else 0.0) centres width) -
        hidden Real.exp p i| ≤ 1 / 2 ^ 51 := by
  intro p
  have values (j : Fin SAM_NUM) : Number ((Vector.ofFn fun j : Fin SAM_NUM =>
      if j.val < SAM_NUM / 2 then Exponential.halF 0 else 0.0)[j]) ∧
      value ℝ ((Vector.ofFn fun j : Fin SAM_NUM =>
        if j.val < SAM_NUM / 2 then Exponential.halF 0 else 0.0)[j]) =
        if j.val < SAM_NUM / 2 then 1 / 2 else 0 := by
    simp only [Vectors.getElem_fin, Vector.getElem_ofFn]
    split
    · exact ⟨Exponential.halF_value.1, Exponential.halF_value.2.trans (by norm_num)⟩
    · exact zero_number
  have accepted := congrArg Prod.fst (change_accepted ByteFifo.kernel (Jacobian.options (1 / 2))
    Deployment.stab Jacobian.draws ⟨initGlobals Jacobian.loaded, .zeroed ByteFifo.kernel⟩)
  have unit : ∀ ctl stab,
      (some (.ok ⟨some (Jacobian.options (1 / 2)), some Deployment.stab⟩) : Options ℝ) =
        some (.ok ⟨some ctl, some stab⟩) → UnitBounds ctl.p_min ctl.p_init ctl.p_max := by
    rintro ctl stab ⟨⟩
    exact ⟨le_rfl, by norm_num [Jacobian.options], by norm_num [Jacobian.options], le_rfl⟩
  have close (j : Fin SAM_NUM) : |value ℝ ((Vector.ofFn fun j : Fin SAM_NUM =>
      if j.val < SAM_NUM / 2 then Exponential.halF 0 else 0.0)[j]) - p.SamIn[j]| ≤ 1 / 2 ^ 53 := by
    rw [(values j).2, first_inputs, sub_self, abs_zero]
    positivity
  exact hidden_computed ByteFifo.kernel Real.exp Jacobian.loaded
    (some (.ok ⟨some (Jacobian.options (1 / 2)), some Deployment.stab⟩)) none Jacobian.draws 0 1
    accepted unit [.worker Jacobian.draws] ⟨0.0, 0.0, 0.0, 0⟩ _ (fun j => (values j).1)
    ⟨trivial, trivial⟩ close

end Unit

end GapsoRbfPid.HiddenUnit
