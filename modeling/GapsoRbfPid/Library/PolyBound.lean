import GapsoRbfPid.Library.Vectors
import Mathlib.Algebra.Order.Field.Basic
import Mathlib.Algebra.Order.Floor.Semiring
import Mathlib.Algebra.Order.Floor.Ring
import Mathlib.Data.Rat.Cast.Order
import Mathlib.Tactic.FieldSimp
import Mathlib.Tactic.Linarith
import Mathlib.Tactic.Positivity
import Mathlib.Tactic.Ring

/-! Certified bounds of a polynomial on an interval. The polynomial is the list of its rational
coefficients, the constant one first; it is expanded around the middle of every cell of a
partition, where the sizes of the coefficients bound it. -/

namespace GapsoRbfPid.Library.PolyBound

def add : List ℚ → List ℚ → List ℚ
  | [], q => q
  | p, [] => p
  | a :: p, b :: q => (a + b) :: add p q

def scale (c : ℚ) (p : List ℚ) : List ℚ := p.map (c * ·)

def mul : List ℚ → List ℚ → List ℚ
  | [], _ => []
  | a :: p, q => add (scale a q) (0 :: mul p q)

/-- The coefficients in the distance from `c`. -/
def shift (c : ℚ) : List ℚ → List ℚ
  | [] => []
  | a :: p => add (a :: shift c p) (scale c (shift c p))

/-- What the sizes of the coefficients allow at a distance `h` from zero. -/
def size (h : ℚ) : List ℚ → ℚ
  | [] => 0
  | a :: p => |a| + h * size h p

/-- On each of `cells` cells of width `2 * h` from `low` on, the expansion stays below `bound`. -/
def Bounded (p : List ℚ) (bound low h : ℚ) (cells : ℕ) : Prop :=
  ∀ i < cells, size h (shift (low + (2 * i + 1) * h) p) ≤ bound

instance (p : List ℚ) (bound low h : ℚ) (cells : ℕ) : Decidable (Bounded p bound low h cells) :=
  inferInstanceAs (Decidable (∀ i < cells, _))

section Evaluation
variable {K : Type*} [Field K]

def eval (p : List ℚ) (x : K) : K :=
  match p with
  | [] => 0
  | a :: p => a + x * eval p x

@[simp] theorem eval_nil (x : K) : eval [] x = 0 := rfl

@[simp] theorem eval_cons (a : ℚ) (p : List ℚ) (x : K) : eval (a :: p) x = a + x * eval p x := rfl

variable [CharZero K]

theorem eval_cast (p : List ℚ) (x : ℚ) : eval p (x : K) = (eval p x : ℚ) := by
  induction p with
  | nil => simp
  | cons a p ih =>
    rw [eval_cons, ih, eval_cons]
    push_cast
    rfl

theorem eval_add (p q : List ℚ) (x : K) : eval (add p q) x = eval p x + eval q x := by
  induction p generalizing q with
  | nil => simp [add]
  | cons a p ih =>
    cases q with
    | nil => simp [add]
    | cons b q =>
      rw [add, eval_cons, ih, eval_cons, eval_cons]
      push_cast
      ring

theorem eval_scale (c : ℚ) (p : List ℚ) (x : K) : eval (scale c p) x = c * eval p x := by
  induction p with
  | nil => simp [scale]
  | cons a p ih =>
    change eval ((c * a) :: scale c p) x = _
    rw [eval_cons, ih, eval_cons]
    push_cast
    ring

theorem eval_mul (p q : List ℚ) (x : K) : eval (mul p q) x = eval p x * eval q x := by
  induction p with
  | nil => simp [mul]
  | cons a p ih =>
    rw [mul, eval_add, eval_scale, eval_cons, ih, eval_cons]
    push_cast
    ring

theorem eval_shift (c : ℚ) (p : List ℚ) (u : K) : eval (shift c p) u = eval p (c + u) := by
  induction p with
  | nil => rfl
  | cons a p ih =>
    rw [shift, eval_add, eval_scale, eval_cons, ih, eval_cons]
    ring

variable [LinearOrder K] [IsStrictOrderedRing K]

theorem abs_eval_le (p : List ℚ) {h : ℚ} {u : K} (near : |u| ≤ h) : |eval p u| ≤ size h p := by
  have nonneg : (0 : K) ≤ h := (abs_nonneg u).trans near
  induction p with
  | nil => simp [size]
  | cons a p ih =>
    rw [eval_cons, size]
    push_cast
    calc |(a : K) + u * eval p u| ≤ |(a : K)| + |u * eval p u| := abs_add_le _ _
      _ ≤ |(a : K)| + h * size h p := by
          rw [abs_mul]
          gcongr

/-- The cell that a point of the interval falls into. -/
theorem exists_cell [FloorRing K] {low h : ℚ} {cells : ℕ} {x : K} (pos : 0 < h) (left : low ≤ x)
    (right : x < low + 2 * h * cells) :
    ∃ i < cells, |x - (low + (2 * i + 1) * h)| ≤ h := by
  have width : (0 : K) < 2 * h := by
    have : (0 : K) < h := by exact_mod_cast pos
    linarith
  have nonneg : 0 ≤ (x - low) / (2 * h) := div_nonneg (by linarith) width.le
  refine ⟨⌊(x - low) / (2 * h)⌋₊, ?_, ?_⟩
  · rw [Nat.floor_lt nonneg, div_lt_iff₀ width]
    linarith
  · have low' := Nat.floor_le nonneg
    have high := Nat.lt_floor_add_one ((x - low) / (2 * h))
    rw [le_div_iff₀ width] at low'
    rw [div_lt_iff₀ width] at high
    rw [abs_le]
    constructor <;> linarith

theorem Bounded.abs_eval_le [FloorRing K] {p : List ℚ} {bound low h : ℚ} {cells : ℕ}
    (bounded : Bounded p bound low h cells) (pos : 0 < h) {x : K} (left : low ≤ x)
    (right : x < low + 2 * h * cells) : |eval p x| ≤ bound := by
  obtain ⟨i, inside, near⟩ := exists_cell pos left right
  have expanded := PolyBound.abs_eval_le (shift (low + (2 * i + 1) * h) p) near
  rw [eval_shift] at expanded
  push_cast at expanded
  rw [add_sub_cancel] at expanded
  exact expanded.trans (by exact_mod_cast bounded i inside)

end Evaluation

end GapsoRbfPid.Library.PolyBound
