import GapsoRbfPid.Library.CInt
import GapsoRbfPid.Library.Transition

/-! The record of `include/pso.h` and its network evaluation, which corrects the centres and
widths of the record while it measures the error of one particle. The header holds the
evaluation twice: `get_rbf_SSE`, and the body of the work queue's callback. -/

namespace GapsoRbfPid
open Library

abbrev THREAD_NUM : ℕ := 10

/-- `struct pso`, with its three counts as parameters. -/
structure Pso (K : Type) (SamNum UnitNum ParticleNum : ℕ) where
  MaxEpoch : K
  E0 : K
  SamIn : Vector K SamNum
  SamOut : Vector K SamNum
  Center : Vector K UnitNum
  SP : Vector K UnitNum
  W : Vector K UnitNum
  lrCent : K
  lrSP : K
  lrW : K
  W_PSO : Vector (Vector K UnitNum) ParticleNum
  pos : Vector (Vector K UnitNum) ParticleNum
  vel : Vector (Vector K UnitNum) ParticleNum
  iw1 : Int32
  iw2 : Int32
  iwe : Int32
  ac1 : Int32
  ac2 : Int32
  mv : Int32
  ergrd : K
  ergrdep : K

namespace Pso

variable {K : Type} [Field K] [LinearOrder K] {SamNum UnitNum ParticleNum : ℕ}

def fabs (a : K) : K := if a > 0 then a else -a

section Epoch
variable (exp : K → K) (p : Pso K SamNum UnitNum ParticleNum) (W : Vector K UnitNum)

def allDist (i : Fin UnitNum) (j : Fin SamNum) : K := fabs (p.Center[i] - p.SamIn[j])

def unitOut (i : Fin UnitNum) (j : Fin SamNum) : K :=
  exp (-allDist p i j * allDist p i j / (p.SP[i] * p.SP[i]))

def netOut (j : Fin SamNum) : K :=
  Transition.sweep (fun out (k : Fin UnitNum) => out + W[k] * unitOut exp p k j) 0

def error (j : Fin SamNum) : K := p.SamOut[j] - netOut exp p W j

def sse : K :=
  Transition.sweep (fun sum (j : Fin SamNum) => sum + error exp p W j * error exp p W j) 0

def centGrad (i : Fin UnitNum) : K :=
  Transition.sweep (fun sum (j : Fin SamNum) =>
    sum + (p.SamIn[j] - p.Center[i]) *
      (error exp p W j * unitOut exp p i j * W[i] / (p.SP[i] * p.SP[i]))) 0

def spGrad (i : Fin UnitNum) : K :=
  Transition.sweep (fun sum (j : Fin SamNum) =>
    sum + allDist p i j * allDist p i j * error exp p W j * unitOut exp p i j * W[i] /
      (p.SP[i] * p.SP[i] * p.SP[i])) 0

def wGrad (i : Fin UnitNum) : K :=
  Transition.sweep (fun sum (j : Fin SamNum) => sum + error exp p W j * unitOut exp p i j) 0

/-- The corrections of one epoch. Those of a unit read its own centre, width and weight, and
the distances, outputs and errors from before the corrections. -/
def correct : Pso K SamNum UnitNum ParticleNum × Vector K UnitNum :=
  ({ p with
      Center := Vector.ofFn fun i => p.Center[i] + p.lrCent * centGrad exp p W i
      SP := Vector.ofFn fun i => p.SP[i] + p.lrSP * spGrad exp p W i },
    Vector.ofFn fun i => W[i] + p.lrW * wGrad exp p W i)

end Epoch

/-- The epoch loop. `SSE` is the local variable, which only an epoch assigns. -/
def epochs (exp : K → K) :
    ℕ → K → Pso K SamNum UnitNum ParticleNum → Vector K UnitNum →
      K × Pso K SamNum UnitNum ParticleNum × Vector K UnitNum
  | 0, SSE, p, W => (SSE, p, W)
  | left + 1, _, p, W =>
      if sse exp p W < p.E0 then (sse exp p W, p, W)
      else epochs exp left (sse exp p W) (correct exp p W).1 (correct exp p W).2

/-- The body that the two functions share. Its weights are row `which` of `W_PSO`. -/
def evaluate (exp : K → K) (MaxEpoch : ℕ) (SSE : K) (p : Pso K SamNum UnitNum ParticleNum)
    (which : Fin ParticleNum) : K × Pso K SamNum UnitNum ParticleNum :=
  let final := epochs exp MaxEpoch SSE p p.W_PSO[which]
  (final.1, { final.2.1 with W_PSO := final.2.1.W_PSO.set which final.2.2 which.isLt })

def maxEpoch [FloorRing K] (p : Pso K SamNum UnitNum ParticleNum) : ℤ := CInt.toInt p.MaxEpoch

def getRbfSSE [FloorRing K] (exp : K → K) (SSE : K) (p : Pso K SamNum UnitNum ParticleNum)
    (which : Fin ParticleNum) : K × Pso K SamNum UnitNum ParticleNum :=
  evaluate exp (maxEpoch p).toNat SSE p which

/-- The evaluation in `get_rbf_SSE_work_callback_func`, whose loop runs to `1`. -/
def callbackSSE (exp : K → K) (SSE : K) (p : Pso K SamNum UnitNum ParticleNum)
    (which : Fin ParticleNum) : K × Pso K SamNum UnitNum ParticleNum :=
  evaluate exp 1 SSE p which

section Weights
variable (exp : K → K) (p : Pso K SamNum UnitNum ParticleNum)

/-- The error of one particle on the arrays as they stand. -/
def errorOf (which : Fin ParticleNum) : K := sse exp p p.W_PSO[which]

/-- The rows of weights are read in one place only. -/
theorem epochs_W_PSO (rows : Vector (Vector K UnitNum) ParticleNum) (left : ℕ) (SSE : K)
    (W : Vector K UnitNum) :
    epochs exp left SSE { p with W_PSO := rows } W =
      ((epochs exp left SSE p W).1, { (epochs exp left SSE p W).2.1 with W_PSO := rows },
        (epochs exp left SSE p W).2.2) := by
  induction left generalizing SSE p W with
  | zero => rfl
  | succ left ih =>
    have error : sse exp { p with W_PSO := rows } W = sse exp p W := rfl
    unfold epochs
    rw [error]
    split
    · rfl
    · exact ih (correct exp p W).1 (sse exp p W) (correct exp p W).2

/-- One epoch stores the error on the arrays as they stand. -/
theorem callbackSSE_fst (SSE : K) (which : Fin ParticleNum) :
    (callbackSSE exp SSE p which).1 = errorOf exp p which := by
  unfold callbackSSE evaluate epochs errorOf
  dsimp only
  split
  · rfl
  · rfl

/-- An evaluation writes centres, widths and the weights of particles. -/
theorem epochs_frame (left : ℕ) (SSE : K) (W : Vector K UnitNum) :
    ∃ centers widths, (epochs exp left SSE p W).2.1 = { p with Center := centers, SP := widths } := by
  induction left generalizing SSE p W with
  | zero => exact ⟨p.Center, p.SP, rfl⟩
  | succ left ih =>
    unfold epochs
    split
    · exact ⟨p.Center, p.SP, rfl⟩
    · obtain ⟨centers, widths, same⟩ :=
        ih (correct exp p W).1 (sse exp p W) (correct exp p W).2
      exact ⟨centers, widths, same⟩

theorem evaluate_frame (MaxEpoch : ℕ) (SSE : K) (which : Fin ParticleNum) :
    ∃ centers widths rows, (evaluate exp MaxEpoch SSE p which).2 =
      { p with Center := centers, SP := widths, W_PSO := rows } := by
  obtain ⟨centers, widths, same⟩ := epochs_frame exp p MaxEpoch SSE p.W_PSO[which]
  exact ⟨centers, widths, _, by
    unfold evaluate
    dsimp only
    rw [same]⟩

/-- An evaluation of so many epochs moves neither centres nor widths, and measures one error:
it stops at the goal, or every correction is zero, those of the weights only if they are
used. -/
def Still (left : ℕ) (which : Fin ParticleNum) : Prop :=
  errorOf exp p which < p.E0 ∨
    (correct exp p p.W_PSO[which]).1 = p ∧
      (left = 1 ∨ (correct exp p p.W_PSO[which]).2 = p.W_PSO[which])

variable {exp p}

theorem Still.once {left : ℕ} {which : Fin ParticleNum} (still : Still exp p left which) :
    Still exp p 1 which := by
  rcases still with goal | ⟨arrays, _⟩
  · exact .inl goal
  · exact .inr ⟨arrays, .inl rfl⟩

theorem epochs_fixed {W : Vector K UnitNum} (fixed : correct exp p W = (p, W)) (left : ℕ) :
    epochs exp left (sse exp p W) p W = (sse exp p W, p, W) := by
  induction left with
  | zero => rfl
  | succ left ih =>
    unfold epochs
    split
    · rfl
    · rw [fixed]
      exact ih

theorem epochs_still {left : ℕ} {which : Fin ParticleNum} (positive : 0 < left)
    (still : Still exp p left which) (SSE : K) :
    (epochs exp left SSE p p.W_PSO[which]).1 = errorOf exp p which ∧
      (epochs exp left SSE p p.W_PSO[which]).2.1 = p := by
  obtain ⟨rest, rfl⟩ : ∃ rest, left = rest + 1 := ⟨left - 1, by omega⟩
  unfold epochs
  split
  · exact ⟨rfl, rfl⟩
  · rename_i above
    obtain ⟨arrays, last | weights⟩ := still.resolve_left above
    · obtain rfl : rest = 0 := by omega
      exact ⟨rfl, arrays⟩
    · have fixed : correct exp p p.W_PSO[which] = (p, p.W_PSO[which]) := Prod.ext arrays weights
      rw [arrays, weights, epochs_fixed fixed]
      exact ⟨rfl, rfl⟩

/-- The other particles' weights make no difference to an evaluation that moves nothing. -/
theorem evaluate_still {left : ℕ} {which : Fin ParticleNum} (positive : 0 < left)
    (still : Still exp p left which) (SSE : K)
    {rows : Vector (Vector K UnitNum) ParticleNum} (own : rows[which] = p.W_PSO[which]) :
    (evaluate exp left SSE { p with W_PSO := rows } which).1 = errorOf exp p which ∧
      ∃ row, (evaluate exp left SSE { p with W_PSO := rows } which).2 =
        { p with W_PSO := rows.set which row which.isLt } := by
  obtain ⟨measured, arrays⟩ := epochs_still positive still SSE
  unfold evaluate
  dsimp only
  rw [epochs_W_PSO, own]
  refine ⟨measured, (epochs exp left SSE p p.W_PSO[which]).2.2, ?_⟩
  rw [arrays]

end Weights

end Pso

end GapsoRbfPid
