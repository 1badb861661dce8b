import GapsoRbfPid.Library.Vectors
import Mathlib.Algebra.Field.Basic
import Mathlib.Algebra.BigOperators.Group.List.Basic
import Mathlib.Tactic.Ring

/-! The two forms of the discrete PID law over any commutative ring, for an error history
that is kept newest first and is zero before its first entry. -/

namespace GapsoRbfPid.Library.Pid

variable {R : Type*} [CommRing R]

def positional (kp ki kd initial : R) (errors : List R) : R :=
  initial + kp * errors.getD 0 0 + ki * errors.sum + kd * (errors.getD 0 0 - errors.getD 1 0)

def incremental (kp ki kd output now last before : R) : R :=
  output + kp * (now - last) + ki * now + kd * (now - 2 * last + before)

variable (kp ki kd initial : R)

@[simp] theorem positional_nil : positional kp ki kd initial [] = initial := by
  simp [positional]

/-- One more error moves the positional output by one incremental step. -/
theorem positional_cons (error : R) (errors : List R) :
    positional kp ki kd initial (error :: errors) =
      incremental kp ki kd (positional kp ki kd initial errors) error
        (errors.getD 0 0) (errors.getD 1 0) := by
  simp only [positional, incremental, List.getD_cons_zero, List.getD_cons_succ, List.sum_cons]
  ring

end GapsoRbfPid.Library.Pid
