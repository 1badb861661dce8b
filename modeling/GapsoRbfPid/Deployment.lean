import GapsoRbfPid.ByteFifo
import GapsoRbfPid.Scheduler

/-! The set-up of `test/test`: the options its `tc` command passes, installed over the
byte FIFO, with doubles read as rationals. -/

namespace GapsoRbfPid.Deployment
open GapsoRbfPid

/-- `limit 10000kB sampl_period 10 q_ref 300 p_init 0 p_min 0 p_max 1.0 kp_k 0.01
ki_k 0.007 kd_k 0.01 eta_p 0.07 eta_i 0.07 eta_d 0.07 _n 1 m 5 alpha 0.1 eta 0.06 ecn`. -/
def options : TcRbfgradQopt ℚ where
  q_ref := 300
  p_init := 0
  p_min := 0
  p_max := 1
  kp_k := 1 / 100
  ki_k := 7 / 1000
  kd_k := 1 / 100
  eta_p := 7 / 100
  eta_i := 7 / 100
  eta_d := 7 / 100
  n := 1
  m := 5
  alpha := 1 / 10
  eta := 6 / 100
  sampl_period := 10
  Scell_log := 0
  limit := 10240000
  flags := 1

def stab : Stab := Vector.replicate _ 0

def message : Options ℚ := some (.ok ⟨some options, some stab⟩)

def loaded : Globals ℚ where
  cyc_count := 0
  array_element_rbfgrad := 0
  queue_show_base_rbfgrad := fun _ => ⟨0, 0, .dontMark, 0, 0, 0, 0, 0, 0, 0, 0, 0⟩
  prob_number := 0
  pkg_number := 0
  tsk_prob := none
  tsk_stop_prob := none
  fpu := 0

def silent : ℕ → BitVec 32 := fun _ => 0

/-- A rational stand-in for the exponential, exact at zero and decreasing below it. -/
def decay (x : ℚ) : ℚ := 1 / (1 - x)

def created : Except Errno Unit × State ℚ ByteFifo.Child :=
  rbfgradInit ByteFifo.kernel message none silent 0 1 ⟨loaded, .zeroed ByteFifo.kernel⟩

def start : State ℚ ByteFifo.Child := created.2

def packet : SkBuff := ⟨1500, .ect⟩

end GapsoRbfPid.Deployment
