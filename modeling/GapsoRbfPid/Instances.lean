import GapsoRbfPid.Effects

/-! Several qdiscs of the module at once. Each has its own controller, but they share the
globals, and with them the counter that decides when a sample is taken. -/

namespace GapsoRbfPid

variable {ι K Child : Type}

/-- The qdiscs of the module beside the globals they share. -/
structure Instances (ι K Child : Type) where
  globals : Globals K
  qdiscs : ι → Qdisc K Child

inductive Call (K Child : Type) where
  | init (opt : Options K) (fifoError : Option Errno) (random32 : ℕ → BitVec 32)
      (worker stopper : Task)
  | op (op : Op K Child)

/-- A module that has just been loaded; its static storage is zeroed. -/
def Instances.loaded [Field K] (kernel : Kernel Child) (g : Globals K) : Instances ι K Child where
  globals := { g with cyc_count := 0 }
  qdiscs _ := .zeroed kernel

section Calls
variable [Field K] [LinearOrder K] [FloorRing K]

def applyCall (kernel : Kernel Child) (exp : K → K) (s : State K Child) :
    Call K Child → State K Child
  | .init opt fifoError random32 worker stopper =>
      (rbfgradInit kernel opt fifoError random32 worker stopper s).2
  | .op op => step kernel exp s op

def callOn [DecidableEq ι] (kernel : Kernel Child) (exp : K → K) (all : Instances ι K Child)
    (event : ι × Call K Child) : Instances ι K Child :=
  let s := applyCall kernel exp ⟨all.globals, all.qdiscs event.1⟩ event.2
  ⟨s.globals, Function.update all.qdiscs event.1 s.qdisc⟩

end Calls

theorem change_qdisc_congr [Field K] (kernel : Kernel Child) (opt : Options K)
    (fifoError : Option Errno) (random32 : ℕ → BitVec 32) (g g' : Globals K)
    (q : Qdisc K Child) :
    (rbfgradChange kernel opt fifoError random32 ⟨g, q⟩).2.qdisc =
      (rbfgradChange kernel opt fifoError random32 ⟨g', q⟩).2.qdisc := by
  rcases opt with _ | err | ⟨_ | ctl, _ | stab⟩
  · rfl
  · rfl
  · rfl
  · rfl
  · rfl
  · simp only [rbfgradChange]
    split <;> rfl

theorem init_cyc_count [Field K] (kernel : Kernel Child) (opt : Options K) (fifoError : Option Errno)
    (random32 : ℕ → BitVec 32) (worker stopper : Task) (s : State K Child) :
    (rbfgradInit kernel opt fifoError random32 worker stopper s).2.globals.cyc_count = 0 :=
  change_cyc_count kernel opt fifoError random32 _

/-- A call reads the globals only to decide whether a packet is sampled. -/
theorem applyCall_qdisc_congr [Field K] [LinearOrder K] [FloorRing K]
    (kernel : Kernel Child) (exp : K → K) (g g' : Globals K)
    (q : Qdisc K Child) (call : Call K Child)
    (sampling : ∀ netRandom skb, call = .op (.enqueue netRandom skb) →
      (g.cyc_count + 1 = CYC_MAX ↔ g'.cyc_count + 1 = CYC_MAX)) :
    (applyCall kernel exp ⟨g, q⟩ call).qdisc = (applyCall kernel exp ⟨g', q⟩ call).qdisc := by
  cases call with
  | init opt fifoError random32 worker stopper =>
    exact change_qdisc_congr kernel opt fifoError random32 (initGlobals g) (initGlobals g')
      { q with qdisc := kernel.noopQdisc }
  | op op =>
    cases op with
    | enqueue netRandom skb =>
      have same := sampling netRandom skb rfl
      simp only [applyCall, step, enqueue_qdisc, sampleParms, same]
    | change opt fifoError random32 =>
      exact change_qdisc_congr kernel opt fifoError random32 g g' q
    | _ => rfl

end GapsoRbfPid
