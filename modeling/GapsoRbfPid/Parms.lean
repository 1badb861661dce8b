import GapsoRbfPid.Library.CInt

/-! The controller record of `include/rbfgrad.h`, its installation and the marking
decision. A `double` is an element of an arbitrary ordered field, so arithmetic is
exact; a C `int` is an `Int32`; record fields keep the spelling of the C members. -/

namespace GapsoRbfPid
open Library

abbrev SAM_NUM : ℕ := 10
abbrev UNIT_NUM : ℕ := 6
abbrev PARTICLE_NUM : ℕ := 90
abbrev MAX_EPOCH : ℕ := 10
abbrev RBFGRAD_STAB_SIZE : ℕ := 256
abbrev RAND_MAX : ℤ := CInt.intMax

abbrev Stab := Vector (BitVec 8) RBFGRAD_STAB_SIZE

/-- The members of `struct rbfgrad_parms` that only a configuration writes. -/
structure Params (K : Type) where
  sampl_period : Int32
  Scell_max : BitVec 32
  Scell_log : BitVec 8
  Stab : Stab
  q_ref : Int32
  p_init : K
  p_min : K
  p_max : K
  eta_p : K
  eta_i : K
  eta_d : K
  SamNum : Int32
  n : Int32
  m : Int32
  alpha : K
  eta : K
  MaxEpoch : Int32
  E0 : K
  iw1 : K
  iw2 : K
  iwe : K
  ac1 : K
  ac2 : K
  mv : K
  mwav : K
  ergrd : K
  ergrdep : K

/-- The members that the sampling block of the enqueue operation writes. -/
structure Window (K : Type) where
  e_k : Int32
  e_k_1 : Int32
  e_k_2 : Int32
  proba : Vector K SAM_NUM
  queue_len : Vector Int32 SAM_NUM

structure Control (K : Type) where
  p_k : K
  p_k_1 : K
  kp_k : K
  kp_k_1 : K
  ki_k : K
  ki_k_1 : K
  kd_k : K
  kd_k_1 : K

structure Network (K : Type) where
  w_k : Vector K UNIT_NUM
  w_k_1 : Vector K UNIT_NUM
  c_k : Vector (Vector K SAM_NUM) UNIT_NUM
  c_k_1 : Vector (Vector K SAM_NUM) UNIT_NUM
  delta_k : Vector K UNIT_NUM
  delta_k_1 : Vector K UNIT_NUM
  jacobian : K
  NetOut : Vector K PARTICLE_NUM
  SamIn : Vector K SAM_NUM
  SamOut : Vector K SAM_NUM

structure Swarm (K : Type) where
  pos : Vector (Vector K UNIT_NUM) PARTICLE_NUM
  vel : Vector (Vector K UNIT_NUM) PARTICLE_NUM
  pbest : Vector (Vector K UNIT_NUM) PARTICLE_NUM
  pbestval : Vector K PARTICLE_NUM
  gbest : Vector K UNIT_NUM
  gbestval : K
  gbest_index : Fin PARTICLE_NUM

/-- `struct rbfgrad_parms`, its members grouped by the code that writes them. -/
structure RbfgradParms (K : Type) extends
  Params K, Window K, Control K, Network K, Swarm K

-- the arrays' sizes and the divisor of the queue length are never zero
instance particles : NeZero PARTICLE_NUM := ⟨by decide⟩
instance samples : NeZero SAM_NUM := ⟨by decide⟩
instance queueScale : Nat.AtLeastTwo 6500 := ⟨by decide⟩

variable {K : Type} [Field K]

def RbfgradParms.zeroed : RbfgradParms K where
  sampl_period := 0
  Scell_max := 0
  Scell_log := 0
  Stab := Vector.replicate _ 0
  q_ref := 0
  p_init := 0
  p_min := 0
  p_max := 0
  eta_p := 0
  eta_i := 0
  eta_d := 0
  SamNum := 0
  n := 0
  m := 0
  alpha := 0
  eta := 0
  MaxEpoch := 0
  E0 := 0
  iw1 := 0
  iw2 := 0
  iwe := 0
  ac1 := 0
  ac2 := 0
  mv := 0
  mwav := 0
  ergrd := 0
  ergrdep := 0
  e_k := 0
  e_k_1 := 0
  e_k_2 := 0
  proba := Vector.replicate _ 0
  queue_len := Vector.replicate _ 0
  p_k := 0
  p_k_1 := 0
  kp_k := 0
  kp_k_1 := 0
  ki_k := 0
  ki_k_1 := 0
  kd_k := 0
  kd_k_1 := 0
  w_k := Vector.replicate _ 0
  w_k_1 := Vector.replicate _ 0
  c_k := Vector.replicate _ (Vector.replicate _ 0)
  c_k_1 := Vector.replicate _ (Vector.replicate _ 0)
  delta_k := Vector.replicate _ 0
  delta_k_1 := Vector.replicate _ 0
  jacobian := 0
  NetOut := Vector.replicate _ 0
  SamIn := Vector.replicate _ 0
  SamOut := Vector.replicate _ 0
  pos := Vector.replicate _ (Vector.replicate _ 0)
  vel := Vector.replicate _ (Vector.replicate _ 0)
  pbest := Vector.replicate _ (Vector.replicate _ 0)
  pbestval := Vector.replicate _ 0
  gbest := Vector.replicate _ 0
  gbestval := 0
  gbest_index := 0

/-- `rand_my` with `int` arguments: the product with the draw is taken modulo `2^32`. -/
def randMyInt (min max : ℤ) (draw : BitVec 32) : K :=
  ((BitVec.ofInt 32 (max - min) * draw).toNat : K) / ((RAND_MAX : K) + 1) + (min : K)

def randMy (min max : K) (draw : BitVec 32) : K :=
  (max - min) * (draw.toNat : K) / ((RAND_MAX : K) + 1) + min

/-- `rbfgrad_set_parms`. `random32 i` is the answer of the `i`-th call of `random32`:
two calls for each hidden unit, one for each velocity of particle 0, then two for each
coordinate of the other particles. The previous values `p_k_1`, `kp_k_1`, `ki_k_1`,
`kd_k_1`, the jacobian and the best positions of the swarm are left as they were. -/
def rbfgradSetParms (p : RbfgradParms K) (sampl_period q_ref : Int32) (p_init p_min p_max : K)
    (kp_k ki_k kd_k eta_p eta_i eta_d : K) (n m : Int32) (alpha eta : K)
    (Scell_log : BitVec 8) (stab : Stab) (random32 : ℕ → BitVec 32) : RbfgradParms K :=
  let e_max : K := 1
  let e_min : K := -1
  let mv : K := 1 / 100
  let mwav : K := 1
  let w_k : Vector K UNIT_NUM := Vector.ofFn fun i => randMyInt (-1) 1 (random32 (2 * i))
  { p with
    sampl_period := sampl_period
    q_ref := q_ref
    p_init := p_init
    p_min := p_min
    p_max := p_max
    eta_p := eta_p
    eta_i := eta_i
    eta_d := eta_d
    SamNum := 10
    n := n
    m := m
    alpha := alpha
    eta := eta
    MaxEpoch := 1
    E0 := 1 / 1000000
    p_k := p_init
    e_k := 0
    e_k_1 := 0
    e_k_2 := 0
    kp_k := kp_k
    ki_k := ki_k
    kd_k := kd_k
    w_k := w_k
    w_k_1 := Vector.ofFn fun i => randMyInt (-1) 1 (random32 (2 * i + 1))
    c_k := Vector.replicate _ (Vector.replicate _ 0)
    c_k_1 := Vector.ofFn fun i => Vector.replicate _
      (e_min + ((i.val : K) - 1) * (e_max - e_min) * ((UNIT_NUM : K) - 1))
    delta_k := Vector.replicate _ 40
    delta_k_1 := Vector.replicate _ 40
    proba := Vector.replicate _ p_init
    queue_len := Vector.replicate _ 0
    SamIn := Vector.replicate _ 0
    SamOut := Vector.replicate _ 0
    NetOut := Vector.replicate _ 0
    iw1 := 9 / 10
    iw2 := 2 / 10
    iwe := (MAX_EPOCH : K) * 3 / 4
    ac1 := 2
    ac2 := 2
    mv := mv
    mwav := mwav
    ergrd := 1 / 1000000000
    ergrdep := (MAX_EPOCH : K) / 20
    pos := Vector.ofFn fun i =>
      if i.val = 0 then w_k
      else Vector.ofFn fun j => randMy (-mwav) mwav
        (random32 (3 * UNIT_NUM + 2 * ((i - 1) * UNIT_NUM + j)))
    vel := Vector.ofFn fun i => Vector.ofFn fun j =>
      if i.val = 0 then randMy (-mv) mv (random32 (2 * UNIT_NUM + j))
      else randMy (-mv) mv (random32 (3 * UNIT_NUM + 2 * ((i - 1) * UNIT_NUM + j) + 1))
    gbestval := 0
    gbest_index := 0
    Scell_log := Scell_log
    Scell_max := 255#32 <<< Scell_log.toNat
    Stab := stab }

inductive CmpProb where
  | belowProb
  | aboveProb
  deriving DecidableEq, Repr

/-- The marking decision; it is also the `mark_type` of a log record. -/
inductive Action where
  | dontMark
  | probMark
  deriving DecidableEq, Repr

variable [LinearOrder K] [FloorRing K]

def currentP (p : RbfgradParms K) : ℤ := CInt.toInt (p.p_k * (RAND_MAX : K))

def rbfgradCmpProb (p : RbfgradParms K) (netRandom : BitVec 32) : CmpProb :=
  if CInt.absInt netRandom < currentP p then .belowProb else .aboveProb

def rbfgradAction (p : RbfgradParms K) (netRandom : BitVec 32) : Action :=
  match rbfgradCmpProb p netRandom with
  | .aboveProb => .dontMark
  | .belowProb => .probMark

theorem action_mark_iff (p : RbfgradParms K) (netRandom : BitVec 32) :
    rbfgradAction p netRandom = .probMark ↔ CInt.absInt netRandom < currentP p := by
  unfold rbfgradAction rbfgradCmpProb
  split_ifs with below <;> simp [below]

end GapsoRbfPid
