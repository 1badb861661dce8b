import GapsoRbfPid.Deployment
import GapsoRbfPid.Library.WorkerPool
import GapsoRbfPid.Pso

/-! The work queue of `pso_learn` in `include/pso.h`: one work for each particle, run once and
as one step, and the wait for `task_run_count` to reach zero. The counter starts at
`THREAD_NUM` whatever the number of works, and every work corrects the arrays that the others
read. -/

namespace GapsoRbfPid.WorkQueue
open GapsoRbfPid Library Pso

structure State (K : Type) (SamNum UnitNum ParticleNum : ℕ) where
  p : Pso K SamNum UnitNum ParticleNum
  SSE : Vector K ParticleNum
  task_run_count : ℤ

variable {K : Type} [Field K] [LinearOrder K] {SamNum UnitNum ParticleNum : ℕ}

omit [Field K] [LinearOrder K] in
/-- The state in which the works are queued. -/
def queued (p : Pso K SamNum UnitNum ParticleNum) (SSE : Vector K ParticleNum) :
    State K SamNum UnitNum ParticleNum := ⟨p, SSE, THREAD_NUM⟩

/-- `get_rbf_SSE_work_callback_func`. `stack` is what its local variable `SSE` starts from. -/
def callback (exp : K → K) (stack : Fin ParticleNum → K)
    (state : State K SamNum UnitNum ParticleNum) (which : Fin ParticleNum) :
    State K SamNum UnitNum ParticleNum :=
  let evaluated := callbackSSE exp (stack which) state.p which
  ⟨evaluated.2, state.SSE.set which evaluated.1 which.isLt, state.task_run_count - 1⟩

/-- The condition `atomic_sub_and_test(0, &task_run_count)` of the wait. -/
def Released (state : State K SamNum UnitNum ParticleNum) : Prop := state.task_run_count - 0 = 0

instance (state : State K SamNum UnitNum ParticleNum) : Decidable (Released state) :=
  inferInstanceAs (Decidable (_ = _))

/-- `get_rbf_SSE(p, i)` for one particle after the other. -/
def sequential [FloorRing K] (exp : K → K) (stack : Fin ParticleNum → K)
    (p : Pso K SamNum UnitNum ParticleNum) (SSE : Vector K ParticleNum) :
    Pso K SamNum UnitNum ParticleNum × Vector K ParticleNum :=
  Transition.sweep (fun state i =>
    let evaluated := Pso.getRbfSSE exp (stack i) state.1 i
    (evaluated.2, state.2.set i evaluated.1 i.isLt)) (p, SSE)

/-- What the queue is for: the wait ends with the last of the works, and the vector that is
read then is the one of the sequential calls. -/
structure Evaluates [FloorRing K] (exp : K → K) (stack : Fin ParticleNum → K)
    (p : Pso K SamNum UnitNum ParticleNum) (SSE : Vector K ParticleNum) : Prop where
  released : ∀ done : List (Fin ParticleNum), done.Nodup →
    (Released (Transition.run (callback exp stack) (queued p SSE) done) ↔ ∀ i, i ∈ done)
  results : ∀ done : List (Fin ParticleNum), done.Nodup →
    Released (Transition.run (callback exp stack) (queued p SSE) done) →
    (Transition.run (callback exp stack) (queued p SSE) done).SSE =
      (sequential exp stack p SSE).2

section Pool
variable (exp : K → K) (stack : Fin ParticleNum → K)

/-- The queue as a pool of workers. -/
def pool (state : State K SamNum UnitNum ParticleNum) :
    WorkerPool.Pool (Pso K SamNum UnitNum ParticleNum) K ParticleNum :=
  ⟨state.p, state.SSE, state.task_run_count⟩

def task (p : Pso K SamNum UnitNum ParticleNum) (which : Fin ParticleNum) :
    K × Pso K SamNum UnitNum ParticleNum := callbackSSE exp (stack which) p which

def callTask [FloorRing K] (p : Pso K SamNum UnitNum ParticleNum) (which : Fin ParticleNum) :
    K × Pso K SamNum UnitNum ParticleNum := Pso.getRbfSSE exp (stack which) p which

theorem run_pool (state : State K SamNum UnitNum ParticleNum) (done : List (Fin ParticleNum)) :
    pool (Transition.run (callback exp stack) state done) =
      Transition.run (WorkerPool.work (task exp stack)) (pool state) done :=
  (Transition.run_map pool (fun _ _ => rfl) state done).symm

variable (p : Pso K SamNum UnitNum ParticleNum) (SSE : Vector K ParticleNum)

theorem released_iff (done : List (Fin ParticleNum)) :
    Released (Transition.run (callback exp stack) (queued p SSE) done) ↔
      (Transition.run (WorkerPool.work (task exp stack)) (pool (queued p SSE)) done).pending = 0 := by
  rw [← run_pool]
  unfold Released
  rw [sub_zero]
  exact Iff.rfl

theorem results_eq (done : List (Fin ParticleNum)) :
    (Transition.run (callback exp stack) (queued p SSE) done).SSE =
      (Transition.run (WorkerPool.work (task exp stack)) (pool (queued p SSE)) done).results :=
  congrArg WorkerPool.Pool.results (run_pool exp stack (queued p SSE) done)

/-- The calls store in each entry the answer on what the calls before it left. -/
theorem sequential_at [FloorRing K] {which : Fin ParticleNum} {before after : List (Fin ParticleNum)}
    (split : List.finRange ParticleNum = before ++ which :: after) :
    (sequential exp stack p SSE).2[which] =
      (callTask exp stack (WorkerPool.leave (callTask exp stack) p before) which).1 := by
  let view : WorkerPool.Pool (Pso K SamNum UnitNum ParticleNum) K ParticleNum →
      Pso K SamNum UnitNum ParticleNum × Vector K ParticleNum :=
    fun pool => (pool.shared, pool.results)
  have same : sequential exp stack p SSE =
      view (Transition.run (WorkerPool.work (callTask exp stack)) (pool (queued p SSE))
        (List.finRange ParticleNum)) :=
    Transition.run_map view (fun _ _ => rfl) (pool (queued p SSE)) (List.finRange ParticleNum)
  have once := List.nodup_append.mp (split ▸ List.nodup_finRange ParticleNum)
  rw [same, split]
  exact WorkerPool.results_at (callTask exp stack) (pool (queued p SSE))
    (List.nodup_cons.mp once.2.1).1

/-- The works leave the settings of the record as they are. -/
theorem run_frame (state : State K SamNum UnitNum ParticleNum) (done : List (Fin ParticleNum)) :
    ∃ centers widths rows, (Transition.run (callback exp stack) state done).p =
      { state.p with Center := centers, SP := widths, W_PSO := rows } := by
  let kept : State K SamNum UnitNum ParticleNum → Prop := fun after =>
    ∃ centers widths rows, after.p =
      { state.p with Center := centers, SP := widths, W_PSO := rows }
  have keeps : ∀ after which, kept after → kept (callback exp stack after which) := by
    intro after which held
    obtain ⟨_, _, _, same⟩ := held
    obtain ⟨centers, widths, rows, moved⟩ :=
      evaluate_frame exp after.p 1 (stack which) which
    refine ⟨centers, widths, rows, ?_⟩
    show (evaluate exp 1 (stack which) after.p which).2 = _
    rw [moved, same]
  have first : kept state := ⟨state.p.Center, state.p.SP, state.p.W_PSO, rfl⟩
  exact Transition.run_keeps keeps first done

end Pool

section Condition
variable [FloorRing K] (exp : K → K) (stack : Fin ParticleNum → K)
  (p : Pso K SamNum UnitNum ParticleNum) (SSE : Vector K ParticleNum)

/-- No particle's error is changed by callbacks of others, and it is the error that its own call
of `get_rbf_SSE` returns after the calls before it. -/
structure Undisturbed : Prop where
  others : ∀ which (before : List (Fin ParticleNum)), before.Nodup → which ∉ before →
    errorOf exp (WorkerPool.leave (task exp stack) p before) which = errorOf exp p which
  calls : ∀ which : Fin ParticleNum, (sequential exp stack p SSE).2[which] = errorOf exp p which

/-- The state in which the queue is filled: no evaluation on its arrays moves them. -/
structure AtRest : Prop where
  positive : 1 ≤ maxEpoch p
  still : ∀ which, Still exp p (maxEpoch p).toNat which

omit [FloorRing K] in
theorem released_all_iff :
    (∀ done : List (Fin ParticleNum), done.Nodup →
      (Released (Transition.run (callback exp stack) (queued p SSE) done) ↔ ∀ i, i ∈ done)) ↔
      ParticleNum = THREAD_NUM := by
  have barrier := WorkerPool.barrier_iff (task exp stack) (pool (queued p SSE))
  have count : (pool (queued p SSE)).pending = ParticleNum ↔ ParticleNum = THREAD_NUM := by
    change ((THREAD_NUM : ℕ) : ℤ) = ParticleNum ↔ _
    omega
  simp only [released_iff]
  exact barrier.trans count

omit [FloorRing K] in
/-- With fewer particles than `THREAD_NUM` nothing ends the wait. -/
theorem never_released (few : ParticleNum < THREAD_NUM) {done : List (Fin ParticleNum)}
    (once : done.Nodup) :
    ¬ Released (Transition.run (callback exp stack) (queued p SSE) done) := by
  have bound : done.length ≤ ParticleNum := by
    calc
      done.length ≤ Fintype.card (Fin ParticleNum) := once.length_le_card
      _ = ParticleNum := Fintype.card_fin ParticleNum
  rw [released_iff, WorkerPool.pending_run]
  change ¬ ((THREAD_NUM : ℕ) : ℤ) - done.length = 0
  omega

/-- Every order stores the vector of the calls exactly if each particle's error is its entry of
that vector, whichever works have run before its own. -/
theorem stored_iff :
    (∀ order : List (Fin ParticleNum), order.Nodup → (∀ i, i ∈ order) →
      (Transition.run (callback exp stack) (queued p SSE) order).SSE =
        (sequential exp stack p SSE).2) ↔
      ∀ (which : Fin ParticleNum) (before : List (Fin ParticleNum)), before.Nodup →
        which ∉ before → errorOf exp (WorkerPool.leave (task exp stack) p before) which =
          (sequential exp stack p SSE).2[which] := by
  have measured : ∀ (which : Fin ParticleNum) (before : List (Fin ParticleNum)),
      (task exp stack (WorkerPool.leave (task exp stack) p before) which).1 =
        errorOf exp (WorkerPool.leave (task exp stack) p before) which := fun which before =>
    callbackSSE_fst exp (WorkerPool.leave (task exp stack) p before) (stack which) which
  have stored := WorkerPool.results_iff (task exp stack) (pool (queued p SSE))
    (sequential exp stack p SSE).2
  simp only [results_eq]
  rw [stored]
  apply forall_congr'
  intro which
  apply forall_congr'
  intro before
  show _ → _ → (task exp stack (WorkerPool.leave (task exp stack) p before) which).1 = _ ↔ _
  rw [measured]

theorem evaluates_iff_undisturbed :
    Evaluates exp stack p SSE ↔ ParticleNum = THREAD_NUM ∧ Undisturbed exp stack p SSE := by
  constructor
  · intro evaluates
    have errors := (stored_iff exp stack p SSE).mp fun order once complete =>
      evaluates.results order once ((evaluates.released order once).mpr complete)
    have alone : ∀ which : Fin ParticleNum,
        errorOf exp p which = (sequential exp stack p SSE).2[which] := fun which =>
      errors which [] List.nodup_nil List.not_mem_nil
    refine ⟨(released_all_iff exp stack p SSE).mp evaluates.released, ?_, ?_⟩
    · intro which before once absent
      exact (errors which before once absent).trans (alone which).symm
    · intro which
      exact (alone which).symm
  · rintro ⟨count, undisturbed⟩
    have released := (released_all_iff exp stack p SSE).mpr count
    have stored := (stored_iff exp stack p SSE).mpr fun which before once absent =>
      (undisturbed.others which before once absent).trans (undisturbed.calls which).symm
    exact ⟨released, fun order once ended => stored order once ((released order once).mp ended)⟩

/-- Only the weights of particles that have run may have changed. -/
def Kept (done : List (Fin ParticleNum)) (q : Pso K SamNum UnitNum ParticleNum) : Prop :=
  ∃ rows, q = { p with W_PSO := rows } ∧ ∀ which : Fin ParticleNum, which ∉ done →
    rows[which] = p.W_PSO[which]

omit [Field K] [LinearOrder K] [FloorRing K] in
theorem leave_kept
    {run : Pso K SamNum UnitNum ParticleNum → Fin ParticleNum →
      K × Pso K SamNum UnitNum ParticleNum}
    (moves : ∀ (rows : Vector (Vector K UnitNum) ParticleNum) (which : Fin ParticleNum),
      rows[which] = p.W_PSO[which] →
      ∃ row, (run { p with W_PSO := rows } which).2 = { p with W_PSO := rows.set which row which.isLt })
    {done : List (Fin ParticleNum)} (once : done.Nodup) :
    Kept p done (WorkerPool.leave run p done) := by
  have start : Kept p [] p := ⟨p.W_PSO, rfl, fun _ _ => rfl⟩
  apply WorkerPool.leave_invariant run _ start once
  rintro done _ worker absent ⟨rows, rfl, kept⟩
  obtain ⟨row, moved⟩ := moves rows worker (kept worker absent)
  refine ⟨rows.set worker row, moved, ?_⟩
  intro which outside
  rw [List.mem_append, List.mem_singleton, not_or] at outside
  exact (Transition.set_of_ne rows (Ne.symm outside.2) row).trans (kept which outside.1)

variable {exp p} in
theorem AtRest.undisturbed (rest : AtRest exp p) : Undisturbed exp stack p SSE := by
  have callbacks : ∀ (rows : Vector (Vector K UnitNum) ParticleNum) (which : Fin ParticleNum),
      rows[which] = p.W_PSO[which] → ∃ row,
        (task exp stack { p with W_PSO := rows } which).2 =
          { p with W_PSO := rows.set which row which.isLt } := fun rows which own =>
    (evaluate_still Nat.one_pos (rest.still which).once (stack which) own).2
  have positive : 0 < (maxEpoch p).toNat := by
    have epochs := rest.positive
    omega
  have answers : ∀ (rows : Vector (Vector K UnitNum) ParticleNum) (which : Fin ParticleNum),
      rows[which] = p.W_PSO[which] →
        (callTask exp stack { p with W_PSO := rows } which).1 = errorOf exp p which ∧
          ∃ row, (callTask exp stack { p with W_PSO := rows } which).2 =
            { p with W_PSO := rows.set which row which.isLt } := fun rows which own =>
    evaluate_still positive (rest.still which) (stack which) own
  constructor
  · intro which before once absent
    obtain ⟨rows, left, kept⟩ := leave_kept p callbacks once
    have own := kept which absent
    rw [left]
    show sse exp { p with W_PSO := rows } rows[which] = _
    rw [own]
    rfl
  · intro which
    obtain ⟨before, after, split⟩ := List.append_of_mem (List.mem_finRange which)
    obtain ⟨once, _, apart⟩ := List.nodup_append.mp (split ▸ List.nodup_finRange ParticleNum)
    have absent : which ∉ before := fun early => apart _ early _ List.mem_cons_self rfl
    obtain ⟨rows, left, kept⟩ :=
      leave_kept p (fun rows which own => (answers rows which own).2) once
    rw [sequential_at exp stack p SSE split, left]
    exact (answers rows which (kept which absent)).1

/-- The queue does what it is for exactly if it has `THREAD_NUM` particles that leave one
another's errors alone, as they do if none of them moves the arrays. -/
theorem evaluates_iff :
    (Evaluates exp stack p SSE ↔ ParticleNum = THREAD_NUM ∧ Undisturbed exp stack p SSE) ∧
      (AtRest exp p → (Evaluates exp stack p SSE ↔ ParticleNum = THREAD_NUM)) := by
  have exactly := evaluates_iff_undisturbed exp stack p SSE
  refine ⟨exactly, ?_⟩
  intro rest
  rw [exactly, and_iff_left (rest.undisturbed stack SSE)]

end Condition

section Runs

/-- One unit and one sample. The error is `1` for particle 0 and `1 / 4` for the others. -/
def sample (ParticleNum : ℕ) (E0 : ℚ) : Pso ℚ 1 1 ParticleNum where
  MaxEpoch := 1
  E0 := E0
  SamIn := #v[0]
  SamOut := #v[0]
  Center := #v[1]
  SP := #v[1]
  W := #v[0]
  lrCent := 1
  lrSP := 0
  lrW := 0
  W_PSO := Vector.ofFn fun i => if i.val = 0 then #v[2] else #v[1]
  pos := Vector.replicate _ #v[0]
  vel := Vector.replicate _ #v[0]
  iw1 := 1
  iw2 := 0
  iwe := 2
  ac1 := 2
  ac2 := 2
  mv := 1
  ergrd := 0
  ergrdep := 1

theorem evaluates_at_rest :
    Evaluates Deployment.decay (fun _ => 0) (sample 10 2) (Vector.replicate 10 0) := by
  have rest : AtRest Deployment.decay (sample 10 2) := by
    refine ⟨by decide +kernel, fun which => .inl ?_⟩
    revert which
    decide +kernel
  exact ((evaluates_iff Deployment.decay (fun _ => 0) (sample 10 2) (Vector.replicate 10 0)).2
    rest).mpr rfl

/-- One particle leaves the counter at nine. Of ten, the first corrects the centre, and the
error of the second is `1 / 25` after that and `1 / 4` before. -/
theorem evaluates_fails :
    ¬ Evaluates Deployment.decay (fun _ => 0) (sample 1 (1 / 2)) (Vector.replicate 1 0) ∧
      ¬ Evaluates Deployment.decay (fun _ => 0) (sample 10 (1 / 2)) (Vector.replicate 10 0) := by
  constructor
  · intro evaluates
    have last := (evaluates.released (List.finRange 1) (by decide)).mpr (by decide)
    exact absurd last (by decide +kernel)
  · intro evaluates
    have forward := evaluates.results (List.finRange 10) (by decide) (by decide +kernel)
    have backward := evaluates.results (List.finRange 10).reverse (by decide) (by decide +kernel)
    have second := congrArg (fun stored => stored[1]) (forward.trans backward.symm)
    exact absurd second (by decide +kernel)

end Runs

end GapsoRbfPid.WorkQueue
