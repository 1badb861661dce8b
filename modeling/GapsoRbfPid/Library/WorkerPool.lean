import GapsoRbfPid.Library.Transition
import Mathlib.Data.Fintype.Card
import Mathlib.Data.List.Dedup
import Mathlib.Tactic.Linarith

/-! Workers that share a state. Each runs once, as one step: it reads and changes the shared
state, stores an answer in a cell of its own, and takes one off a counter that a barrier
waits for. -/

namespace GapsoRbfPid.Library.WorkerPool
open Transition

variable {σ β : Type*} {n : ℕ}

structure Pool (σ β : Type*) (n : ℕ) where
  shared : σ
  results : Vector β n
  pending : ℤ

def work (task : σ → Fin n → β × σ) (pool : Pool σ β n) (worker : Fin n) : Pool σ β n :=
  ⟨(task pool.shared worker).2, pool.results.set worker (task pool.shared worker).1 worker.isLt,
    pool.pending - 1⟩

/-- The shared state after some workers have run. -/
def leave (task : σ → Fin n → β × σ) (shared : σ) (done : List (Fin n)) : σ :=
  run (fun state worker => (task state worker).2) shared done

variable (task : σ → Fin n → β × σ) (pool : Pool σ β n)

theorem shared_run (done : List (Fin n)) :
    (run (work task) pool done).shared = leave task pool.shared done :=
  (run_map Pool.shared (fun _ _ => rfl) pool done).symm

section Barrier

theorem pending_run (done : List (Fin n)) :
    (run (work task) pool done).pending = pool.pending - done.length := by
  induction done generalizing pool with
  | nil => simp
  | cons worker rest ih =>
    rw [run_cons, ih, List.length_cons]
    simp only [work]
    omega

/-- Workers that have run once each are all of them exactly if there are that many. -/
theorem length_eq_iff {done : List (Fin n)} (once : done.Nodup) :
    done.length = n ↔ ∀ worker, worker ∈ done := by
  rw [← List.toFinset_card_of_nodup once]
  calc
    done.toFinset.card = n ↔ done.toFinset.card = Fintype.card (Fin n) := by
      rw [Fintype.card_fin]
    _ ↔ done.toFinset = Finset.univ := Finset.card_eq_iff_eq_univ _
    _ ↔ ∀ worker, worker ∈ done := by
      simp only [Finset.eq_univ_iff_forall, List.mem_toFinset]

/-- The barrier opens with the last worker exactly if the counter starts at their number. -/
theorem barrier_iff :
    (∀ done : List (Fin n), done.Nodup →
      ((run (work task) pool done).pending = 0 ↔ ∀ worker, worker ∈ done)) ↔
      pool.pending = n := by
  constructor
  · intro opens
    have all := (opens (List.finRange n) (List.nodup_finRange n)).mpr List.mem_finRange
    rw [pending_run, List.length_finRange] at all
    omega
  · intro count done once
    rw [pending_run, count, ← length_eq_iff once]
    omega

end Barrier

section Answers

theorem results_frame {worker : Fin n} {done : List (Fin n)} (absent : worker ∉ done) :
    (run (work task) pool done).results[worker] = pool.results[worker] := by
  induction done generalizing pool with
  | nil => rfl
  | cons first rest ih =>
    rw [List.mem_cons, not_or] at absent
    obtain ⟨different, later⟩ := absent
    rw [run_cons, ih (work task pool first) later]
    exact set_of_ne pool.results (Ne.symm different) _

/-- A worker's cell holds the answer of its turn. -/
theorem results_at {worker : Fin n} {before after : List (Fin n)} (absent : worker ∉ after) :
    (run (work task) pool (before ++ worker :: after)).results[worker] =
      (task (leave task pool.shared before) worker).1 := by
  rw [run_append, run_cons, results_frame task _ absent, ← shared_run]
  exact set_self (run (work task) pool before).results worker _

/-- Every order of some workers can be continued by all the others. -/
theorem exists_order {worker : Fin n} {before : List (Fin n)} (once : before.Nodup)
    (absent : worker ∉ before) :
    ∃ after, worker ∉ after ∧ (before ++ worker :: after).Nodup ∧
      ∀ other, other ∈ before ++ worker :: after := by
  let after := (List.finRange n).filter fun other => other ∉ worker :: before
  have mem : ∀ other, other ∈ after ↔ other ≠ worker ∧ other ∉ before := by
    intro other
    simp [after]
  refine ⟨after, fun inside => ((mem worker).mp inside).1 rfl, ?_, ?_⟩
  · rw [List.nodup_append]
    refine ⟨once, List.nodup_cons.mpr ⟨?_, (List.nodup_finRange n).filter _⟩, ?_⟩
    · exact fun inside => ((mem worker).mp inside).1 rfl
    · rintro other early _ later rfl
      rcases List.mem_cons.mp later with rfl | later
      · exact absent early
      · exact ((mem other).mp later).2 early
  · intro other
    rw [List.mem_append, List.mem_cons, mem]
    by_cases same : other = worker
    · exact .inr (.inl same)
    · by_cases early : other ∈ before
      · exact .inl early
      · exact .inr (.inr ⟨same, early⟩)

/-- All orders store one vector exactly if no workers that run first change an answer. -/
theorem results_iff (expected : Vector β n) :
    (∀ order : List (Fin n), order.Nodup → (∀ worker, worker ∈ order) →
      (run (work task) pool order).results = expected) ↔
      ∀ (worker : Fin n) (before : List (Fin n)), before.Nodup → worker ∉ before →
        (task (leave task pool.shared before) worker).1 = expected[worker] := by
  constructor
  · intro same worker before once absent
    obtain ⟨after, later, nodup, complete⟩ := exists_order once absent
    rw [← same _ nodup complete, results_at task pool later]
  · intro answers order nodup complete
    ext index inside
    obtain ⟨before, after, rfl⟩ := List.append_of_mem (complete ⟨index, inside⟩)
    obtain ⟨once, rest, apart⟩ := List.nodup_append.mp nodup
    have absent : (⟨index, inside⟩ : Fin n) ∉ before :=
      fun early => apart _ early _ List.mem_cons_self rfl
    have later : (⟨index, inside⟩ : Fin n) ∉ after := (List.nodup_cons.mp rest).1
    exact (results_at task pool later).trans (answers _ before once absent)

end Answers

/-- The invariant rule for workers that run once each: it may say which have run. -/
theorem leave_invariant {invariant : List (Fin n) → σ → Prop}
    (keeps : ∀ done state worker, worker ∉ done → invariant done state →
      invariant (done ++ [worker]) (task state worker).2)
    {shared : σ} (holds : invariant [] shared) {done : List (Fin n)} (once : done.Nodup) :
    invariant done (leave task shared done) := by
  induction done using List.reverseRecOn with
  | nil => exact holds
  | append_singleton done worker ih =>
    obtain ⟨before, _, apart⟩ := List.nodup_append.mp once
    have absent : worker ∉ done := fun early => apart _ early _ List.mem_cons_self rfl
    rw [leave, run_append]
    exact keeps done _ worker absent (ih before)

end GapsoRbfPid.Library.WorkerPool
