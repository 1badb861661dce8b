import GapsoRbfPid.Deployment
import GapsoRbfPid.Effects
import Mathlib.Data.List.GetD

/-! The sampling window. A recorder counts the packets since `rbfgrad_init` and notes the
queue length and the last probability at every `CYC_MAX`-th of them; the windows and the
error history of the controller are what those notes say. -/

namespace GapsoRbfPid.Sampling
open GapsoRbfPid Library

variable {K Child : Type}

structure Sample (K : Type) where
  qlen : BitVec 32
  p_k_1 : K

structure History (K : Type) where
  -- enqueue operations since `rbfgrad_init`
  enqueues : ℕ
  -- samples since the last successful `rbfgrad_change`, newest first
  samples : List (Sample K)

def record [Field K] (kernel : Kernel Child) (history : History K) (s : State K Child) :
    Op K Child → History K
  | .enqueue _ _ =>
      { enqueues := history.enqueues + 1
        samples := if CYC_MAX ∣ history.enqueues + 1 then
          ⟨s.qdisc.qlen, s.qdisc.parms.p_k_1⟩ :: history.samples else history.samples }
  | .change opt fifoError random32 =>
      match (rbfgradChange kernel opt fifoError random32 s).1 with
      | .ok _ => { history with samples := [] }
      | .error _ => history
  | _ => history

def History.lengths (history : History K) : List Int32 :=
  history.samples.map fun sample => .ofBitVec sample.qlen

def History.probabilities (history : History K) : List K :=
  history.samples.map Sample.p_k_1

def History.errors (history : History K) (q_ref : Int32) : List Int32 :=
  history.samples.map fun sample => CInt.subInt sample.qlen q_ref

theorem getD_toInt (word : Sample K → Int32) (value : Sample K → ℤ) (samples : List (Sample K))
    (j : ℕ) (exact : ∀ sample ∈ samples, (word sample).toInt = value sample) :
    ((samples.map word).getD j 0).toInt = (samples.map value).getD j 0 := by
  rw [← List.map_congr_left exact, ← Function.comp_def Int32.toInt word, ← List.map_map]
  exact (List.getD_map (samples.map word) 0 Int32.toInt).symm

theorem errors_getD {history : History K} {q_ref : Int32} (positive : 0 < q_ref.toInt)
    (small : ∀ sample ∈ history.samples, sample.qlen.toNat < 2 ^ 31) (j : ℕ) :
    ((history.errors q_ref).getD j 0).toInt =
      ((history.samples.map fun sample => (sample.qlen.toNat : ℤ)).map
        fun length => length - q_ref.toInt).getD j 0 := by
  rw [List.map_map]
  exact getD_toInt _ _ history.samples j fun sample member =>
    CInt.subInt_of_positive positive (small sample member)

structure Tracks (history : History K) (s : State K Child) : Prop where
  cycle : s.globals.cyc_count = history.enqueues % CYC_MAX
  queue_len : s.qdisc.parms.queue_len = ShiftRegister.window 0 history.lengths
  proba : s.qdisc.parms.proba =
    ShiftRegister.window s.qdisc.parms.p_init history.probabilities
  e_k : s.qdisc.parms.e_k = (history.errors s.qdisc.parms.q_ref).getD 0 0
  e_k_1 : s.qdisc.parms.e_k_1 = (history.errors s.qdisc.parms.q_ref).getD 1 0
  e_k_2 : s.qdisc.parms.e_k_2 = (history.errors s.qdisc.parms.q_ref).getD 2 0

theorem Tracks.congr {history : History K} {s t : State K Child} (tracks : Tracks history s)
    (cycle : t.globals.cyc_count = s.globals.cyc_count)
    (params : t.qdisc.parms.toParams = s.qdisc.parms.toParams)
    (window : t.qdisc.parms.toWindow = s.qdisc.parms.toWindow) : Tracks history t where
  cycle := cycle.trans tracks.cycle
  queue_len := by rw [window]; exact tracks.queue_len
  proba := by rw [window, params]; exact tracks.proba
  e_k := by rw [window, params]; exact tracks.e_k
  e_k_1 := by rw [window, params]; exact tracks.e_k_1
  e_k_2 := by rw [window, params]; exact tracks.e_k_2

/-- A sample pushes one note into every window. -/
theorem sampled_tracks {history : History K} {s t : State K Child} (tracks : Tracks history s)
    (cycle : t.globals.cyc_count = (history.enqueues + 1) % CYC_MAX)
    (parms : t.qdisc.parms = sampled s.qdisc) :
    Tracks ⟨history.enqueues + 1, ⟨s.qdisc.qlen, s.qdisc.parms.p_k_1⟩ :: history.samples⟩ t where
  cycle := cycle
  queue_len := by
    rw [parms]
    change ShiftRegister.shiftIn (.ofBitVec s.qdisc.qlen) s.qdisc.parms.queue_len = _
    rw [tracks.queue_len]
    exact (ShiftRegister.window_cons 0 _ history.lengths).symm
  proba := by
    rw [parms]
    change ShiftRegister.shiftIn s.qdisc.parms.p_k_1 s.qdisc.parms.proba = _
    rw [tracks.proba]
    exact (ShiftRegister.window_cons _ _ history.probabilities).symm
  e_k := by rw [parms]; rfl
  e_k_1 := by rw [parms]; exact tracks.e_k
  e_k_2 := by rw [parms]; exact tracks.e_k_1

theorem enqueue_tracks {history : History K} {s t : State K Child} (tracks : Tracks history s)
    (cycle : t.globals.cyc_count = nextCycle s.globals.cyc_count)
    (parms : t.qdisc.parms = sampleParms s.globals.cyc_count s.qdisc) :
    Tracks ⟨history.enqueues + 1, if CYC_MAX ∣ history.enqueues + 1 then
      ⟨s.qdisc.qlen, s.qdisc.parms.p_k_1⟩ :: history.samples else history.samples⟩ t := by
  rw [tracks.cycle, nextCycle_eq] at cycle
  unfold sampleParms at parms
  rw [tracks.cycle] at parms
  by_cases full : CYC_MAX ∣ history.enqueues + 1
  · rw [if_pos ((full_cycle_iff _).mpr full)] at parms
    rw [if_pos full]
    exact sampled_tracks tracks cycle parms
  · rw [if_neg (fun sampling => full ((full_cycle_iff _).mp sampling))] at parms
    rw [if_neg full]
    exact ⟨cycle, parms ▸ tracks.queue_len, parms ▸ tracks.proba, parms ▸ tracks.e_k,
      parms ▸ tracks.e_k_1, parms ▸ tracks.e_k_2⟩

/-- A configuration starts every window over, and only those. -/
theorem configured_tracks [Field K] {enqueues : ℕ} {t : State K Child} (ctl : TcRbfgradQopt K)
    (stab : Stab) (random32 : ℕ → BitVec 32) (p : RbfgradParms K)
    (cycle : t.globals.cyc_count = enqueues % CYC_MAX)
    (parms : t.qdisc.parms = configured ctl stab random32 p) :
    Tracks ⟨enqueues, []⟩ t where
  cycle := cycle
  queue_len := by rw [parms]; exact (ShiftRegister.window_nil 0).symm
  proba := by rw [parms]; exact (ShiftRegister.window_nil ctl.p_init).symm
  e_k := by rw [parms]; rfl
  e_k_1 := by rw [parms]; rfl
  e_k_2 := by rw [parms]; rfl

theorem change_tracks [Field K] (kernel : Kernel Child) (opt : Options K)
    (fifoError : Option Errno) (random32 : ℕ → BitVec 32) {history : History K}
    {s : State K Child} (tracks : Tracks history s) :
    Tracks (record kernel history s (.change opt fifoError random32))
      (rbfgradChange kernel opt fifoError random32 s).2 := by
  rcases change_cases kernel opt fifoError random32 s with ⟨err, same⟩ | ⟨ctl, stab, _, _, same⟩
  · simp only [record, same]
    exact tracks
  · simp only [record, same]
    exact configured_tracks ctl stab random32 s.qdisc.parms tracks.cycle
      (install_parms kernel ctl stab random32 s)

theorem init_tracks [Field K] (kernel : Kernel Child) (opt : Options K)
    (fifoError : Option Errno) (random32 : ℕ → BitVec 32) (worker stopper : Task) (g : Globals K) :
    Tracks ⟨0, []⟩ (rbfgradInit kernel opt fifoError random32 worker stopper
      ⟨g, .zeroed kernel⟩).2 := by
  have zeroed : Tracks ⟨0, []⟩ (⟨initGlobals g, .zeroed kernel⟩ : State K Child) :=
    ⟨rfl, (ShiftRegister.window_nil 0).symm, (ShiftRegister.window_nil 0).symm, rfl, rfl, rfl⟩
  have changed := change_tracks kernel opt fifoError random32 zeroed
  have unsampled : record kernel ⟨0, []⟩ (⟨initGlobals g, .zeroed kernel⟩ : State K Child)
      (.change opt fifoError random32) = ⟨0, []⟩ := by
    simp only [record]
    split <;> rfl
  rw [unsampled] at changed
  exact changed.congr rfl rfl rfl

theorem Tracks.proba_get {history : History K} {s : State K Child} (tracks : Tracks history s)
    (j : Fin SAM_NUM) :
    s.qdisc.parms.proba[j] = (history.samples.map Sample.p_k_1).getD j s.qdisc.parms.p_init := by
  rw [tracks.proba]
  exact ShiftRegister.window_get _ history.probabilities j

theorem Tracks.queue_len_get {history : History K} {s : State K Child} (tracks : Tracks history s)
    (small : ∀ sample ∈ history.samples, sample.qlen.toNat < 2 ^ 31) (j : Fin SAM_NUM) :
    s.qdisc.parms.queue_len[j].toInt =
      (history.samples.map fun sample => (sample.qlen.toNat : ℤ)).getD j 0 := by
  rw [tracks.queue_len]
  refine (congrArg Int32.toInt (ShiftRegister.window_get _ history.lengths j)).trans ?_
  exact getD_toInt _ _ history.samples j fun sample member => CInt.ofBitVec_toInt (small sample member)

section Runs
variable [Field K] [LinearOrder K] [FloorRing K]

theorem step_tracks (kernel : Kernel Child) (exp : K → K) (state : State K Child × History K)
    (op : Op K Child) (tracks : Tracks state.2 state.1) :
    Tracks (record kernel state.2 state.1 op) (step kernel exp state.1 op) := by
  obtain ⟨s, history⟩ := state
  have cycle := step_cyc_count kernel exp s op
  have parms := step_parms kernel exp s op
  cases op with
  | enqueue netRandom skb => exact enqueue_tracks tracks cycle parms
  | change opt fifoError random32 => exact change_tracks kernel opt fifoError random32 tracks
  | worker random32 =>
    refine tracks.congr cycle ?_ ?_
    · rw [parms]
      exact markProbability_toParams exp random32 s.qdisc.parms
    · rw [parms]
      exact markProbability_toWindow exp random32 s.qdisc.parms
  | _ => exact tracks.congr cycle (by rw [parms]) (by rw [parms])

theorem run_tracks (kernel : Kernel Child) (exp : K → K) {s : State K Child} {history : History K}
    (tracks : Tracks history s) (ops : List (Op K Child)) :
    let final := Transition.run (Transition.recording (step kernel exp) (record kernel))
      (s, history) ops
    Tracks final.2 final.1 :=
  Transition.run_keeps (fun state op holds => step_tracks kernel exp state op holds) tracks ops

def AltersWindow (kernel : Kernel Child) (history : History K) (s : State K Child) :
    Op K Child → Prop
  | .enqueue _ _ => CYC_MAX ∣ history.enqueues + 1
  | .change opt fifoError random32 =>
      (rbfgradChange kernel opt fifoError random32 s).1 = .ok ()
  | _ => False

theorem step_toWindow (kernel : Kernel Child) (exp : K → K) {history : History K}
    {s : State K Child} (tracks : Tracks history s) (op : Op K Child)
    (other : ¬AltersWindow kernel history s op) :
    (step kernel exp s op).qdisc.parms.toWindow = s.qdisc.parms.toWindow := by
  rw [step_parms]
  cases op with
  | enqueue netRandom skb =>
    have unsampled : ¬s.globals.cyc_count + 1 = CYC_MAX := by
      intro sampling
      rw [tracks.cycle] at sampling
      exact other ((full_cycle_iff history.enqueues).mp sampling)
    simp only [sampleParms, if_neg unsampled]
  | worker random32 => exact markProbability_toWindow exp random32 s.qdisc.parms
  | change opt fifoError random32 =>
    rcases change_cases kernel opt fifoError random32 s with ⟨err, same⟩ | ⟨_, _, _, _, same⟩
    · simp only [same]
    · exact absurd (congrArg Prod.fst same) other
  | _ => rfl

/-- The sampling law of every run after `rbfgrad_init`. Samples are kept newest first, so
entry `j` of a window is the sample taken `j` samples ago. The last two conjuncts say when
the next sample is due and that nothing else writes a window. -/
theorem windows_show_samples (kernel : Kernel Child) (exp : K → K) (g : Globals K)
    (opt : Options K) (fifoError : Option Errno) (random32 : ℕ → BitVec 32)
    (worker stopper : Task) (ops : List (Op K Child)) :
    let start := (rbfgradInit kernel opt fifoError random32 worker stopper ⟨g, .zeroed kernel⟩).2
    let final := Transition.run (Transition.recording (step kernel exp) (record kernel))
      (start, ⟨0, []⟩) ops
    let s := final.1
    let p := s.qdisc.parms
    let lengths := final.2.samples.map fun sample => (sample.qlen.toNat : ℤ)
    let errors := lengths.map fun length => length - p.q_ref.toInt
    s.globals.cyc_count < CYC_MAX ∧
    (∀ j : Fin SAM_NUM, p.proba[j] = (final.2.samples.map Sample.p_k_1).getD j p.p_init) ∧
    ((∀ sample ∈ final.2.samples, sample.qlen.toNat < 2 ^ 31) →
      (∀ j : Fin SAM_NUM, p.queue_len[j].toInt = lengths.getD j 0) ∧
      (0 < p.q_ref.toInt → p.e_k.toInt = errors.getD 0 0 ∧ p.e_k_1.toInt = errors.getD 1 0 ∧
        p.e_k_2.toInt = errors.getD 2 0)) ∧
    (∀ netRandom skb, (step kernel exp s (.enqueue netRandom skb)).qdisc.parms =
      if CYC_MAX ∣ final.2.enqueues + 1 then sampled s.qdisc else p) ∧
    (∀ op, ¬AltersWindow kernel final.2 s op →
      (step kernel exp s op).qdisc.parms.toWindow = p.toWindow) := by
  intro start final s p lengths errors
  have tracks : Tracks final.2 s := run_tracks kernel exp
    (init_tracks kernel opt fifoError random32 worker stopper g) ops
  refine ⟨?_, ?_, ?_, ?_, ?_⟩
  · rw [tracks.cycle]
    exact Nat.mod_lt _ (by decide)
  · intro j
    exact tracks.proba_get j
  · intro small
    refine ⟨fun j => ?_, fun positive => ⟨?_, ?_, ?_⟩⟩
    · exact tracks.queue_len_get small j
    · exact (congrArg Int32.toInt tracks.e_k).trans (errors_getD positive small 0)
    · exact (congrArg Int32.toInt tracks.e_k_1).trans (errors_getD positive small 1)
    · exact (congrArg Int32.toInt tracks.e_k_2).trans (errors_getD positive small 2)
  · intro netRandom skb
    have parms := step_parms kernel exp s (.enqueue netRandom skb)
    simp only [sampleParms, tracks.cycle, full_cycle_iff] at parms
    exact parms
  · intro op other
    exact step_toWindow kernel exp tracks op other

end Runs

theorem windows_show_samples_deployed :
    let final := Transition.run (Transition.recording (step ByteFifo.kernel Deployment.decay)
      (record ByteFifo.kernel)) (Deployment.start, ⟨0, []⟩)
      (List.replicate 20 (.enqueue 7 Deployment.packet) ++ [.dequeue, .drop])
    let p := final.1.qdisc.parms
    final.2.samples.map Sample.qlen = [19] ∧ p.queue_len[(0 : Fin SAM_NUM)].toInt = 19 ∧
      p.e_k.toInt = 19 - 300 := by
  intro final p
  have law := windows_show_samples ByteFifo.kernel Deployment.decay Deployment.loaded
    Deployment.message none Deployment.silent 0 1
    (List.replicate 20 (.enqueue 7 Deployment.packet) ++ [.dequeue, .drop])
  have samples : final.2.samples.map Sample.qlen = [19] := by decide +kernel
  have numbers := law.2.2.1 (by decide +kernel)
  refine ⟨samples, (numbers.1 0).trans ?_, (numbers.2 (by decide +kernel)).1.trans ?_⟩
  · decide +kernel
  · decide +kernel

end GapsoRbfPid.Sampling
