import GapsoRbfPid.OptionParser
import Mathlib.Algebra.CharZero.Defs

/-! Which values reach the message. The parser stores what it reads directly into the cleared
structure `opt`; the locals to which it gives defaults are never copied there. -/

namespace GapsoRbfPid.OptionValues
open GapsoRbfPid Library OptionParser

variable {K : Type}

/-- The value of a numeric option. -/
inductive Value (K : Type) where
  | int (value : Int32)
  | double (value : K)
  | size (value : BitVec 32)

/-- A numeric option: how its text is read, the member of the message it is meant for, and the
default that the function gives to its local variable. -/
structure Setting (K : Type) where
  keyword : String
  read : String → Option (Value K)
  member : TcRbfgradQopt K → Value K
  default? : Option (Value K)

section Definitions
variable [Field K] [LinearOrder K] [FloorRing K] (scan : Scanners K)

def readInt (text : String) : Option (Value K) := (scan.scanInt text).map .int
def readDouble (text : String) : Option (Value K) := (scan.scanDouble text).map .double
def readSize (text : String) : Option (Value K) := (getSize scan text).map .size

/-- The numeric options in the order of the source. -/
def settings : List (Setting K) :=
  [⟨"limit", readSize scan, fun opt => .size opt.limit, none⟩,
    ⟨"q_ref", readInt scan, fun opt => .int opt.q_ref, some (.int 50)⟩,
    ⟨"_n", readInt scan, fun opt => .int opt.n, some (.int 1)⟩,
    ⟨"m", readInt scan, fun opt => .int opt.m, some (.int 3)⟩,
    ⟨"p_init", readDouble scan, fun opt => .double opt.p_init, none⟩,
    ⟨"p_min", readDouble scan, fun opt => .double opt.p_min, none⟩,
    ⟨"p_max", readDouble scan, fun opt => .double opt.p_max, some (.double (2 / 100))⟩,
    ⟨"eta_p", readDouble scan, fun opt => .double opt.eta_p, some (.double (1 / 1000))⟩,
    ⟨"eta_i", readDouble scan, fun opt => .double opt.eta_i, some (.double (1 / 1000))⟩,
    ⟨"eta_d", readDouble scan, fun opt => .double opt.eta_d, some (.double (1 / 1000))⟩,
    ⟨"alpha", readDouble scan, fun opt => .double opt.alpha, some (.double (1 / 1000))⟩,
    ⟨"eta", readDouble scan, fun opt => .double opt.eta, some (.double (1 / 1000))⟩,
    ⟨"kp_k", readDouble scan, fun opt => .double opt.kp_k, none⟩,
    ⟨"ki_k", readDouble scan, fun opt => .double opt.ki_k, none⟩,
    ⟨"kd_k", readDouble scan, fun opt => .double opt.kd_k, none⟩,
    ⟨"sampl_period", readInt scan, fun opt => .int opt.sampl_period, some (.int 1)⟩]

end Definitions

/-- The options of an argument list with their values, without the flags. -/
def assignments : List String → List (String × String)
  | keyword :: value :: rest =>
      if keyword = "ecn" then assignments (value :: rest)
      else (keyword, value) :: assignments rest
  | _ => []

/-- The text of the last occurrence of an option. -/
def lastValue (keyword : String) (argv : List String) : Option String :=
  (assignments argv).reverse.findSome? fun given =>
    if given.1 = keyword then some given.2 else none

/-- The structure has the value of the last occurrence of an option, or its default. -/
def Reaches (argv : List String) (opt : TcRbfgradQopt K) (setting : Setting K) : Prop :=
  match lastValue setting.keyword argv with
  | some text => setting.read text = some (setting.member opt)
  | none => ∀ value, setting.default? = some value → setting.member opt = value

/-- The option is given, or the function declares no default for it. -/
def Given (argv : List String) (setting : Setting K) : Prop :=
  setting.default?.isSome → (lastValue setting.keyword argv).isSome

instance (argv : List String) (setting : Setting K) : Decidable (Given argv setting) :=
  inferInstanceAs (Decidable (_ → _))

section Arguments

theorem assignments_ecn (rest : List String) :
    assignments ("ecn" :: rest) = assignments rest := by
  cases rest with
  | nil => rfl
  | cons value rest => simp only [assignments, if_true]

theorem lastValue_ecn (keyword : String) (rest : List String) :
    lastValue keyword ("ecn" :: rest) = lastValue keyword rest := by
  rw [lastValue, assignments_ecn, lastValue]

/-- A later occurrence takes precedence over the first one. -/
theorem lastValue_option (keyword value : String) {name : String} (valued : name ≠ "ecn")
    (rest : List String) : lastValue keyword (name :: value :: rest) =
      (lastValue keyword rest).or (if name = keyword then some value else none) := by
  simp only [lastValue, assignments, if_neg valued, List.reverse_cons, List.findSome?_append,
    List.findSome?_cons, List.findSome?_nil]
  split_ifs <;> rfl

end Arguments

section Loop
variable [Field K] [LinearOrder K] [FloorRing K] {scan : Scanners K} {argv : List String}
  {opt final : TcRbfgradQopt K} {named : List String}

/-- A branch writes the member of its own keyword and no other. -/
def Stores (scan : Scanners K) (branch : Branch K) : Prop :=
  ∀ text opt next, branch.store text opt = some next →
    next.flags = opt.flags ∧ ∀ setting ∈ settings scan,
      if branch.keyword = setting.keyword then setting.read text = some (setting.member next)
      else setting.member next = setting.member opt

theorem branches_store : ∀ branch ∈ branches scan, Stores scan branch := by
  simp only [branches, List.forall_mem_cons, List.not_mem_nil, IsEmpty.forall_iff, implies_true,
    and_true]
  and_intros
  -- each branch against every setting of the table
  all_goals
    intro text opt next stored
    obtain ⟨value, read, rfl⟩ := Option.map_eq_some_iff.mp stored
    refine ⟨rfl, ?_⟩
    simp only [settings, List.forall_mem_cons, List.not_mem_nil, IsEmpty.forall_iff,
      implies_true, and_true, limit, q_ref, m, units, p_init, p_min, p_max, eta_p, eta_i, eta_d,
      alpha, eta, kp_k, ki_k, kd_k, sampl_period, Branch.of, String.reduceEq, if_true, if_false,
      readSize, readInt, readDouble, read, Option.map_some]

/-- What the loop leaves in the member of an option. -/
def Carries (argv : List String) (opt final : TcRbfgradQopt K) (setting : Setting K) : Prop :=
  match lastValue setting.keyword argv with
  | some text => setting.read text = some (setting.member final)
  | none => setting.member final = setting.member opt

/-- One option of the list, before those that follow it. -/
theorem carries_option {branch : Branch K} {value : String} {rest : List String}
    {next : TcRbfgradQopt K} (member : branch ∈ branches scan)
    (stored : branch.store value opt = some next) {setting : Setting K}
    (listed : setting ∈ settings scan) (later : Carries rest next final setting) :
    Carries (branch.keyword :: value :: rest) opt final setting := by
  have valued := either_valued scan branch (branches_subset_either scan member)
  have step := (branches_store branch member value opt next stored).2 setting listed
  unfold Carries at later ⊢
  rw [lastValue_option setting.keyword value valued]
  cases last : lastValue setting.keyword rest with
  | some text =>
    rw [last] at later
    exact later
  | none =>
    rw [last] at later
    by_cases same : branch.keyword = setting.keyword
    · rw [if_pos same] at step ⊢
      exact step.trans (congrArg some later.symm)
    · rw [if_neg same] at step ⊢
      exact later.trans step

theorem carries (spells : Spells (branches scan) argv opt final named) :
    ∀ setting ∈ settings scan, Carries argv opt final setting := by
  induction spells with
  | done opt => exact fun setting _ => rfl
  | ecn later ih =>
    intro setting listed
    unfold Carries
    rw [lastValue_ecn]
    exact ih setting listed
  | option member stored later ih =>
    intro setting listed
    exact carries_option member stored listed (ih setting listed)

theorem flags_kept (spells : Spells (branches scan) argv opt final named) :
    final.flags = opt.flags := by
  induction spells with
  | done opt => rfl
  | ecn later ih => exact ih
  | option member stored later ih => exact ih.trans (branches_store _ member _ _ _ stored).1

/-- No default is the zero that `memset` leaves. -/
theorem cleared_ne_default [CharZero K] : ∀ setting ∈ settings scan, ∀ value,
    setting.default? = some value → setting.member (cleared : TcRbfgradQopt K) ≠ value := by
  simp only [settings, List.forall_mem_cons, List.not_mem_nil, IsEmpty.forall_iff, implies_true,
    and_true, reduceCtorEq, Option.some.injEq, forall_eq', true_and, ne_eq, Value.int.injEq,
    Value.double.injEq, cleared]
  norm_num
  decide

/-- The member of an option is right exactly when the option is given or needs no default. -/
theorem reaches_iff [CharZero K] (spells : Spells (branches scan) argv cleared final named)
    {setting : Setting K} (listed : setting ∈ settings scan) :
    Reaches argv final setting ↔ Given argv setting := by
  have left := carries spells setting listed
  unfold Carries at left
  unfold Reaches Given
  cases last : lastValue setting.keyword argv with
  | some text =>
    rw [last] at left
    exact iff_of_true left fun _ => rfl
  | none =>
    rw [last] at left
    constructor
    · intro right declared
      obtain ⟨value, default⟩ := Option.isSome_iff_exists.mp declared
      have differs := cleared_ne_default setting listed value default
      exact absurd (left.symm.trans (right value default)) differs
    · intro given value default
      exact absurd (given (Option.isSome_of_mem default)) (by decide)

end Loop

section Message
variable [Field K] [LinearOrder K] [FloorRing K] {scan : Scanners K} {argv : List String}

/-- Every option reaches the message with its value or its default, and the flag as given. -/
def ValuesReach (scan : Scanners K) (argv : List String) (message : Attributes K) : Prop :=
  ∃ opt, message.parms = some opt ∧ (∀ setting ∈ settings scan, Reaches argv opt setting) ∧
    (opt.flags &&& TC_RBFGRAD_ECN.setWidth 32 ≠ 0 ↔ ecnGiven argv)

/-- The structure that is sent: the one of the loop, with the flag. -/
theorem sent_opt {stack : Stack K} {sent : Sent K}
    (accepted : rbfgradParseOpt scan stack argv = .ok sent) :
    ∃ opt named, Spells (branches scan) argv cleared opt named ∧
      sent.message.parms = some (if ecnGiven argv then
        { opt with flags := opt.flags ||| TC_RBFGRAD_ECN.setWidth 32 } else opt) := by
  obtain ⟨opt, named, spells, positive⟩ := (parseOpt_ok_iff scan stack argv).mp ⟨sent, accepted⟩
  refine ⟨opt, named, spells, ?_⟩
  rw [rbfgradParseOpt, parseArgs_complete spells false] at accepted
  simp only [if_neg (Int32.not_le.mpr positive), Bool.false_or, Except.ok.injEq] at accepted
  rw [← accepted]

/-- Accepted arguments give a reference length: the zero of the cleared structure is refused. -/
theorem q_ref_given {stack : Stack K} {sent : Sent K}
    (accepted : rbfgradParseOpt scan stack argv = .ok sent) :
    (lastValue "q_ref" argv).isSome := by
  obtain ⟨opt, named, spells, positive⟩ := (parseOpt_ok_iff scan stack argv).mp ⟨sent, accepted⟩
  let reference : Setting K :=
    ⟨"q_ref", readInt scan, fun opt => .int opt.q_ref, some (.int 50)⟩
  have listed : reference ∈ settings scan := List.mem_cons_of_mem _ List.mem_cons_self
  have left := carries spells reference listed
  unfold Carries at left
  cases last : lastValue "q_ref" argv with
  | some text => rfl
  | none =>
    rw [last] at left
    have zero : opt.q_ref = 0 := Value.int.inj left
    rw [zero] at positive
    exact absurd positive (by decide)

/-- The flags are not a numeric option. -/
theorem member_flags (opt : TcRbfgradQopt K) (flags : BitVec 32) : ∀ setting ∈ settings scan,
    setting.member { opt with flags := flags } = setting.member opt := by
  simp only [settings, List.forall_mem_cons, List.not_mem_nil, IsEmpty.forall_iff, implies_true,
    and_true]

/-- The structure that is sent has the right member for just the options that are given or need
no default, and the flag if and only if it is given. -/
theorem sent_members [CharZero K] {stack : Stack K} {sent : Sent K}
    (accepted : rbfgradParseOpt scan stack argv = .ok sent) : ∃ opt, sent.message.parms = some opt ∧
      (∀ setting ∈ settings scan, Reaches argv opt setting ↔ Given argv setting) ∧
      (opt.flags &&& TC_RBFGRAD_ECN.setWidth 32 ≠ 0 ↔ ecnGiven argv) := by
  obtain ⟨opt, named, spells, sends⟩ := sent_opt accepted
  have zero : opt.flags = 0 := flags_kept spells
  refine ⟨_, sends, ?_⟩
  by_cases given : ecnGiven argv
  · rw [if_pos given, zero]
    have set : (0 ||| TC_RBFGRAD_ECN.setWidth 32) &&& TC_RBFGRAD_ECN.setWidth 32 ≠ 0#32 := by decide
    refine ⟨?_, iff_of_true set given⟩
    intro setting listed
    rw [← reaches_iff spells listed, Reaches, Reaches, member_flags opt _ setting listed]
  · rw [if_neg given, zero]
    have clear : ¬0#32 &&& TC_RBFGRAD_ECN.setWidth 32 ≠ 0#32 := by decide
    exact ⟨fun setting listed => reaches_iff spells listed, iff_of_false clear given⟩

/-- For accepted arguments every option reaches the message with its last value or with its
default, and the flag as given, exactly when every option with a default is given: a default
stays in a local variable and the message has zero in its place. -/
theorem values_reach_iff [CharZero K] (scan : Scanners K) (stack : Stack K) (argv : List String)
    (sent : Sent K) (accepted : rbfgradParseOpt scan stack argv = .ok sent) :
    ValuesReach scan argv sent.message ↔ ∀ setting ∈ settings scan, Given argv setting := by
  obtain ⟨opt, carried, each, flag⟩ := sent_members accepted
  constructor
  · rintro ⟨opt', carried', reaches, _⟩ setting listed
    obtain rfl := Option.some.inj (carried.symm.trans carried')
    exact (each setting listed).mp (reaches setting listed)
  · intro given
    exact ⟨opt, carried, fun setting listed => (each setting listed).mpr (given setting listed), flag⟩

end Message

section Deployed

/-- The structure that the tool sends for an argument list. -/
def sentParms (argv : List String) : Option (TcRbfgradQopt ℚ) :=
  (rbfgradParseOpt decimal emptyStack argv).toOption.bind fun sent => sent.message.parms

theorem sentParms_some {argv : List String} {opt : TcRbfgradQopt ℚ}
    (sends : sentParms argv = some opt) :
    ∃ sent, rbfgradParseOpt decimal emptyStack argv = .ok sent ∧ sent.message.parms = some opt := by
  unfold sentParms at sends
  cases accepted : rbfgradParseOpt decimal emptyStack argv with
  | error refusal =>
    rw [accepted] at sends
    exact absurd sends (by simp [Except.toOption])
  | ok sent =>
    rw [accepted] at sends
    exact ⟨sent, rfl, sends⟩

/-- The command of `test/test`, which gives every option. -/
def command : List String :=
  ["limit", "10000kB", "sampl_period", "10", "q_ref", "300", "p_init", "0", "p_min", "0",
    "p_max", "1.0", "kp_k", "0.01", "ki_k", "0.007", "kd_k", "0.01", "eta_p", "0.07",
    "eta_i", "0.07", "eta_d", "0.07", "_n", "1", "m", "5", "alpha", "0.1", "eta", "0.06", "ecn"]

theorem values_reach_command : ∃ sent, rbfgradParseOpt decimal emptyStack command = .ok sent ∧
    ValuesReach decimal command sent.message := by
  have sends : sentParms command = some Deployment.options := by decide +kernel
  obtain ⟨sent, accepted, _⟩ := sentParms_some sends
  refine ⟨sent, accepted, ?_⟩
  exact (values_reach_iff decimal emptyStack command sent accepted).mpr (by decide +kernel)

/-- With `q_ref` alone the sampling period of the message is zero and not one. -/
theorem defaults_lost : ∃ sent, rbfgradParseOpt decimal emptyStack ["q_ref", "300"] = .ok sent ∧
    ¬ValuesReach decimal ["q_ref", "300"] sent.message := by
  have sends : sentParms ["q_ref", "300"] = some { cleared with q_ref := 300 } := by
    decide +kernel
  obtain ⟨sent, accepted, carried⟩ := sentParms_some sends
  refine ⟨sent, accepted, ?_⟩
  rintro ⟨opt, carried', reaches, _⟩
  obtain rfl := Option.some.inj (carried.symm.trans carried')
  let period : Setting ℚ :=
    ⟨"sampl_period", readInt decimal, fun opt => .int opt.sampl_period, some (.int 1)⟩
  have right := reaches period (by simp [settings, period])
  have missing : lastValue period.keyword ["q_ref", "300"] = none := by decide
  rw [Reaches, missing] at right
  exact absurd (right (.int 1) rfl) (by simp [period, cleared])

end Deployed

end GapsoRbfPid.OptionValues
