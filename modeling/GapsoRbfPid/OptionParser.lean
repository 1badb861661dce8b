import GapsoRbfPid.Deployment
import GapsoRbfPid.Effects
import GapsoRbfPid.Library.Stdio
import Mathlib.Data.List.Nodup

/-! The other end of a configuration: `rbfgrad_parse_opt` of the `tc` command turns an argument
list into the option message of the scheduler, which takes it as it comes. -/

namespace GapsoRbfPid.OptionParser
open GapsoRbfPid Library

variable {K : Type}

/-- How the C library reads a token. -/
structure Scanners (K : Type) where
  -- `sscanf` with the format "%d"
  scanInt : String → Option Int32
  -- `sscanf` with the format "%lf"
  scanDouble : String → Option K
  -- the number at the head of a token and the text after it
  strtod : String → Option (K × List Char)

section Size

/-- `strcasecmp` answers zero. -/
def equalCaseless (text : List Char) (name : String) : Bool :=
  text.map Char.toLower = name.toList.map Char.toLower

/-- The unit after a size, in bytes. -/
def unitOf (suffix : List Char) : Option ℕ :=
  if suffix = [] then some 1
  else if equalCaseless suffix "kb" || equalCaseless suffix "k" then some 1024
  else if equalCaseless suffix "gb" || equalCaseless suffix "g" then some (1024 * 1024 * 1024)
  else if equalCaseless suffix "gbit" then some (1024 * 1024 * 1024 / 8)
  else if equalCaseless suffix "mb" || equalCaseless suffix "m" then some (1024 * 1024)
  else if equalCaseless suffix "mbit" then some (1024 * 1024 / 8)
  else if equalCaseless suffix "kbit" then some (1024 / 8)
  else if equalCaseless suffix "b" then some 1
  else none

def getSize [Field K] [LinearOrder K] [FloorRing K] (scan : Scanners K) (text : String) :
    Option (BitVec 32) :=
  match scan.strtod text with
  | none => none
  | some (sz, suffix) => (unitOf suffix).map fun unit => CInt.toUnsigned (sz * (unit : K))

end Size

/-- A branch of the keyword loop that takes a value and stores it, unless it is illegal. -/
structure Branch (K : Type) where
  keyword : String
  store : String → TcRbfgradQopt K → Option (TcRbfgradQopt K)

def Branch.of {Value : Type} (keyword : String) (read : String → Option Value)
    (set : TcRbfgradQopt K → Value → TcRbfgradQopt K) : Branch K where
  keyword := keyword
  store text opt := (read text).map (set opt)

section Branches
variable (scan : Scanners K)

def limit [Field K] [LinearOrder K] [FloorRing K] : Branch K :=
  .of "limit" (getSize scan) fun opt value => { opt with limit := value }
def q_ref : Branch K := .of "q_ref" scan.scanInt fun opt value => { opt with q_ref := value }
def m : Branch K := .of "m" scan.scanInt fun opt value => { opt with m := value }
def p_init : Branch K := .of "p_init" scan.scanDouble fun opt value => { opt with p_init := value }
def p_min : Branch K := .of "p_min" scan.scanDouble fun opt value => { opt with p_min := value }
def p_max : Branch K := .of "p_max" scan.scanDouble fun opt value => { opt with p_max := value }
def eta_p : Branch K := .of "eta_p" scan.scanDouble fun opt value => { opt with eta_p := value }
def eta_i : Branch K := .of "eta_i" scan.scanDouble fun opt value => { opt with eta_i := value }
def eta_d : Branch K := .of "eta_d" scan.scanDouble fun opt value => { opt with eta_d := value }
def alpha : Branch K := .of "alpha" scan.scanDouble fun opt value => { opt with alpha := value }
def eta : Branch K := .of "eta" scan.scanDouble fun opt value => { opt with eta := value }
def kp_k : Branch K := .of "kp_k" scan.scanDouble fun opt value => { opt with kp_k := value }
def ki_k : Branch K := .of "ki_k" scan.scanDouble fun opt value => { opt with ki_k := value }
def kd_k : Branch K := .of "kd_k" scan.scanDouble fun opt value => { opt with kd_k := value }
def sampl_period : Branch K :=
  .of "sampl_period" scan.scanInt fun opt value => { opt with sampl_period := value }

/-- The member `n` under a keyword: the source and its usage text spell it differently. -/
def units (keyword : String) : Branch K :=
  .of keyword scan.scanInt fun opt value => { opt with n := value }

variable [Field K] [LinearOrder K] [FloorRing K]

/-- The branches of the loop with a value, in the order of the source. -/
def branches : List (Branch K) :=
  [limit scan, q_ref scan, units scan "_n", m scan, p_init scan, p_min scan, p_max scan,
    eta_p scan, eta_i scan, eta_d scan, alpha scan, eta scan, kp_k scan, ki_k scan, kd_k scan,
    sampl_period scan]

/-- The keywords of the usage text. -/
def usage : List (Branch K) :=
  [limit scan, sampl_period scan, q_ref scan, p_init scan, p_min scan, p_max scan,
    kp_k scan, ki_k scan, kd_k scan, eta_p scan, eta_i scan, eta_d scan,
    units scan "n", m scan, alpha scan, eta scan]

end Branches

/-- How the tool ends without a message: the function returns −1, or the process exits. -/
inductive Ending where
  | returned
  | exited
  deriving DecidableEq, Repr

/-- What the tool does instead of sending a message, with what it prints to `stderr`. -/
structure Refusal where
  ending : Ending
  stderr : List String
  deriving DecidableEq, Repr

def explain : List String :=
  ["Usage: ... rbfgrad limit BYTES sampl_period INTEGER  q_ref PACKETS p_init PROBABILITY p_min PROBABILITY p_max PROBABILITY\n",
    "                kp_k COEFFICIENT ki_k COEFFICIENT kd_k COEFFICIENT eta_p COEFFICIENT eta_i COEFFICIENT eta_d COEFFICIENT\n",
    "                n INTEGER m INTEGER alpha COEFFICIENT  eta COEFFICIENT\n",
    "                [ ecn ]\n"]

def incompleteCommand : Refusal :=
  ⟨.exited, ["Command line is not complete. Try option \"help\"\n"]⟩

def illegal (keyword : String) : Refusal := ⟨.returned, ["Illegal \"" ++ keyword ++ "\"\n"]⟩

def unknown (keyword : String) : Refusal :=
  ⟨.returned, ("What is \"" ++ keyword ++ "\"?\n") :: explain⟩

/-- What the function finds in the locals it never writes. -/
structure Stack (K : Type) where
  p_init : K
  p_min : K
  sbuf : Stab

structure Sent (K : Type) where
  message : Attributes K
  stderr : List String

section Parser
variable [Field K]

/-- The structure after `memset`. -/
def cleared : TcRbfgradQopt K where
  q_ref := 0
  p_init := 0
  p_min := 0
  p_max := 0
  kp_k := 0
  ki_k := 0
  kd_k := 0
  eta_p := 0
  eta_i := 0
  eta_d := 0
  n := 0
  m := 0
  alpha := 0
  eta := 0
  sampl_period := 0
  Scell_log := 0
  limit := 0
  flags := 0

variable [LinearOrder K]

/-- The last checks before the message: they look at the locals and only print. -/
def warnings (p_init p_min p_max : K) : List String :=
  (if p_init < 0 ∨ p_init > 1 then
    ["RBFGRAD: the init probability must be between 0.0 and 1.0.\n"] else []) ++
  (if p_max < 0 ∨ p_max > 1 then
    ["RBFGRAD: the max probability must be between 0.0 and 1.0.\n"] else []) ++
  (if p_min < 0 ∨ p_min > 1 then
    ["RBFGRAD: the min probability must be between 0.0 and 1.0.\n"] else []) ++
  (if p_min > p_max then
    ["RBFGRAD: the min probability must be less than max probability.\n"] else [])

variable [FloorRing K]

/-- The keyword loop over what is left of `argv`. -/
def parseArgs (scan : Scanners K) :
    List String → TcRbfgradQopt K → Bool → Except Refusal (TcRbfgradQopt K × Bool)
  | [], opt, ecn_ok => .ok (opt, ecn_ok)
  | keyword :: rest, opt, ecn_ok =>
      match (branches scan).find? (fun branch => branch.keyword = keyword), rest with
      | some _, [] => .error incompleteCommand
      | some branch, value :: rest =>
          match branch.store value opt with
          | none => .error (illegal keyword)
          | some next => parseArgs scan rest next ecn_ok
      | none, rest =>
          if keyword = "ecn" then parseArgs scan rest opt true
          else if keyword = "help" then .error ⟨.returned, explain⟩
          else .error (unknown keyword)

/-- `rbfgrad_parse_opt`; its local `p_max` is 0.02 and no argument changes it. -/
def rbfgradParseOpt (scan : Scanners K) (stack : Stack K) (argv : List String) :
    Except Refusal (Sent K) :=
  match parseArgs scan argv cleared false with
  | .error refusal => .error refusal
  | .ok (opt, ecn_ok) =>
      if opt.q_ref ≤ 0 then .error ⟨.returned, ["RBFGRAD: q_ref must be > 0.\n"]⟩
      else
        let opt := if ecn_ok then { opt with flags := opt.flags ||| TC_RBFGRAD_ECN.setWidth 32 } else opt
        .ok ⟨⟨some opt, some stack.sbuf⟩, warnings stack.p_init stack.p_min (2 / 100)⟩

end Parser

/-- The arguments are keywords of a table, each with a legal value, and flags `ecn`. They take
the structure `opt` to `final` and use the keywords `named`. -/
inductive Spells (table : List (Branch K)) :
    List String → TcRbfgradQopt K → TcRbfgradQopt K → List String → Prop
  | done (opt : TcRbfgradQopt K) : Spells table [] opt opt []
  | ecn {rest : List String} {opt final : TcRbfgradQopt K} {named : List String}
      (later : Spells table rest opt final named) : Spells table ("ecn" :: rest) opt final named
  | option {branch : Branch K} {value : String} {rest : List String}
      {opt next final : TcRbfgradQopt K} {named : List String} (member : branch ∈ table)
      (stored : branch.store value opt = some next) (later : Spells table rest next final named) :
      Spells table (branch.keyword :: value :: rest) opt final (branch.keyword :: named)

namespace Spells
variable {table larger : List (Branch K)} {argv : List String} {opt final final' : TcRbfgradQopt K}
  {named named' : List String}

/-- A spelling in one table is a spelling in another that has the keywords it uses. -/
theorem transfer (spells : Spells table argv opt final named)
    (covers : ∀ branch ∈ table, branch.keyword ∈ named → branch ∈ larger) :
    Spells larger argv opt final named := by
  induction spells with
  | done opt => exact .done opt
  | ecn later ih => exact .ecn (ih covers)
  | option member stored later ih =>
    have tail := ih fun branch found used => covers branch found (List.mem_cons_of_mem _ used)
    exact .option (covers _ member List.mem_cons_self) stored tail

theorem named_keywords (spells : Spells table argv opt final named) :
    ∀ keyword ∈ named, ∃ branch ∈ table, branch.keyword = keyword := by
  induction spells with
  | done opt => simp
  | ecn later ih => exact ih
  | option member stored later ih =>
    intro keyword used
    rcases List.mem_cons.mp used with rfl | later
    · exact ⟨_, member, rfl⟩
    · exact ih keyword later

/-- A table that lacks one keyword of a larger one spells what the larger one does without it. -/
theorem iff_unused {spelling : String} (inside : table ⊆ larger)
    (absent : ∀ branch ∈ table, branch.keyword ≠ spelling)
    (covers : ∀ branch ∈ larger, branch.keyword = spelling ∨ branch ∈ table) :
    Spells table argv opt final named ↔
      Spells larger argv opt final named ∧ spelling ∉ named := by
  constructor
  · intro spells
    refine ⟨spells.transfer fun branch member _ => inside member, ?_⟩
    intro used
    obtain ⟨branch, member, keyword⟩ := spells.named_keywords spelling used
    exact absent branch member keyword
  · rintro ⟨spells, unused⟩
    apply spells.transfer
    intro branch member used
    rcases covers branch member with keyword | listed
    · exact absurd (keyword ▸ used) unused
    · exact listed

/-- Distinct keywords, none of them the flag, leave one reading of the arguments. -/
theorem unique (distinct : ∀ first ∈ table, ∀ second ∈ table,
      first.keyword = second.keyword → first = second)
    (valued : ∀ branch ∈ table, branch.keyword ≠ "ecn")
    (spells : Spells table argv opt final named) (spells' : Spells table argv opt final' named') :
    final = final' ∧ named = named' := by
  induction spells generalizing final' named' with
  | done opt =>
    cases spells'
    exact ⟨rfl, rfl⟩
  | ecn later ih =>
    generalize same : "ecn" :: _ = argv at spells'
    cases spells' with
    | done => exact absurd same (by simp)
    | ecn later' =>
      obtain ⟨_, rfl⟩ := List.cons.inj same
      exact ih later'
    | option member _ _ => exact absurd (List.cons.inj same).1.symm (valued _ member)
  | option member stored later ih =>
    generalize same : _ :: _ :: _ = argv at spells'
    cases spells' with
    | done => exact absurd same (by simp)
    | ecn later' => exact absurd (List.cons.inj same).1 (valued _ member)
    | option member' stored' later' =>
      obtain ⟨keyword, tail⟩ := List.cons.inj same
      obtain ⟨rfl, rfl⟩ := List.cons.inj tail
      obtain rfl := distinct _ member _ member' keyword
      obtain rfl := Option.some.inj (stored.symm.trans stored')
      obtain ⟨rfl, rfl⟩ := ih later'
      exact ⟨rfl, rfl⟩

end Spells

section Tables
variable [Field K] [LinearOrder K] [FloorRing K] (scan : Scanners K)

/-- The keywords of the source and of its usage text together. -/
def either : List (Branch K) := units scan "n" :: branches scan

theorem branches_subset_either : branches scan ⊆ either scan := List.subset_cons_self _ _

theorem usage_subset_either : usage scan ⊆ either scan := by
  simp only [usage, either, branches, List.cons_subset, List.mem_cons, true_or, or_true, true_and]
  exact List.nil_subset _

theorem either_subset_usage : either scan ⊆ units scan "_n" :: usage scan := by
  simp only [either, branches, usage, List.cons_subset, List.mem_cons, true_or, or_true, true_and]
  exact List.nil_subset _

theorem either_keywords : (either scan).map Branch.keyword =
    ["n", "limit", "q_ref", "_n", "m", "p_init", "p_min", "p_max", "eta_p", "eta_i", "eta_d",
      "alpha", "eta", "kp_k", "ki_k", "kd_k", "sampl_period"] := rfl

theorem usage_keywords : (usage scan).map Branch.keyword =
    ["limit", "sampl_period", "q_ref", "p_init", "p_min", "p_max", "kp_k", "ki_k", "kd_k",
      "eta_p", "eta_i", "eta_d", "n", "m", "alpha", "eta"] := rfl

omit [Field K] [LinearOrder K] [FloorRing K] in
theorem keyword_ne {table : List (Branch K)} {spelling : String}
    (missing : spelling ∉ table.map Branch.keyword) :
    ∀ branch ∈ table, branch.keyword ≠ spelling := by
  rintro branch member rfl
  exact missing (List.mem_map_of_mem member)

theorem either_distinct : ∀ first ∈ either scan, ∀ second ∈ either scan,
    first.keyword = second.keyword → first = second := by
  intro first inside second inside' same
  have nodup : ((either scan).map Branch.keyword).Nodup := by
    rw [either_keywords]
    decide
  exact List.inj_on_of_nodup_map nodup inside inside' same

theorem either_valued : ∀ branch ∈ either scan, branch.keyword ≠ "ecn" := by
  apply keyword_ne
  rw [either_keywords]
  decide

theorem find_branch {branch : Branch K} (member : branch ∈ branches scan) :
    (branches scan).find? (fun other => other.keyword = branch.keyword) = some branch := by
  cases found : (branches scan).find? fun other => other.keyword = branch.keyword with
  | none =>
    have missing := List.find?_eq_none.mp found branch member
    exact absurd (decide_eq_true rfl) missing
  | some other =>
    have same : other.keyword = branch.keyword := by simpa using List.find?_some found
    have inside := List.mem_of_find?_eq_some found
    rw [either_distinct scan other (branches_subset_either scan inside) branch
      (branches_subset_either scan member) same]

theorem find_ecn : (branches scan).find? (fun branch => branch.keyword = "ecn") = none := by
  rw [List.find?_eq_none]
  intro branch member
  simpa using either_valued scan branch (branches_subset_either scan member)

end Tables

section Loop
variable [Field K] [LinearOrder K] [FloorRing K] {scan : Scanners K} {argv : List String}
  {opt final : TcRbfgradQopt K} {ecn_ok flag : Bool}

theorem parseArgs_sound (parsed : parseArgs scan argv opt ecn_ok = .ok (final, flag)) :
    ∃ named, Spells (branches scan) argv opt final named := by
  fun_induction parseArgs scan argv opt ecn_ok with
  | case1 opt ecn_ok =>
    obtain ⟨rfl, rfl⟩ : opt = final ∧ ecn_ok = flag := by simpa using parsed
    exact ⟨[], .done opt⟩
  | case2 => exact absurd parsed (by simp)
  | case3 => exact absurd parsed (by simp)
  | case4 keyword opt ecn_ok branch value rest found next stored ih =>
    obtain ⟨named, later⟩ := ih parsed
    have same : branch.keyword = keyword := by simpa using List.find?_some found
    subst same
    exact ⟨_, .option (List.mem_of_find?_eq_some found) stored later⟩
  | case5 opt ecn_ok rest _ ih =>
    obtain ⟨named, later⟩ := ih parsed
    exact ⟨named, .ecn later⟩
  | case6 => exact absurd parsed (by simp)
  | case7 => exact absurd parsed (by simp)

/-- The flag stands where the loop looks for a keyword. -/
def ecnGiven : List String → Bool
  | [] => false
  | [keyword] => keyword = "ecn"
  | keyword :: _ :: rest => keyword = "ecn" || ecnGiven rest

omit [Field K] [LinearOrder K] [FloorRing K] in
theorem ecnGiven_ecn (rest : List String) : ecnGiven ("ecn" :: rest) = true := by
  cases rest <;> simp only [ecnGiven, decide_true, Bool.true_or]

theorem parseArgs_complete {named : List String}
    (spells : Spells (branches scan) argv opt final named) (ecn_ok : Bool) :
    parseArgs scan argv opt ecn_ok = .ok (final, ecn_ok || ecnGiven argv) := by
  induction spells generalizing ecn_ok with
  | done opt => simp only [parseArgs, ecnGiven, Bool.or_false]
  | @ecn rest opt final named later ih =>
    unfold parseArgs
    rw [find_ecn, ecnGiven_ecn, Bool.or_true]
    simpa using ih true
  | @option branch value rest opt next final named member stored later ih =>
    have valued := either_valued scan branch (branches_subset_either scan member)
    unfold parseArgs
    rw [find_branch scan member]
    dsimp only
    rw [stored]
    simpa only [ecnGiven, decide_eq_false valued, Bool.false_or] using ih ecn_ok

/-- The loop is followed by one check that rejects, that of `q_ref`. -/
theorem parseOpt_ok_iff (scan : Scanners K) (stack : Stack K) (argv : List String) :
    (∃ sent, rbfgradParseOpt scan stack argv = .ok sent) ↔
      ∃ opt named, Spells (branches scan) argv cleared opt named ∧ 0 < opt.q_ref := by
  constructor
  · rintro ⟨sent, accepted⟩
    cases parsed : parseArgs scan argv cleared false with
    | error refusal =>
      rw [rbfgradParseOpt, parsed] at accepted
      exact absurd accepted (by simp)
    | ok result =>
      obtain ⟨opt, flag⟩ := result
      obtain ⟨named, spells⟩ := parseArgs_sound parsed
      refine ⟨opt, named, spells, ?_⟩
      rw [rbfgradParseOpt, parsed] at accepted
      by_contra low
      simp only [if_pos (Int32.not_lt.mp low), reduceCtorEq] at accepted
  · rintro ⟨opt, named, spells, positive⟩
    rw [rbfgradParseOpt, parseArgs_complete spells false]
    simp only [if_neg (Int32.not_le.mpr positive), Except.ok.injEq, exists_eq']

theorem parseOpt_message {stack : Stack K} {sent : Sent K}
    (accepted : rbfgradParseOpt scan stack argv = .ok sent) :
    ∃ opt, sent.message = ⟨some opt, some stack.sbuf⟩ := by
  unfold rbfgradParseOpt at accepted
  split at accepted
  · exact absurd accepted (by simp)
  · split at accepted
    · exact absurd accepted (by simp)
    · obtain rfl := Except.ok.inj accepted
      exact ⟨_, rfl⟩

/-- The scheduler installs what the tool sends; it makes no check of its own. -/
theorem sent_installed {Child : Type} (kernel : Kernel Child) (random32 : ℕ → BitVec 32)
    (s : State K Child) {stack : Stack K} {sent : Sent K}
    (accepted : rbfgradParseOpt scan stack argv = .ok sent) :
    ∃ opt, sent.message.parms = some opt ∧
      rbfgradChange kernel (some (.ok sent.message)) none random32 s =
        (.ok (), install kernel opt stack.sbuf random32 s) := by
  obtain ⟨opt, message⟩ := parseOpt_message accepted
  refine ⟨opt, by rw [message], ?_⟩
  rw [message]
  exact change_accepted kernel opt stack.sbuf random32 s

end Loop

section Grammar
variable [Field K] [LinearOrder K]

/-- What the last checks say of the probabilities. -/
def Probabilities (opt : TcRbfgradQopt K) : Prop :=
  (0 ≤ opt.p_init ∧ opt.p_init ≤ 1) ∧ (0 ≤ opt.p_max ∧ opt.p_max ≤ 1) ∧
    (0 ≤ opt.p_min ∧ opt.p_min ≤ 1) ∧ opt.p_min ≤ opt.p_max

instance (opt : TcRbfgradQopt K) : Decidable (Probabilities opt) :=
  inferInstanceAs (Decidable (_ ∧ _))

variable [FloorRing K] {scan : Scanners K} {argv : List String} {opt final : TcRbfgradQopt K}
  {named : List String}

/-- The parser knows every keyword but the `n` of the usage text. -/
theorem spells_branches_iff :
    Spells (branches scan) argv opt final named ↔
      Spells (either scan) argv opt final named ∧ "n" ∉ named := by
  apply Spells.iff_unused (branches_subset_either scan)
  · apply keyword_ne
    change "n" ∉ ((either scan).map Branch.keyword).tail
    rw [either_keywords]
    decide
  · intro branch member
    rcases List.mem_cons.mp member with rfl | listed
    · exact .inl rfl
    · exact .inr listed

/-- The usage text lists every keyword but the `_n` of the parser. -/
theorem spells_usage_iff :
    Spells (usage scan) argv opt final named ↔
      Spells (either scan) argv opt final named ∧ "_n" ∉ named := by
  apply Spells.iff_unused (usage_subset_either scan)
  · apply keyword_ne
    rw [usage_keywords]
    decide
  · intro branch member
    rcases List.mem_cons.mp (either_subset_usage scan member) with rfl | listed
    · exact .inl rfl
    · exact .inr listed

/-- The arguments are those of the usage text and meet the constraints that are stated. -/
def Proper (scan : Scanners K) (argv : List String) : Prop :=
  ∃ opt named, Spells (usage scan) argv cleared opt named ∧ 0 < opt.q_ref ∧ Probabilities opt

def Accepted (scan : Scanners K) (stack : Stack K) (argv : List String) : Prop :=
  ∃ sent, rbfgradParseOpt scan stack argv = .ok sent

theorem spells_either_unique {final' : TcRbfgradQopt K} {named' : List String}
    (spells : Spells (either scan) argv opt final named)
    (spells' : Spells (either scan) argv opt final' named') : final = final' ∧ named = named' :=
  spells.unique (either_distinct scan) (either_valued scan) spells'

/-- For arguments that spell a structure with a positive `q_ref`, the parser looks only at how
`n` is spelled. -/
theorem accepted_of_spells (stack : Stack K) (spells : Spells (either scan) argv cleared final named)
    (positive : 0 < final.q_ref) : Accepted scan stack argv ↔ "n" ∉ named := by
  rw [Accepted, parseOpt_ok_iff]
  constructor
  · rintro ⟨opt', named', spells', _⟩
    obtain ⟨read, unused⟩ := spells_branches_iff.mp spells'
    rw [(spells_either_unique spells read).2]
    exact unused
  · intro unused
    exact ⟨final, named, spells_branches_iff.mpr ⟨spells, unused⟩, positive⟩

theorem proper_of_spells (spells : Spells (either scan) argv cleared final named)
    (positive : 0 < final.q_ref) : Proper scan argv ↔ "_n" ∉ named ∧ Probabilities final := by
  constructor
  · rintro ⟨opt', named', spells', _, probabilities⟩
    obtain ⟨read, unused⟩ := spells_usage_iff.mp spells'
    obtain ⟨rfl, rfl⟩ := spells_either_unique spells read
    exact ⟨unused, probabilities⟩
  · rintro ⟨unused, probabilities⟩
    exact ⟨final, named, spells_usage_iff.mpr ⟨spells, unused⟩, positive, probabilities⟩

/-- The parser and the usage text agree on a reading: both refuse it, or both accept it. -/
def SpelledAlike (named : List String) (opt : TcRbfgradQopt K) : Prop :=
  "n" ∈ named ↔ "_n" ∈ named ∨ ¬Probabilities opt

theorem accepted_iff_proper_of_spells (stack : Stack K)
    (spells : Spells (either scan) argv cleared final named) (positive : 0 < final.q_ref) :
    (Accepted scan stack argv ↔ Proper scan argv) ↔ SpelledAlike named final := by
  rw [accepted_of_spells stack spells positive, proper_of_spells spells positive, SpelledAlike]
  tauto

/-- The parser accepts just the arguments that the usage text and the stated constraints allow,
exactly when every reading of them with a positive `q_ref` uses the keyword `n` if and only if it
also uses `_n` or carries probabilities that are out of range. -/
theorem accepts_proper_iff (scan : Scanners K) (stack : Stack K) (argv : List String) :
    (Accepted scan stack argv ↔ Proper scan argv) ↔
      ∀ opt named, Spells (either scan) argv cleared opt named → 0 < opt.q_ref →
        SpelledAlike named opt := by
  constructor
  · intro agree opt named spells positive
    exact (accepted_iff_proper_of_spells stack spells positive).mp agree
  · intro alike
    by_cases spelled : ∃ opt named, Spells (either scan) argv cleared opt named ∧ 0 < opt.q_ref
    · obtain ⟨opt, named, spells, positive⟩ := spelled
      exact (accepted_iff_proper_of_spells stack spells positive).mpr
        (alike opt named spells positive)
    · -- neither side knows the arguments
      constructor
      · intro accepted
        obtain ⟨opt, named, spells, positive⟩ := (parseOpt_ok_iff scan stack argv).mp accepted
        exact absurd ⟨opt, named, (spells_branches_iff.mp spells).1, positive⟩ spelled
      · rintro ⟨opt, named, spells, positive, _⟩
        exact absurd ⟨opt, named, (spells_usage_iff.mp spells).1, positive⟩ spelled

end Grammar

section Deployed

deriving instance DecidableEq for TcRbfgradQopt

/-- The decimal tokens of the test command. -/
def decimal : Scanners ℚ where
  scanInt text :=
    (Stdio.scanInt text.toList).map fun token => Int32.ofInt (Stdio.saturate token.1)
  scanDouble text := (Stdio.scanDecimal text.toList).map Prod.fst
  strtod text := Stdio.scanDecimal text.toList

def emptyStack : Stack ℚ := ⟨0, 0, Deployment.stab⟩

-- the command of `test/test`
example : ((rbfgradParseOpt decimal emptyStack
    ["limit", "10000kB", "sampl_period", "10", "q_ref", "300", "p_init", "0", "p_min", "0",
      "p_max", "1.0", "kp_k", "0.01", "ki_k", "0.007", "kd_k", "0.01", "eta_p", "0.07",
      "eta_i", "0.07", "eta_d", "0.07", "_n", "1", "m", "5", "alpha", "0.1", "eta", "0.06",
      "ecn"]).toOption.bind fun sent => sent.message.parms) = some Deployment.options := by
  decide +kernel

theorem spells_large : Spells (either decimal) ["q_ref", "300", "p_max", "2"] cleared
    { cleared with q_ref := 300, p_max := 2 } ["q_ref", "p_max"] := by
  have first : q_ref decimal ∈ either decimal := by simp [either, branches]
  have second : p_max decimal ∈ either decimal := by simp [either, branches]
  exact .option first rfl (.option second rfl (.done _))

theorem spells_n : Spells (either decimal) ["q_ref", "300", "n", "1"] cleared
    { cleared with q_ref := 300, n := 1 } ["q_ref", "n"] := by
  have first : q_ref decimal ∈ either decimal := by simp [either, branches]
  have second : units decimal "n" ∈ either decimal := by simp [either]
  exact .option first rfl (.option second rfl (.done _))

/-- A probability of two is accepted, and the keyword of the usage text is refused. -/
theorem accepts_improper :
    ¬(Accepted decimal emptyStack ["q_ref", "300", "p_max", "2"] ↔
      Proper decimal ["q_ref", "300", "p_max", "2"]) ∧
    ¬(Accepted decimal emptyStack ["q_ref", "300", "n", "1"] ↔
      Proper decimal ["q_ref", "300", "n", "1"]) := by
  constructor
  · rw [accepted_iff_proper_of_spells emptyStack spells_large (by decide)]
    intro alike
    exact absurd (alike.mpr (.inr (by decide +kernel))) (by decide)
  · rw [accepted_iff_proper_of_spells emptyStack spells_n (by decide)]
    intro alike
    rcases alike.mp (by decide) with underscore | improper
    · exact absurd underscore (by decide)
    · exact improper (by decide +kernel)

end Deployed

end GapsoRbfPid.OptionParser
