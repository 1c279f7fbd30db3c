import Culina.CommandLine
import Culina.SessionTime

/-!
Scenarios. Whatever stands in a scenario file, its lines only do to the device what a user may do; the clock
moves by the waits and by nothing else, and the verdict is told from the lines that are performed. A console
that is given the lines of a scenario does what the scenario does.
-/
namespace Culina.Scripts

open Wire CStrings Services Cooking CookingController Sessions Programs RecipeParser RecipeValidation
open Lid Simulator Device SessionTime CommandLine Runs

/-! What a line asks for. -/

def kExpect : List Char8 := codes ['e', 'x', 'p', 'e', 'c', 't']
def kQuit : List Char8 := codes ['q', 'u', 'i', 't']
def kExit : List Char8 := codes ['e', 'x', 'i', 't']

/-- A duration as it is written. -/
def Spells (text : List Char8) (ms : ℕ) : Prop :=
  ∃ number unit worth, text = number ++ unit ∧ number ≠ [] ∧ (∀ c ∈ number, ∃ d, digit c = some d) ∧
    multiplier unit = some worth ∧ ms = value 10 (number.filterMap digit) * worth ∧ ms ≤ kMaxU32

def Waits (line : List Char8) (ms : ℕ) : Prop := ∃ text, tokenize line = [kWait, text] ∧ Spells text ms

def Quits (line : List Char8) : Prop :=
  (tokenize line).head? = some kQuit ∨ (tokenize line).head? = some kExit

instance (line : List Char8) : Decidable (Quits line) := inferInstanceAs (Decidable (_ ∨ _))

/-- The line expects what does not hold. -/
def Misses (env : CommandEnv) (line : List Char8) : Prop :=
  ∃ metric op expected, tokenize line = [kExpect, metric, op, expected] ∧
    evaluate env metric op expected = some false

/-! Durations. -/

theorem digits_all {number : List Char8} (hdigits : ∀ c ∈ number, ∃ d, digit c = some d) :
    digits digit number = (number.filterMap digit, []) := by
  induction number with
  | nil => rfl
  | cons c number ih =>
    obtain ⟨⟨d, hd⟩, hdigits⟩ := List.forall_mem_cons.mp hdigits
    rw [digits, hd, ih hdigits, List.filterMap_cons_some hd]

theorem digit_some {c : Char8} {d : ℕ} (h : digit c = some d) : 48 ≤ c.toNat ∧ c.toNat ≤ 57 := by
  unfold digit at h
  split_ifs at h with hrange
  exact hrange

theorem strtol_all {number : List Char8} (hsome : number ≠ []) (hdigits : ∀ c ∈ number, ∃ d, digit c = some d) :
    strtol number = some (((value 10 (number.filterMap digit) : ℕ) : ℤ), []) := by
  obtain ⟨c, rest, rfl⟩ := List.exists_cons_of_ne_nil hsome
  obtain ⟨d, hd⟩ := hdigits c List.mem_cons_self
  have hrange := digit_some hd
  have hspace : isSpace c = false := by
    unfold isSpace
    rw [Bool.or_eq_false_iff, decide_eq_false_iff_not, Bool.and_eq_false_iff, decide_eq_false_iff_not,
      decide_eq_false_iff_not]
    refine ⟨?_, Or.inr (by omega)⟩
    rintro rfl
    exact absurd hrange.1 (by decide)
  have hminus : c ≠ code '-' := by
    rintro rfl
    exact absurd hrange.1 (by decide)
  have hplus : c ≠ code '+' := by
    rintro rfl
    exact absurd hrange.1 (by decide)
  have hsign : sign (c :: rest) = (false, c :: rest) := by
    rw [sign, if_neg hminus, if_neg hplus]
  have hfound : (c :: rest).filterMap digit ≠ [] := by
    rw [List.filterMap_cons_some hd]
    exact List.cons_ne_nil _ _
  unfold strtol
  rw [List.dropWhile_cons_of_neg (by simp [hspace]), hsign]
  dsimp only
  rw [digits_all hdigits]
  dsimp only
  rw [if_neg hfound]
  rfl

theorem parseUnsigned_all {number : List Char8} (hdigits : ∀ c ∈ number, ∃ d, digit c = some d) (max : ℕ) :
    parseUnsigned number max =
      if number ≠ [] ∧ value 10 (number.filterMap digit) ≤ max then some (value 10 (number.filterMap digit))
      else none := by
  by_cases hsome : number = []
  · rw [hsome, if_neg fun h => h.1 rfl]
    rfl
  · have hfront : number.head? ≠ some (code '-') := by
      intro hminus
      obtain ⟨d, hd⟩ := hdigits _ (List.mem_of_mem_head? hminus)
      exact absurd (digit_some hd).1 (by decide)
    unfold parseUnsigned
    rw [if_neg hfront, strtol_all hsome hdigits]
    dsimp only
    by_cases hfits : value 10 (number.filterMap digit) ≤ max
    · rw [if_neg (by omega), if_pos ⟨hsome, hfits⟩, Int.toNat_natCast]
    · rw [if_pos (by omega), if_neg fun h => hfits h.2]

/-- No unit begins with a digit. -/
theorem multiplier_front {c : Char8} {unit : List Char8} {worth : ℕ} (h : multiplier (c :: unit) = some worth) :
    digit c = none := by
  unfold multiplier at h
  split_ifs at h with hs hm hms
  · rw [(List.cons.inj hs).1]
    decide
  · rw [(List.cons.inj hm).1]
    decide
  · rw [not_and, not_not] at hms
    rw [(List.cons.inj (hms (List.cons_ne_nil _ _))).1]
    decide

theorem multiplier_pos {unit : List Char8} {worth : ℕ} (h : multiplier unit = some worth) :
    0 < worth := by
  unfold multiplier at h
  split_ifs at h <;> cases h <;> decide

/-- A duration is read as it is written, and only if 32 bits hold it. -/
theorem parseDurationMs_iff (text : List Char8) (ms : ℕ) : parseDurationMs text = some ms ↔ Spells text ms := by
  unfold parseDurationMs
  rw [List.span_eq_takeWhile_dropWhile]
  dsimp only
  constructor
  · intro h
    have hdigits : ∀ c ∈ text.takeWhile fun c => (digit c).isSome, ∃ d, digit c = some d :=
      fun c hc => Option.isSome_iff_exists.mp (List.mem_takeWhile_imp (p := fun c => (digit c).isSome) hc)
    cases hunit : multiplier (text.dropWhile fun c => (digit c).isSome) with
    | none =>
      rw [hunit] at h
      cases h
    | some worth =>
      rw [hunit] at h
      dsimp only at h
      rw [parseUnsigned_all hdigits] at h
      split_ifs at h with hfits
      · cases h
        refine ⟨_, _, worth, List.takeWhile_append_dropWhile.symm, hfits.1, hdigits, hunit, rfl, ?_⟩
        exact (Nat.le_div_iff_mul_le (multiplier_pos hunit)).mp hfits.2
      · cases h
  · rintro ⟨number, unit, worth, rfl, hsome, hdigits, hunit, rfl, hfits⟩
    have hall : ∀ c ∈ number, (digit c).isSome = true :=
      fun c hc => Option.isSome_iff_exists.mpr (hdigits c hc)
    have hnone : unit.takeWhile (fun c => (digit c).isSome) = [] ∧
        unit.dropWhile (fun c => (digit c).isSome) = unit := by
      cases unit with
      | nil => exact ⟨rfl, rfl⟩
      | cons c unit => simp [multiplier_front hunit]
    rw [List.takeWhile_append_of_pos hall, List.dropWhile_append_of_pos hall, hnone.1, hnone.2, List.append_nil,
      hunit]
    dsimp only
    rw [parseUnsigned_all hdigits, if_pos ⟨hsome, (Nat.le_div_iff_mul_le (multiplier_pos hunit)).mpr hfits⟩]
    rfl

theorem waits_iff (line : List Char8) (ms : ℕ) :
    Waits line ms ↔ ∃ text, tokenize line = [kWait, text] ∧ parseDurationMs text = some ms := by
  unfold Waits
  simp only [parseDurationMs_iff]

/-! What a line does. -/

/-- What a command other than waiting and quitting does. -/
inductive Handled (env : CommandEnv) : Bool × CommandEnv → Prop
  | refused : Handled env env.refuse
  | idle : Handled env (true, env)
  | acts (action : SystemSim.Action AnyProgram) (allowed : env.sys.Allowed action)
      (timeless : isStepMs action = false) : Handled env (env.act action)

/-- What an expectation does. -/
inductive Expected (env : CommandEnv) (line : List Char8) : Bool × CommandEnv → Prop
  | refused (meets : ¬ Misses env line) : Expected env line env.refuse
  | met (meets : ¬ Misses env line) : Expected env line (true, env)
  | missed (misses : Misses env line) :
      Expected env line (true, { env with expectFailures := env.expectFailures + 1 })

variable {env : CommandEnv}

theorem act_handled {action : SystemSim.Action AnyProgram} (htime : isStepMs action = false)
    (hallowed : env.sys.Allowed action) : Handled env (env.act action) := Handled.acts action hallowed htime

theorem startProgram_handled (program : AnyProgram) : Handled env (env.startProgram program) :=
  act_handled rfl trivial

/-- What is added has room in the bowl. -/
theorem handleAdd_handled (args : List (List Char8)) : Handled env (handleAdd env args) := by
  unfold handleAdd
  split
  · split
    · rename_i grams hgrams
      refine act_handled rfl ?_
      unfold parseFloat at hgrams
      split at hgrams
      · split_ifs at hgrams with hrange
        cases hgrams
        rw [not_or, not_or, not_lt, not_lt] at hrange
        refine ⟨le_trans ?_ hrange.2.1, hrange.2.2⟩
        decide +kernel
      · cases hgrams
    · exact Handled.refused
  · exact Handled.refused

theorem setTemp_handled (args : List (List Char8)) : Handled env (setTemp env args) := by
  unfold setTemp
  split
  · split
    · exact act_handled rfl trivial
    · exact Handled.refused
  · exact Handled.refused

theorem setSpeed_handled (args : List (List Char8)) : Handled env (setSpeed env args) := by
  unfold setSpeed
  split
  · split
    · exact act_handled rfl trivial
    · exact Handled.refused
  · exact Handled.refused

theorem manual_handled (args : List (List Char8)) : Handled env (manual env args) := by
  unfold manual
  split
  · split
    · exact startProgram_handled _
    · exact Handled.refused
  · exact Handled.refused

theorem timed_handled (program : BitVec 32 → AnyProgram) (args : List (List Char8)) :
    Handled env (timed program env args) := by
  unfold timed
  split
  · split
    · exact startProgram_handled _
    · exact Handled.refused
  · exact Handled.refused

theorem sousVide_handled (args : List (List Char8)) : Handled env (sousVide env args) := by
  unfold sousVide
  split
  · split
    · exact startProgram_handled _
    · exact Handled.refused
  · exact Handled.refused

theorem turbo_handled (args : List (List Char8)) : Handled env (turbo env args) := by
  unfold turbo
  split
  · split
    · split
      · exact Handled.refused
      · exact startProgram_handled _
    · exact Handled.refused
  · exact Handled.refused

theorem load_handled (args : List (List Char8)) : Handled env (load env args) := by
  unfold load
  split
  · exact Handled.refused
  · split
    · exact Handled.idle
    · split
      · exact act_handled rfl trivial
      · exact startProgram_handled _

theorem lid_handled (args : List (List Char8)) : Handled env (lid env args) := by
  unfold CommandLine.lid
  split
  · split_ifs
    · exact act_handled rfl trivial
    · exact act_handled rfl trivial
    · exact act_handled rfl trivial
    · exact act_handled rfl trivial
    · exact Handled.refused
  · exact Handled.refused

theorem handleOta_handled (args : List (List Char8)) : Handled env (handleOta env args) := by
  unfold handleOta
  split
  · exact Handled.refused
  · dsimp only
    split
    · exact Handled.refused
    · split
      · exact Handled.refused
      · exact act_handled rfl trivial

theorem handleExpect_expected {line : List Char8} {args : List (List Char8)} (hline : tokenize line = kExpect :: args) :
    Expected env line (handleExpect env args) := by
  unfold handleExpect
  split
  · rename_i metric op expected
    have hmisses : Misses env line ↔ evaluate env metric op expected = some false := by
      unfold Misses
      rw [hline]
      constructor
      · rintro ⟨metric', op', expected', hsame, hfalse⟩
        cases hsame
        exact hfalse
      · intro hfalse
        exact ⟨metric, op, expected, rfl, hfalse⟩
    cases hholds : evaluate env metric op expected with
    | none =>
      refine Expected.refused ?_
      rw [hmisses, hholds]
      exact (Option.some_ne_none false).symm
    | some holds =>
      cases holds with
      | true =>
        refine Expected.met ?_
        rw [hmisses, hholds]
        exact fun h => Bool.noConfusion (Option.some.inj h)
      | false =>
        refine Expected.missed ?_
        rw [hmisses, hholds]
  · rename_i hother
    refine Expected.refused ?_
    rintro ⟨metric, op, expected, hsame, -⟩
    rw [hline] at hsame
    exact hother metric op expected (List.cons.inj hsame).2

/-- What a line does: it waits, quits, expects something or is handled by its command. -/
inductive Executed (env : CommandEnv) (line : List Char8) : Bool × CommandEnv → Prop
  | waits (ms : ℕ) (waits : Waits line ms) (stays : ¬ Quits line) (meets : ¬ Misses env line) :
      Executed env line (true, { env with sys := stepMs env.sys ms })
  | quits (untimed : ∀ ms, ¬ Waits line ms) (quits : Quits line) (meets : ¬ Misses env line) :
      Executed env line (true, { env with quitRequested := true })
  | expects (result : Bool × CommandEnv) (untimed : ∀ ms, ¬ Waits line ms) (stays : ¬ Quits line)
      (expected : Expected env line result) : Executed env line result
  | handles (result : Bool × CommandEnv) (untimed : ∀ ms, ¬ Waits line ms) (stays : ¬ Quits line)
      (meets : ¬ Misses env line) (handled : Handled env result) : Executed env line result

/-- Only the command waits, quits or expects. -/
theorem not_waits {line cmd : List Char8} {args : List (List Char8)} (hline : tokenize line = cmd :: args)
    (hcmd : cmd ≠ kWait) (ms : ℕ) : ¬ Waits line ms := by
  rintro ⟨text, hsame, -⟩
  rw [hline] at hsame
  exact hcmd (List.cons.inj hsame).1

theorem not_quits {line cmd : List Char8} {args : List (List Char8)} (hline : tokenize line = cmd :: args)
    (hquit : cmd ≠ kQuit) (hexit : cmd ≠ kExit) : ¬ Quits line := by
  unfold Quits
  rw [hline, List.head?_cons, Option.some.injEq, Option.some.injEq]
  exact fun h => h.elim hquit hexit

theorem not_misses {line cmd : List Char8} {args : List (List Char8)} (hline : tokenize line = cmd :: args)
    (hcmd : cmd ≠ kExpect) : ¬ Misses env line := by
  rintro ⟨metric, op, expected, hsame, -⟩
  rw [hline] at hsame
  exact hcmd (List.cons.inj hsame).1

theorem executed_handles {line cmd : List Char8} {args : List (List Char8)} {result : Bool × CommandEnv}
    (hline : tokenize line = cmd :: args) (hcmd : cmd ∉ [kWait, kQuit, kExit, kExpect])
    (hhandled : Handled env result) : Executed env line result := by
  simp only [List.mem_cons, List.not_mem_nil, or_false, not_or] at hcmd
  obtain ⟨hwait, hquit, hexit, hexpect⟩ := hcmd
  exact Executed.handles result (not_waits hline hwait) (not_quits hline hquit hexit) (not_misses hline hexpect)
    hhandled

theorem wait_executed {line : List Char8} {args : List (List Char8)} (hline : tokenize line = kWait :: args) :
    Executed env line (wait env args) := by
  have hstays : ¬ Quits line := not_quits hline (by decide) (by decide)
  have hmeets : ¬ Misses env line := not_misses hline (by decide)
  have hrefused (huntimed : ∀ ms, ¬ Waits line ms) : Executed env line env.refuse :=
    Executed.handles _ huntimed hstays hmeets Handled.refused
  unfold wait
  split
  · rename_i text
    have hwaits (ms : ℕ) : Waits line ms ↔ parseDurationMs text = some ms := by
      rw [waits_iff, hline]
      constructor
      · rintro ⟨text', hsame, hparsed⟩
        cases hsame
        exact hparsed
      · intro hparsed
        exact ⟨text, rfl, hparsed⟩
    cases hparsed : parseDurationMs text with
    | none =>
      refine hrefused fun ms => ?_
      rw [hwaits, hparsed]
      exact (Option.some_ne_none ms).symm
    | some ms => exact Executed.waits ms ((hwaits ms).mpr hparsed) hstays hmeets
  · rename_i hother
    refine hrefused fun ms => ?_
    rintro ⟨text, hsame, -⟩
    rw [hline] at hsame
    exact hother text (List.cons.inj hsame).2

theorem expect_executed {line : List Char8} {args : List (List Char8)} (hline : tokenize line = kExpect :: args) :
    Executed env line (handleExpect env args) :=
  Executed.expects _ (not_waits hline (by decide)) (not_quits hline (by decide) (by decide))
    (handleExpect_expected hline)

theorem ite_executed {line : List Char8} {p : Prop} [Decidable p] {a b : Bool × CommandEnv}
    (ha : p → Executed env line a) (hb : ¬ p → Executed env line b) : Executed env line (if p then a else b) := by
  split
  · exact ha ‹p›
  · exact hb ‹¬ p›

theorem executeCommand_executed (env : CommandEnv) (line : List Char8) :
    Executed env line (executeCommand env line) := by
  unfold executeCommand
  cases hline : tokenize line with
  | nil =>
    refine Executed.handles _ ?_ ?_ ?_ Handled.idle
    · rintro ms ⟨text, hsame, -⟩
      rw [hline] at hsame
      cases hsame
    · unfold Quits
      rw [hline]
      exact fun h => h.elim (Option.some_ne_none _).symm (Option.some_ne_none _).symm
    · rintro ⟨metric, op, expected, hsame, -⟩
      rw [hline] at hsame
      cases hsame
  | cons cmd args =>
    dsimp only
    by_cases hcomment : cmd.head? = some (code '#')
    · rw [if_pos hcomment]
      refine executed_handles hline ?_ Handled.idle
      intro hmem
      simp only [List.mem_cons, List.not_mem_nil, or_false] at hmem
      rcases hmem with rfl | rfl | rfl | rfl <;> exact absurd hcomment (by decide)
    rw [if_neg hcomment]
    refine ite_executed (fun h => executed_handles hline (by rw [h]; decide) Handled.idle) fun _ => ?_
    refine ite_executed (fun h => executed_handles hline (by rw [h]; decide) Handled.idle) fun _ => ?_
    refine ite_executed (fun h => executed_handles hline (by rw [h]; decide) (handleAdd_handled args)) fun _ => ?_
    refine ite_executed (fun h => executed_handles hline (by rw [h]; decide) (setTemp_handled args)) fun _ => ?_
    refine ite_executed (fun h => executed_handles hline (by rw [h]; decide) (setSpeed_handled args)) fun _ => ?_
    refine ite_executed (fun h => executed_handles hline (by rw [h]; decide) (manual_handled args)) fun _ => ?_
    refine ite_executed (fun h => executed_handles hline (by rw [h]; decide) (timed_handled _ args)) fun _ => ?_
    refine ite_executed (fun h => executed_handles hline (by rw [h]; decide) (timed_handled _ args)) fun _ => ?_
    refine ite_executed (fun h => executed_handles hline (by rw [h]; decide) (sousVide_handled args)) fun _ => ?_
    refine ite_executed (fun h => executed_handles hline (by rw [h]; decide) (turbo_handled args)) fun _ => ?_
    refine ite_executed (fun h => executed_handles hline (by rw [h]; decide) (load_handled args)) fun _ => ?_
    refine ite_executed (fun h => executed_handles hline (by rw [h]; decide) (act_handled rfl trivial)) fun _ => ?_
    refine ite_executed (fun h => executed_handles hline (by rw [h]; decide) (act_handled rfl trivial)) fun _ => ?_
    refine ite_executed (fun h => executed_handles hline (by rw [h]; decide) (act_handled rfl trivial)) fun _ => ?_
    refine ite_executed (fun h => executed_handles hline (by rw [h]; decide) Handled.idle) fun _ => ?_
    refine ite_executed (fun h => executed_handles hline (by rw [h]; decide) (lid_handled args)) fun _ => ?_
    refine ite_executed (fun h => executed_handles hline (by rw [h]; decide) (handleOta_handled args)) fun _ => ?_
    refine ite_executed (fun h => wait_executed (hline.trans (congrArg (· :: args) h))) fun hwait => ?_
    refine ite_executed (fun h => expect_executed (hline.trans (congrArg (· :: args) h))) fun hexpect => ?_
    refine ite_executed (fun h => ?_) fun hquits => ?_
    · have hquits : Quits line := by
        unfold Quits
        rw [hline, List.head?_cons, Option.some.injEq, Option.some.injEq]
        exact h
      refine Executed.quits (not_waits hline ?_) hquits (not_misses hline ?_)
      · rcases h with rfl | rfl <;> decide
      · rcases h with rfl | rfl <;> decide
    · obtain ⟨hquit, hexit⟩ := not_or.mp hquits
      refine executed_handles hline ?_ Handled.refused
      simp only [List.mem_cons, List.not_mem_nil, or_false, not_or]
      exact ⟨hwait, hquit, hexit, hexpect⟩

/-! The lines that are performed. -/

/-- The line that quits is the last one. -/
def performed : List (List Char8) → List (List Char8)
  | [] => []
  | line :: rest => if Quits line then [line] else line :: performed rest

def perform (env : CommandEnv) (line : List Char8) : CommandEnv := (executeCommand env line).2

def Accepted (env : CommandEnv) (line : List Char8) : Prop := (executeCommand env line).1 = true

theorem perform_quitRequested (h : env.quitRequested = false) (line : List Char8) :
    (perform env line).quitRequested = decide (Quits line) := by
  have hexecuted := executeCommand_executed env line
  unfold perform
  generalize executeCommand env line = result at hexecuted
  cases hexecuted with
  | quits _ quits _ => exact (decide_eq_true quits).symm
  | waits _ _ stays _ => exact h.trans (decide_eq_false stays).symm
  | expects _ _ stays expected =>
    refine Eq.trans ?_ (decide_eq_false stays).symm
    cases expected <;> exact h
  | handles _ _ stays _ handled =>
    refine Eq.trans ?_ (decide_eq_false stays).symm
    cases handled <;> exact h

/-- Run lemma. -/
theorem runLines_performed (h : env.quitRequested = false) (lines : List (List Char8)) :
    (runLines env lines).2 = (performed lines).foldl perform env ∧
      ((runLines env lines).1 = false ↔ Along Accepted perform env (performed lines)) := by
  induction lines generalizing env with
  | nil => exact ⟨rfl, fun _ => trivial, fun _ => rfl⟩
  | cons line rest ih =>
    have hquit := perform_quitRequested h line
    unfold perform at hquit
    unfold runLines performed
    dsimp only
    by_cases hquits : Quits line
    · rw [hquit, if_pos (decide_eq_true hquits), if_pos hquits]
      refine ⟨rfl, ?_⟩
      change (!(executeCommand env line).1) = false ↔ Accepted env line ∧ True
      rw [Bool.not_eq_false', and_true]
      rfl
    · rw [decide_eq_false hquits] at hquit
      obtain ⟨hrest, hverdict⟩ := @ih (perform env line) hquit
      rw [hquit, if_neg Bool.false_ne_true, if_neg hquits]
      refine ⟨hrest, ?_⟩
      change (!(executeCommand env line).1 || (runLines (perform env line) rest).1) = false ↔
        Accepted env line ∧ Along Accepted perform (perform env line) (performed rest)
      rw [Bool.or_eq_false_iff, hverdict, Bool.not_eq_false']
      rfl

variable {sys : SystemSim AnyProgram} {recipes : RecipeLibrary}

/-- The lines of a scenario that are performed. -/
def scriptLines (file : File) : List (List Char8) := performed (readScript file.fails [] file.bytes)

theorem runScript_performed (sys : SystemSim AnyProgram) (recipes : RecipeLibrary) (file : File) :
    (runScript sys recipes (some file)).2 = (scriptLines file).foldl perform { sys, recipes } :=
  (@runLines_performed { sys, recipes } rfl _).1

theorem next_machine (s : SystemSim AnyProgram) {action : SystemSim.Action AnyProgram}
    (htime : isStepMs action = false) : (s.next action).rig.machine = s.rig.machine := by
  cases action with
  | stepMs => exact Bool.noConfusion htime
  | _ => rfl

theorem stepMs_operated (h : Operated sys) (ms : ℕ) : Operated (stepMs sys ms) ∧
    (stepMs sys ms).rig.machine.clock = sys.rig.machine.clock + ms := by
  unfold stepMs
  induction ms generalizing sys with
  | zero => exact ⟨h, rfl⟩
  | succ ms ih =>
    obtain ⟨hoperated, hclock⟩ := ih (h.next .stepMs trivial)
    rw [List.replicate_succ, List.foldl_cons]
    refine ⟨hoperated, hclock.trans ?_⟩
    have hone : (sys.next .stepMs).rig.machine.clock = sys.rig.machine.clock + 1 := stepMs_clock sys
    omega

/-- How long a line takes. -/
def Takes (line : List Char8) (ms : ℕ) : Prop := Waits line ms ∨ ms = 0 ∧ ∀ ms, ¬ Waits line ms

/-- Step lemma: a line does what a user may do, and takes its time. -/
theorem perform_operated (h : Operated env.sys) (line : List Char8) : Operated (perform env line).sys ∧
    ∃ ms, Takes line ms ∧ (perform env line).sys.rig.machine.clock = env.sys.rig.machine.clock + ms := by
  have hexecuted := executeCommand_executed env line
  unfold perform
  generalize executeCommand env line = result at hexecuted
  cases hexecuted with
  | waits ms waits _ _ =>
    obtain ⟨hoperated, hclock⟩ := stepMs_operated h ms
    exact ⟨hoperated, ms, Or.inl waits, hclock⟩
  | quits untimed _ _ => exact ⟨h, 0, Or.inr ⟨rfl, untimed⟩, rfl⟩
  | expects _ untimed _ expected =>
    refine ⟨?_, 0, Or.inr ⟨rfl, untimed⟩, ?_⟩ <;> cases expected
    all_goals first | exact h | rfl
  | handles _ untimed _ _ handled =>
    cases handled with
    | refused | idle => exact ⟨h, 0, Or.inr ⟨rfl, untimed⟩, rfl⟩
    | acts action allowed timeless =>
      refine ⟨h.next action allowed, 0, Or.inr ⟨rfl, untimed⟩, ?_⟩
      change (env.sys.next action).rig.machine.clock = _
      rw [next_machine _ timeless]
      rfl

/-- Run lemma. -/
theorem foldl_operated (h : Operated env.sys) (lines : List (List Char8)) :
    Operated (lines.foldl perform env).sys ∧ ∃ times, List.Forall₂ Takes lines times ∧
      (lines.foldl perform env).sys.rig.machine.clock = env.sys.rig.machine.clock + times.sum := by
  induction lines generalizing env with
  | nil => exact ⟨h, [], List.Forall₂.nil, rfl⟩
  | cons line rest ih =>
    obtain ⟨hoperated, ms, htakes, hclock⟩ := perform_operated h line
    obtain ⟨hlast, times, htimes, htotal⟩ := ih hoperated
    refine ⟨hlast, ms :: times, List.Forall₂.cons htakes htimes, ?_⟩
    rw [List.foldl_cons, htotal, hclock, List.sum_cons, Nat.add_assoc]

/-- Whatever stands in a scenario, the device it leaves is safe, and its clock has moved by what the performed
lines wait. -/
theorem script_safe (h : Operated sys) (recipes : RecipeLibrary) (file : File) :
    let after := (runScript sys recipes (some file)).2.sys
    (after.rig.machine.mcu.fault ≠ .linkLost ∧ after.rig.board.sensors.watchdog.tripped = false ∧
        (after.rig.board.lid.locked = false → after.rig.board.sensors.motor.rpm ≤ 6400) ∧
        ∀ noise : ℚ, 0 ≤ noise → (∀ n, -noise ≤ after.rig.board.sensors.tempSensor.noise n) →
          20 ≤ after.rig.board.sensors.thermal.temperatureC ∧
            after.rig.board.sensors.thermal.temperatureC ≤ 165 + noise + 19 / 20000) ∧
      ∃ times, List.Forall₂ Takes (scriptLines file) times ∧
        after.rig.machine.clock = sys.rig.machine.clock + times.sum := by
  have hstart : Operated (⟨sys, recipes, 0, false⟩ : CommandEnv).sys := h
  obtain ⟨hoperated, htimes⟩ := foldl_operated hstart (scriptLines file)
  rw [← runScript_performed] at hoperated htimes
  exact ⟨device_safe hoperated, htimes⟩

/-- A bowl that is heated for a while. -/
def heating : File where
  bytes := codes ['s', 'e', 't', '-', 't', 'e', 'm', 'p', ' ', '1', '0', '0', '\n',
    'w', 'a', 'i', 't', ' ', '5', 'm', '\n']

theorem atIdle_operated : Operated atIdle := Reachable.init ⟨_, _, rfl⟩

theorem script_safe_heating : (runScript atIdle {} (some heating)).2.sys.rig.machine.mcu.fault ≠ .linkLost ∧
    ∃ times, List.Forall₂ Takes (scriptLines heating) times ∧
      (runScript atIdle {} (some heating)).2.sys.rig.machine.clock = atIdle.rig.machine.clock + times.sum :=
  have hsafe := script_safe atIdle_operated {} heating
  ⟨hsafe.1.1, hsafe.2⟩

/-! The console. -/

/-- White space behind a line makes no word. -/
theorem words_space {c : Char8} (hc : isSpace c = true) (token line : List Char8) :
    words token (line ++ [c]) = words token line := by
  induction line generalizing token with
  | nil => simp [words, hc]
  | cons d line ih =>
    rw [List.cons_append, words, words, ih, ih]

theorem executeCommand_newline (env : CommandEnv) (line : List Char8) :
    executeCommand env (line ++ [code '\n']) = executeCommand env line := by
  have hwords : tokenize (line ++ [code '\n']) = tokenize line := words_space (by decide) [] line
  unfold executeCommand
  rw [hwords]

/-- What has been read of a line is in one of the lines to come. -/
theorem exists_longer {front : List Char8} (hfront : front ≠ []) (bytes : List Char8) :
    ∃ line ∈ readScript false front bytes, front.length ≤ line.length := by
  induction bytes generalizing front with
  | nil =>
    unfold readScript
    rw [if_neg fun h => h.elim hfront Bool.false_ne_true]
    exact ⟨front, List.mem_singleton_self front, le_rfl⟩
  | cons c rest ih =>
    unfold readScript
    split_ifs
    · exact ⟨front, List.mem_cons_self, le_rfl⟩
    · obtain ⟨line, hline, hlength⟩ := ih (List.append_ne_nil_of_right_ne_nil front (List.cons_ne_nil c []))
      rw [List.length_append] at hlength
      exact ⟨line, hline, by omega⟩

/-- What the console hands out of a line, with or without its end. -/
def Shows (shown : Line) (line : List Char8) : Prop := shown.text = line ∨ shown.text = line ++ [code '\n']

/-- Short lines reach the console whole. -/
theorem readLines_script {front bytes : List Char8}
    (hshort : ∀ line ∈ readScript false front bytes, line.length ≤ 254) :
    List.Forall₂ Shows (readLines 256 false front bytes) (readScript false front bytes) := by
  induction bytes generalizing front with
  | nil =>
    unfold readLines readScript
    by_cases hnone : front = [] ∨ false = true
    · rw [if_pos hnone, if_pos hnone]
      exact List.Forall₂.nil
    · rw [if_neg hnone, if_neg hnone]
      exact List.Forall₂.cons (Or.inl rfl) List.Forall₂.nil
  | cons c rest ih =>
    unfold readLines readScript
    unfold readScript at hshort
    by_cases hend : c = code '\n'
    · rw [if_pos hend] at hshort
      rw [if_pos (Or.inl hend), if_pos hend, hend]
      exact List.Forall₂.cons (Or.inr rfl) (ih (List.forall_mem_cons.mp hshort).2)
    · rw [if_neg hend] at hshort
      obtain ⟨line, hline, hlength⟩ :=
        exists_longer (List.append_ne_nil_of_right_ne_nil front (List.cons_ne_nil c [])) rest
      have hbound := hshort line hline
      rw [List.length_append, List.length_singleton] at hlength
      rw [if_neg fun h => h.elim hend (by omega), if_neg hend]
      exact ih hshort

theorem converse_lines {shown : List Line} {lines : List (List Char8)} (hshows : List.Forall₂ Shows shown lines)
    (hzero : ∀ line ∈ lines, 0 ∉ line) (env : CommandEnv) : converse env shown = (runLines env lines).2 := by
  induction hshows generalizing env with
  | nil => rfl
  | cons hline _ ih =>
    rename_i shown line _ _ _
    obtain ⟨hfirst, hrest⟩ := List.forall_mem_cons.mp hzero
    have hsame : executeCommand env (content shown.text) = executeCommand env line := by
      rcases hline with htext | htext
      · rw [htext, content_of_not_mem hfirst]
      · have hnewline : 0 ∉ line ++ [code '\n'] := by
          rw [List.mem_append, not_or, List.mem_singleton]
          exact ⟨hfirst, by decide⟩
        rw [htext, content_of_not_mem hnewline, executeCommand_newline]
    unfold converse runLines
    dsimp only
    rw [hsame]
    split_ifs
    · rfl
    · exact ih hrest _

/-- One grammar everywhere: a console that is given the lines of a scenario does what the scenario does fifty
milliseconds later, as long as its buffer holds each of them and none has a terminator in it. -/
theorem repl_script (sys : SystemSim AnyProgram) (recipes : RecipeLibrary) (bytes : List Char8)
    (hshort : ∀ line ∈ readScript false [] bytes, line.length ≤ 254)
    (hzero : ∀ line ∈ readScript false [] bytes, 0 ∉ line) :
    runRepl sys recipes ⟨bytes, false⟩ = (runScript (stepMs sys 50) recipes (some ⟨bytes, false⟩)).2 :=
  converse_lines (readLines_script hshort) hzero { sys := stepMs sys 50, recipes }

theorem repl_script_heating : runRepl atIdle {} heating = (runScript (stepMs atIdle 50) {} (some heating)).2 :=
  repl_script atIdle {} heating.bytes (by decide) (by decide)

end Culina.Scripts
