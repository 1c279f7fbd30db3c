import Culina.CStrings
import Culina.Wire
import Mathlib.Data.List.DropRight

/-!
The recipe format: lines of text, each step of a recipe one line of fields. What the
reader accepts is well formed: it has a name and a step, and every step has the fields of its
kind, within their bounds. A character array is the text in front of its terminator.
-/
namespace Culina.RecipeParser

open Wire CStrings

inductive StepKind where
  | note
  | mix
  | heat
  | weigh
deriving DecidableEq

structure RecipeStep where
  kind : StepKind := .note
  text : List Char8 := []
  targetTemp : DeciCelsius := 0
  dialSpeed : ℕ := 0
  durationS : BitVec 32 := 0
  targetWeight : Grams := 0
deriving DecidableEq

abbrev kMaxSteps : ℕ := 16

theorem kMaxSteps_pos : 0 < kMaxSteps := by decide

structure Recipe where
  name : List Char8 := []
  steps : Vector RecipeStep kMaxSteps := Vector.replicate kMaxSteps {}
  stepCount : ℕ := 0
  bounded : stepCount ≤ kMaxSteps := by decide
deriving DecidableEq

def Recipe.step (recipe : Recipe) (i : Fin recipe.stepCount) : RecipeStep :=
  recipe.steps.get (i.castLE recipe.bounded)

/-! Fields. -/

def skipSpaces (p : List Char8) : List Char8 := p.dropWhile fun c => c = code ' ' || c = code '\t'

def trimEnd (s : List Char8) : List Char8 :=
  s.rdropWhile fun c => c = code ' ' || c = code '\t' || c = code '\n' || c = code '\r'

def parseKind (token : List Char8) : Option StepKind :=
  if token = codes ['n', 'o', 't', 'e'] then some .note
  else if token = codes ['m', 'i', 'x'] then some .mix
  else if token = codes ['h', 'e', 'a', 't'] then some .heat
  else if token = codes ['w', 'e', 'i', 'g', 'h'] then some .weigh
  else none

structure Fields where
  temp : Bool := false
  speed : Bool := false
  time : Bool := false
  weight : Bool := false

/-- A number out of the range of `long` is out of these bounds as well. -/
def parseLong (text : List Char8) (min max : ℤ) : Option ℤ :=
  match strtol text with
  | none => none
  | some (value, rest) =>
      if skipSpaces rest ≠ [] ∨ value < min ∨ value > max then none else some value

/-- The product with ten is rounded to a float like the value itself. -/
def parseTemperature (text : List Char8) : Option DeciCelsius :=
  match strtof text with
  | some (.finite value, rest) =>
      if skipSpaces rest ≠ [] ∨ value < 37 ∨ value > 160 then none
      else some (fromCelsius (single (value * 10) / 10))
  | _ => none

/-- A step with the fields seen so far. -/
structure Filled where
  step : RecipeStep
  fields : Fields := {}

/-- Unknown keys are ignored. A field that fails is not seen, even if it was before. -/
def applyField (filled : Filled) (key value : List Char8) : Bool × Filled :=
  let step := filled.step
  let fields := filled.fields
  if key = codes ['t', 'e', 'x', 't'] then (true, ⟨{ step with text := value.take 95 }, fields⟩)
  else if key = codes ['t', 'e', 'm', 'p'] then
    match parseTemperature value with
    | some parsed => (true, ⟨{ step with targetTemp := parsed }, { fields with temp := true }⟩)
    | none => (false, ⟨step, { fields with temp := false }⟩)
  else if key = codes ['s', 'p', 'e', 'e', 'd'] then
    match parseLong value 0 10 with
    | some parsed => (true, ⟨{ step with dialSpeed := parsed.toNat }, { fields with speed := true }⟩)
    | none => (false, ⟨{ step with dialSpeed := 0 }, { fields with speed := false }⟩)
  else if key = codes ['t', 'i', 'm', 'e'] then
    match parseLong value 1 86400 with
    | some parsed =>
        (true, ⟨{ step with durationS := BitVec.ofInt 32 parsed }, { fields with time := true }⟩)
    | none => (false, ⟨{ step with durationS := 0 }, { fields with time := false }⟩)
  else if key = codes ['w', 'e', 'i', 'g', 'h', 't'] then
    match parseLong value 1 2200 with
    | some parsed => (true, ⟨{ step with targetWeight := parsed }, { fields with weight := true }⟩)
    | none => (false, ⟨{ step with targetWeight := 0 }, { fields with weight := false }⟩)
  else (true, filled)

/-- The tokens behind the kind; one without an equals sign is ignored. -/
def applyFields (filled : Filled) : List (List Char8) → Bool × Filled
  | [] => (true, filled)
  | token :: rest =>
      let token := trimEnd (skipSpaces token)
      match token.dropWhile (· ≠ code '=') with
      | [] => applyFields filled rest
      | _ :: value =>
          match applyField filled (trimEnd (token.takeWhile (· ≠ code '='))) (skipSpaces value) with
          | (true, filled) => applyFields filled rest
          | (false, filled) => (false, filled)

/-- The step has the fields that its kind asks for. -/
def Filled.Valid (filled : Filled) : Prop :=
  filled.step.kind = .note ∨
    (filled.step.kind = .mix ∧ filled.fields.speed = true ∧ filled.step.dialSpeed > 0 ∧
      filled.fields.time = true) ∨
    (filled.step.kind = .heat ∧ filled.fields.temp = true ∧ filled.fields.time = true) ∨
    (filled.step.kind = .weigh ∧ filled.fields.weight = true)

instance (filled : Filled) : Decidable filled.Valid := inferInstanceAs (Decidable (_ ∨ _))

/-- The step is filled in place, whatever the status. -/
def parseStep (body : List Char8) (step : RecipeStep) : Status × RecipeStep :=
  match body.splitOn (code '|') with
  | [] => (.invalidArgument, step)
  | first :: rest =>
      match parseKind (trimEnd (skipSpaces first)) with
      | none => (.invalidArgument, step)
      | some kind =>
          match applyFields ⟨{ step with kind }, {}⟩ rest with
          | (false, filled) => (.invalidArgument, filled.step)
          | (true, filled) => (if filled.Valid then .ok else .invalidArgument, filled.step)

/-! Lines. -/

def kLineSize : ℕ := 256

/-- The recipe with its next step, counted or not. -/
def Recipe.fill (out : Recipe) (step : RecipeStep) : Recipe :=
  { out with steps := out.steps.setIfInBounds out.stepCount step }

def Recipe.count (out : Recipe) (hroom : out.stepCount < kMaxSteps) : Recipe :=
  { out with stepCount := out.stepCount + 1, bounded := hroom }

def parseLines (out : Recipe) : List Line → Status × Recipe
  | [] => (.ok, out)
  | line :: rest =>
      if code '\n' ∉ content line.text ∧ line.eof = false then (.overflow, out)
      else
        let p := skipSpaces (trimEnd (content line.text))
        if p = [] ∨ p.head? = some (code '#') then parseLines out rest
        else if (codes ['n', 'a', 'm', 'e', ':']).isPrefixOf p then
          parseLines { out with name := (skipSpaces (p.drop 5)).take 31 } rest
        else if (codes ['s', 't', 'e', 'p', ':']).isPrefixOf p then
          if hroom : out.stepCount < kMaxSteps then
            match parseStep (skipSpaces (p.drop 5)) (out.steps.get ⟨out.stepCount, hroom⟩) with
            | (.ok, step) => parseLines ((out.fill step).count hroom) rest
            | (status, step) => (status, out.fill step)
          else (.overflow, out)
        else parseLines out rest

/-- A path that is null or does not open is `none`. -/
def parseRecipeFile (path : Option File) (out : Recipe) : Status × Recipe :=
  match path with
  | none => (.invalidArgument, out)
  | some file =>
      match parseLines {} (file.lines kLineSize) with
      | (.ok, out) =>
          if file.fails then (.hardwareFault, out)
          else if out.name = [] ∨ out.stepCount = 0 then (.invalidArgument, out)
          else (.ok, out)
      | (status, out) => (status, out)

/-! Accepted recipes. -/

/-- The fields of a step within the bounds of its kind. -/
inductive RecipeStep.WellFormed (step : RecipeStep) : Prop
  | note (kind : step.kind = .note)
  | mix (kind : step.kind = .mix) (speed : 0 < step.dialSpeed ∧ step.dialSpeed ≤ 10)
      (time : 1 ≤ step.durationS.toNat ∧ step.durationS.toNat ≤ 86400)
  | heat (kind : step.kind = .heat) (temp : 370 ≤ step.targetTemp ∧ step.targetTemp ≤ 1600)
      (speed : step.dialSpeed ≤ 10) (time : 1 ≤ step.durationS.toNat ∧ step.durationS.toNat ≤ 86400)
  | weigh (kind : step.kind = .weigh) (weight : 1 ≤ step.targetWeight ∧ step.targetWeight ≤ 2200)

structure Recipe.WellFormed (recipe : Recipe) : Prop where
  name : recipe.name ≠ []
  stepCount : 0 < recipe.stepCount
  step : ∀ i, (recipe.step i).WellFormed

/-- What the fields seen so far say of the step. -/
structure Filled.Sound (filled : Filled) : Prop where
  temp : filled.fields.temp = true → 370 ≤ filled.step.targetTemp ∧ filled.step.targetTemp ≤ 1600
  speed : filled.step.dialSpeed ≤ 10
  time : filled.fields.time = true →
    1 ≤ filled.step.durationS.toNat ∧ filled.step.durationS.toNat ≤ 86400
  weight : filled.fields.weight = true →
    1 ≤ filled.step.targetWeight ∧ filled.step.targetWeight ≤ 2200

theorem parseLong_range {text : List Char8} {min max parsed : ℤ}
    (h : parseLong text min max = some parsed) : min ≤ parsed ∧ parsed ≤ max := by
  unfold parseLong at h
  split at h
  · cases h
  · split at h
    · cases h
    · rename_i hrange
      cases h
      omega

theorem parseTemperature_range {text : List Char8} {parsed : DeciCelsius}
    (h : parseTemperature text = some parsed) : 370 ≤ parsed ∧ parsed ≤ 1600 := by
  unfold parseTemperature at h
  split at h
  · rename_i value rest _
    split at h
    · cases h
    · rename_i hrange
      cases h
      simp only [not_or, not_lt, not_not] at hrange
      obtain ⟨-, hlow, hhigh⟩ := hrange
      have hsmall : |value * 10| < 2 ^ 24 := by
        rw [abs_of_nonneg (by linarith)]
        linarith
      have hproduct : ((370 : ℤ) : ℚ) ≤ value * 10 ∧ value * 10 ≤ ((1600 : ℤ) : ℚ) := by
        constructor
        · push_cast
          linarith
        · push_cast
          linarith
      obtain ⟨hfrom, hto⟩ := single_between hsmall hproduct.1 hproduct.2
      push_cast at hfrom hto
      have hrounded : single (value * 10) / 10 * 10 = single (value * 10) := by ring
      unfold fromCelsius
      rw [if_pos (by linarith), hrounded]
      constructor
      · exact Int.le_floor.mpr (by exact_mod_cast hfrom)
      · exact Int.floor_le_iff.mpr (by push_cast; linarith)
  · cases h

theorem toNat_ofInt {n : ℤ} (hnonneg : 0 ≤ n) (hlt : n < 2 ^ 32) :
    ((BitVec.ofInt 32 n).toNat : ℤ) = n := by
  rw [BitVec.toNat_ofInt]
  omega

theorem applyField_sound {filled filled' : Filled} (h : filled.Sound) {key value : List Char8}
    {fine : Bool} (happly : applyField filled key value = (fine, filled')) :
    filled'.Sound ∧ filled'.step.kind = filled.step.kind := by
  obtain ⟨htemp, hspeed, htime, hweight⟩ := h
  unfold applyField at happly
  dsimp only at happly
  split at happly
  · cases happly
    exact ⟨⟨htemp, hspeed, htime, hweight⟩, rfl⟩
  · split at happly
    · split at happly
      · rename_i parsed hparsed
        cases happly
        exact ⟨⟨fun _ => parseTemperature_range hparsed, hspeed, htime, hweight⟩, rfl⟩
      · cases happly
        exact ⟨⟨fun h => (by cases h), hspeed, htime, hweight⟩, rfl⟩
    · split at happly
      · split at happly
        · rename_i parsed hparsed
          cases happly
          have hrange := parseLong_range hparsed
          exact ⟨⟨htemp, by dsimp only; omega, htime, hweight⟩, rfl⟩
        · cases happly
          exact ⟨⟨htemp, Nat.zero_le 10, htime, hweight⟩, rfl⟩
      · split at happly
        · split at happly
          · rename_i parsed hparsed
            cases happly
            have hrange := parseLong_range hparsed
            have hvalue := toNat_ofInt (n := parsed) (by omega) (by omega)
            exact ⟨⟨htemp, hspeed, fun _ => by dsimp only; omega, hweight⟩, rfl⟩
          · cases happly
            exact ⟨⟨htemp, hspeed, fun h => (by cases h), hweight⟩, rfl⟩
        · split at happly
          · split at happly
            · rename_i parsed hparsed
              cases happly
              exact ⟨⟨htemp, hspeed, htime, fun _ => parseLong_range hparsed⟩, rfl⟩
            · cases happly
              exact ⟨⟨htemp, hspeed, htime, fun h => (by cases h)⟩, rfl⟩
          · cases happly
            exact ⟨⟨htemp, hspeed, htime, hweight⟩, rfl⟩

theorem applyFields_sound {filled filled' : Filled} (h : filled.Sound) {tokens : List (List Char8)}
    (happly : applyFields filled tokens = (true, filled')) : filled'.Sound := by
  induction tokens generalizing filled with
  | nil =>
    cases happly
    exact h
  | cons token rest ih =>
    unfold applyFields at happly
    dsimp only at happly
    split at happly
    · exact ih h happly
    · split at happly
      · rename_i hfield
        exact ih (applyField_sound h hfield).1 happly
      · cases happly

theorem Filled.Valid.wellFormed {filled : Filled} (h : filled.Valid) (hsound : filled.Sound) :
    filled.step.WellFormed := by
  obtain ⟨htemp, hspeed, htime, hweight⟩ := hsound
  rcases h with hkind | ⟨hkind, -, hturns, htimed⟩ | ⟨hkind, hheated, htimed⟩ | ⟨hkind, hweighed⟩
  · exact RecipeStep.WellFormed.note hkind
  · exact RecipeStep.WellFormed.mix hkind ⟨hturns, hspeed⟩ (htime htimed)
  · exact RecipeStep.WellFormed.heat hkind (htemp hheated) hspeed (htime htimed)
  · exact RecipeStep.WellFormed.weigh hkind (hweight hweighed)

/-- A step read into a fresh slot. -/
theorem parseStep_wellFormed {body : List Char8} {step : RecipeStep}
    (h : parseStep body {} = (.ok, step)) : step.WellFormed := by
  unfold parseStep at h
  split at h
  · cases h
  · split at h
    · cases h
    · rename_i kind _
      split at h
      · cases h
      · rename_i filled happly
        have hfresh : Filled.Sound ⟨{ kind }, {}⟩ :=
          ⟨fun h => (by cases h), Nat.zero_le 10, fun h => (by cases h), fun h => (by cases h)⟩
        have hsound := applyFields_sound hfresh happly
        by_cases hvalid : filled.Valid
        · rw [if_pos hvalid] at h
          cases h
          exact hvalid.wellFormed hsound
        · rw [if_neg hvalid] at h
          cases h

/-- A recipe on its way through the lines: the steps read, and the slots still as constructed. -/
structure Recipe.Partial (out : Recipe) : Prop where
  step : ∀ i : Fin kMaxSteps, i.val < out.stepCount → (out.steps.get i).WellFormed
  rest : ∀ i : Fin kMaxSteps, out.stepCount ≤ i.val → out.steps.get i = {}

theorem partial_initial : Recipe.Partial {} := by
  constructor
  · intro i hlt
    exact absurd hlt (Nat.not_lt_zero _)
  · intro i _
    simp [Vector.get]

theorem Recipe.Partial.count {out : Recipe} (h : out.Partial) {step : RecipeStep}
    (hstep : step.WellFormed) (hroom : out.stepCount < kMaxSteps) :
    ((out.fill step).count hroom).Partial := by
  have hget (i : Fin kMaxSteps) : ((out.fill step).count hroom).steps.get i =
      if out.stepCount = i.val then step else out.steps.get i := by
    exact Vector.getElem_setIfInBounds i.isLt
  constructor
  · intro i hlt
    change i.val < out.stepCount + 1 at hlt
    rw [hget]
    split
    · exact hstep
    · exact h.step i (by omega)
  · intro i hle
    change out.stepCount + 1 ≤ i.val at hle
    rw [hget, if_neg (by omega)]
    exact h.rest i (by omega)

theorem parseLines_partial {out out' : Recipe} (h : out.Partial) {lines : List Line}
    (hparse : parseLines out lines = (.ok, out')) : out'.Partial := by
  induction lines generalizing out with
  | nil =>
    cases hparse
    exact h
  | cons line rest ih =>
    unfold parseLines at hparse
    dsimp only at hparse
    split at hparse
    · cases hparse
    · split at hparse
      · exact ih h hparse
      · split at hparse
        · refine ih ?_ hparse
          exact ⟨h.step, h.rest⟩
        · split at hparse
          · split at hparse
            · rename_i hroom
              rw [h.rest ⟨out.stepCount, hroom⟩ le_rfl] at hparse
              split at hparse
              · rename_i step hstep
                exact ih (h.count (parseStep_wellFormed hstep) hroom) hparse
              · rename_i hfailed _
                cases hparse
                exact absurd rfl hfailed
            · cases hparse
          · exact ih h hparse

/-- What the reader accepts is well formed. -/
theorem parseRecipeFile_wellFormed {path : Option File} {out recipe : Recipe}
    (h : parseRecipeFile path out = (.ok, recipe)) : recipe.WellFormed := by
  unfold parseRecipeFile at h
  split at h
  · cases h
  · split at h
    · rename_i parsed hparse
      have hpartial := parseLines_partial partial_initial hparse
      split_ifs at h with hfails hempty
      · cases h
      · cases h
      · cases h
        rw [not_or] at hempty
        refine ⟨hempty.1, Nat.pos_of_ne_zero hempty.2, fun i => ?_⟩
        exact hpartial.step (i.castLE recipe.bounded) i.isLt
    · rename_i hfailed _
      cases h
      exact absurd rfl hfailed

end Culina.RecipeParser
