import Culina.RecipeParser

/-!
The recipe library: the accepted recipes of a directory, read slot by slot. A file that fails leaves
its half-filled slot to the next one; what can be looked up has been accepted.
-/
namespace Culina.RecipeValidation

open Wire CStrings RecipeParser

/-! Loading. -/

/-- The files that can be opened, and the names in each directory that can be. -/
structure FileSystem where
  file : List Char8 → Option File
  directory : List Char8 → Option (List (List Char8))

def hasRcpExtension (name : List Char8) : Bool :=
  name.length > 4 && name.drop (name.length - 4) = codes ['.', 'r', 'c', 'p']

abbrev kMaxRecipes : ℕ := 64

structure RecipeLibrary where
  recipes : Vector Recipe kMaxRecipes := Vector.replicate kMaxRecipes {}
  count : ℕ := 0
  bounded : count ≤ kMaxRecipes := by decide

def pathSize : ℕ := 512

namespace RecipeLibrary

/-- The library with its next slot, counted or not. -/
def fill (library : RecipeLibrary) (recipe : Recipe) : RecipeLibrary :=
  { library with recipes := library.recipes.setIfInBounds library.count recipe }

def accept (library : RecipeLibrary) (hroom : library.count < kMaxRecipes) : RecipeLibrary :=
  { library with count := library.count + 1, bounded := hroom }

def loadEntries (files : FileSystem) (dirPath : List Char8) (library : RecipeLibrary) :
    List (List Char8) → RecipeLibrary
  | [] => library
  | entry :: rest =>
      if hasRcpExtension entry = false then loadEntries files dirPath library rest
      else if hroom : library.count < kMaxRecipes then
        let path := (dirPath ++ code '/' :: entry).take (pathSize - 1)
        match parseRecipeFile (files.file path) (library.recipes.get ⟨library.count, hroom⟩) with
        | (.ok, recipe) =>
            loadEntries files dirPath ((library.fill recipe).accept hroom) rest
        | (_, recipe) => loadEntries files dirPath (library.fill recipe) rest
      else loadEntries files dirPath library rest

def loadDirectory (library : RecipeLibrary) (files : FileSystem) (dirPath : List Char8) :
    Status × RecipeLibrary :=
  match files.directory dirPath with
  | none => (.invalidArgument, library)
  | some entries =>
      (.ok, loadEntries files dirPath { library with count := 0, bounded := Nat.zero_le _ } entries)

def «at» (library : RecipeLibrary) (index : ℕ) : Option Recipe :=
  if index < library.count then library.recipes[index]? else none

def find (library : RecipeLibrary) (name : List Char8) : Option Recipe :=
  (library.recipes.toList.take library.count).find? fun recipe => recipe.name = name

end RecipeLibrary

/-! Texts. -/

/-- All texts of a recipe fit their arrays, in the slots of steps not read as well. -/
structure Terminated (recipe : Recipe) : Prop where
  name : CString 32 recipe.name
  text : ∀ i : Fin kMaxSteps, CString 96 (recipe.steps.get i).text

theorem mem_of_mem_splitOn {a c : Char8} {s token : List Char8} (htoken : token ∈ s.splitOn a)
    (hc : c ∈ token) : c ∈ s := by
  induction s generalizing token with
  | nil =>
    rw [List.splitOn_nil, List.mem_singleton] at htoken
    rw [htoken] at hc
    exact absurd hc List.not_mem_nil
  | cons d rest ih =>
    rw [List.splitOn, List.splitOnP_cons_eq_if_modifyHead] at htoken
    split_ifs at htoken with hsep
    · rcases List.mem_cons.mp htoken with rfl | htail
      · exact absurd hc List.not_mem_nil
      · exact List.mem_cons_of_mem _ (ih htail hc)
    · obtain ⟨first, others, hsplit⟩ := List.exists_cons_of_ne_nil (List.splitOnP_ne_nil (· == a) rest)
      rw [hsplit, List.modifyHead_cons] at htoken
      have hmem (other : List Char8) (h : other ∈ first :: others) : other ∈ rest.splitOn a := by
        rwa [List.splitOn, hsplit]
      rcases List.mem_cons.mp htoken with rfl | htail
      · rcases List.mem_cons.mp hc with rfl | hc
        · exact List.mem_cons_self
        · exact List.mem_cons_of_mem _ (ih (hmem first List.mem_cons_self) hc)
      · exact List.mem_cons_of_mem _ (ih (hmem token (List.mem_cons_of_mem _ htail)) hc)

theorem mem_of_mem_skipSpaces {c : Char8} {s : List Char8} (h : c ∈ skipSpaces s) : c ∈ s :=
  (List.dropWhile_suffix _).subset h

theorem mem_of_mem_trimEnd {c : Char8} {s : List Char8} (h : c ∈ trimEnd s) : c ∈ s :=
  (List.rdropWhile_prefix _ _).subset h

/-- Only one key writes a text. -/
theorem applyField_text {filled filled' : Filled} (h : CString 96 filled.step.text)
    {key value : List Char8} (hvalue : 0 ∉ value) {fine : Bool}
    (happly : applyField filled key value = (fine, filled')) : CString 96 filled'.step.text := by
  unfold applyField at happly
  dsimp only at happly
  split at happly
  · cases happly
    exact CString.take hvalue 95
  · have hkept : filled'.step.text = filled.step.text := by
      split at happly
      · split at happly <;> (cases happly; rfl)
      · split at happly
        · split at happly <;> (cases happly; rfl)
        · split at happly
          · split at happly <;> (cases happly; rfl)
          · split at happly
            · split at happly <;> (cases happly; rfl)
            · cases happly
              rfl
    rwa [hkept]

theorem applyFields_text {filled filled' : Filled} (h : CString 96 filled.step.text)
    {tokens : List (List Char8)} (htokens : ∀ token ∈ tokens, 0 ∉ token) {fine : Bool}
    (happly : applyFields filled tokens = (fine, filled')) : CString 96 filled'.step.text := by
  induction tokens generalizing filled with
  | nil =>
    cases happly
    exact h
  | cons token rest ih =>
    have htoken := htokens token List.mem_cons_self
    have hrest : ∀ other ∈ rest, 0 ∉ other := fun other hother =>
      htokens other (List.mem_cons_of_mem _ hother)
    unfold applyFields at happly
    dsimp only at happly
    split at happly
    · exact ih h hrest happly
    · rename_i c value hvalue
      have hclean : 0 ∉ skipSpaces value := by
        intro hzero
        have hsuffix := List.dropWhile_suffix (fun c => decide (c ≠ code '='))
          (l := trimEnd (skipSpaces token))
        rw [hvalue] at hsuffix
        exact htoken (mem_of_mem_skipSpaces (mem_of_mem_trimEnd
          (hsuffix.subset (List.mem_cons_of_mem c (mem_of_mem_skipSpaces hzero)))))
      split at happly
      · rename_i hfield
        exact ih (applyField_text h hclean hfield) hrest happly
      · rename_i hfield
        cases happly
        exact applyField_text h hclean hfield

/-- A step keeps a terminated text, read or half-read. -/
theorem parseStep_text {body : List Char8} (hbody : 0 ∉ body) {step step' : RecipeStep}
    (h : CString 96 step.text) {status : Status} (hparse : parseStep body step = (status, step')) :
    CString 96 step'.text := by
  unfold parseStep at hparse
  split at hparse
  · cases hparse
    exact h
  · rename_i first rest hsplit
    have htokens : ∀ token ∈ rest, 0 ∉ token := by
      intro token htoken hzero
      have hmem : token ∈ body.splitOn (code '|') := by
        rw [hsplit]
        exact List.mem_cons_of_mem _ htoken
      exact hbody (mem_of_mem_splitOn hmem hzero)
    split at hparse
    · cases hparse
      exact h
    · split at hparse
      · rename_i happly
        cases hparse
        exact applyFields_text h htokens happly
      · rename_i happly
        cases hparse
        exact applyFields_text h htokens happly

theorem Terminated.fill {out : Recipe} (h : Terminated out) {step : RecipeStep}
    (hstep : CString 96 step.text) : Terminated (out.fill step) := by
  refine ⟨h.name, fun i => ?_⟩
  have hget : (out.fill step).steps.get i = if out.stepCount = i.val then step else out.steps.get i :=
    Vector.getElem_setIfInBounds i.isLt
  rw [hget]
  split
  · exact hstep
  · exact h.text i

theorem terminated_initial : Terminated {} := by
  have hempty : ∀ size, CString (size + 1) [] := fun size => ⟨Nat.succ_pos size, List.not_mem_nil⟩
  refine ⟨hempty 31, fun i => ?_⟩
  simpa [Vector.get] using hempty 95

theorem parseLines_terminated {out out' : Recipe} (h : Terminated out) {lines : List Line}
    {status : Status} (hparse : parseLines out lines = (status, out')) : Terminated out' := by
  induction lines generalizing out with
  | nil =>
    cases hparse
    exact h
  | cons line rest ih =>
    have hclean (n : ℕ) :
        0 ∉ skipSpaces ((skipSpaces (trimEnd (content line.text))).drop n) := by
      intro hzero
      exact not_mem_content line.text (mem_of_mem_trimEnd (mem_of_mem_skipSpaces
        (List.mem_of_mem_drop (mem_of_mem_skipSpaces hzero))))
    unfold parseLines at hparse
    dsimp only at hparse
    split at hparse
    · cases hparse
      exact h
    · split at hparse
      · exact ih h hparse
      · split at hparse
        · refine ih ?_ hparse
          exact ⟨CString.take (hclean 5) 31, h.text⟩
        · split at hparse
          · split at hparse
            · rename_i hroom
              have hslot := h.text ⟨out.stepCount, hroom⟩
              split at hparse
              · rename_i step hstep
                have hfilled := h.fill (parseStep_text (hclean 5) hslot hstep)
                refine ih ?_ hparse
                exact ⟨hfilled.name, hfilled.text⟩
              · rename_i step _ hstep
                cases hparse
                exact h.fill (parseStep_text (hclean 5) hslot hstep)
            · cases hparse
              exact h
          · exact ih h hparse

/-! Accepted recipes. -/

/-- A recipe that can be shown and executed: its texts end within their arrays, and its steps are
within the bounds of their kinds. -/
structure Valid (recipe : Recipe) : Prop where
  name : recipe.name ≠ [] ∧ recipe.name.length ≤ 31 ∧ content (array 32 recipe.name) = recipe.name
  stepCount : 1 ≤ recipe.stepCount ∧ recipe.stepCount ≤ 16
  text : ∀ i, (recipe.step i).text.length ≤ 95 ∧
    content (array 96 (recipe.step i).text) = (recipe.step i).text
  step : ∀ i, (recipe.step i).WellFormed

theorem Terminated.valid {recipe : Recipe} (h : Terminated recipe) (hformed : recipe.WellFormed) :
    Valid recipe := by
  refine ⟨⟨hformed.name, Nat.le_of_lt_succ h.name.length, (content_array h.name).1⟩,
    ⟨hformed.stepCount, recipe.bounded⟩, fun i => ?_, hformed.step⟩
  have htext := h.text (i.castLE recipe.bounded)
  exact ⟨Nat.le_of_lt_succ htext.length, (content_array htext).1⟩

theorem parseRecipeFile_valid {path : Option File} {out recipe : Recipe}
    (h : parseRecipeFile path out = (.ok, recipe)) : Valid recipe := by
  refine Terminated.valid ?_ (parseRecipeFile_wellFormed h)
  unfold parseRecipeFile at h
  split at h
  · cases h
  · split at h
    · rename_i parsed hparse
      have hterminated := parseLines_terminated terminated_initial hparse
      split_ifs at h with hfails hempty
      · cases h
      · cases h
      · cases h
        exact hterminated
    · rename_i hfailed _
      cases h
      exact absurd rfl hfailed

/-- Every counted slot holds an accepted recipe. -/
def Checked (library : RecipeLibrary) : Prop :=
  ∀ i : Fin kMaxRecipes, i.val < library.count → Valid (library.recipes.get i)

theorem checked_of_empty {library : RecipeLibrary} (h : library.count = 0) : Checked library := by
  intro i hlt
  rw [h] at hlt
  exact absurd hlt (Nat.not_lt_zero _)

theorem fill_get (library : RecipeLibrary) (recipe : Recipe) (i : Fin kMaxRecipes) :
    (library.fill recipe).recipes.get i =
      if library.count = i.val then recipe else library.recipes.get i :=
  Vector.getElem_setIfInBounds i.isLt

/-- The slot that is filled is not counted yet. -/
theorem Checked.fill {library : RecipeLibrary} (h : Checked library) (recipe : Recipe) :
    Checked (library.fill recipe) := by
  intro i hlt
  change i.val < library.count at hlt
  rw [fill_get, if_neg (by omega)]
  exact h i hlt

theorem Checked.accept {library : RecipeLibrary} (h : Checked library) {recipe : Recipe}
    (hvalid : Valid recipe) (hroom : library.count < kMaxRecipes) :
    Checked ((library.fill recipe).accept hroom) := by
  intro i hlt
  change i.val < library.count + 1 at hlt
  change Valid ((library.fill recipe).recipes.get i)
  rw [fill_get]
  split
  · exact hvalid
  · exact h i (by omega)

theorem loadEntries_checked {files : FileSystem} {dirPath : List Char8} {library : RecipeLibrary}
    (h : Checked library) (entries : List (List Char8)) :
    Checked (library.loadEntries files dirPath entries) := by
  induction entries generalizing library with
  | nil => exact h
  | cons entry rest ih =>
    unfold RecipeLibrary.loadEntries
    dsimp only
    split
    · exact ih h
    · split
      · rename_i hroom
        split
        · rename_i recipe hparse
          exact ih (h.accept (parseRecipeFile_valid hparse) hroom)
        · exact ih (h.fill _)
      · exact ih h

/-- Step lemma. -/
theorem loadDirectory_checked {library : RecipeLibrary} (h : Checked library) (files : FileSystem)
    (dirPath : List Char8) : Checked (library.loadDirectory files dirPath).2 := by
  unfold RecipeLibrary.loadDirectory
  split
  · exact h
  · exact loadEntries_checked (checked_of_empty rfl) _

/-- Run lemma. -/
theorem loads_checked {library : RecipeLibrary} (h : Checked library)
    (loads : List (FileSystem × List Char8)) :
    Checked (loads.foldl (fun library load => (library.loadDirectory load.1 load.2).2) library) := by
  induction loads generalizing library with
  | nil => exact h
  | cons load rest ih => exact ih (loadDirectory_checked h load.1 load.2)

theorem Checked.at {library : RecipeLibrary} (h : Checked library) {index : ℕ} {recipe : Recipe}
    (hat : library.at index = some recipe) : Valid recipe := by
  unfold RecipeLibrary.at at hat
  split_ifs at hat with hlt
  obtain ⟨hsize, rfl⟩ := Vector.getElem?_eq_some_iff.mp hat
  exact h ⟨index, hsize⟩ hlt

theorem Checked.find {library : RecipeLibrary} (h : Checked library) {name : List Char8}
    {recipe : Recipe} (hfind : library.find name = some recipe) :
    Valid recipe ∧ recipe.name = name := by
  unfold RecipeLibrary.find at hfind
  refine ⟨?_, by simpa using List.find?_some hfind⟩
  obtain ⟨i, hi, rfl⟩ := List.getElem_of_mem (List.mem_of_find?_eq_some hfind)
  rw [List.length_take] at hi
  rw [List.getElem_take, Vector.getElem_toList]
  exact h ⟨i, by rw [Vector.length_toList] at hi; omega⟩ (by dsimp only; omega)

/-- An accepted recipe is valid, and so is whatever the library finds after any directories were
loaded into it. -/
theorem recipe_validation :
    (∀ (path : Option File) (out recipe : Recipe),
        parseRecipeFile path out = (.ok, recipe) → Valid recipe) ∧
      ∀ loads : List (FileSystem × List Char8),
        let library := loads.foldl
          (fun library load => (library.loadDirectory load.1 load.2).2) ({} : RecipeLibrary)
        (∀ index recipe, library.at index = some recipe → Valid recipe) ∧
          ∀ name recipe, library.find name = some recipe → Valid recipe ∧ recipe.name = name := by
  refine ⟨fun path out recipe h => parseRecipeFile_valid h, fun loads => ?_⟩
  have hempty : Checked {} := checked_of_empty rfl
  have hchecked := loads_checked hempty loads
  exact ⟨fun index recipe => hchecked.at, fun name recipe => hchecked.find⟩

/-- A recipe of one note. -/
def noteFile : File where
  bytes := codes ("name: Tea\nstep: note|text=Serve".toList)

theorem recipe_validation_note :
    ∃ recipe, parseRecipeFile (some noteFile) {} = (.ok, recipe) ∧ Valid recipe := by
  have hok : (parseRecipeFile (some noteFile) {}).1 = .ok := by decide +kernel
  have hparse : parseRecipeFile (some noteFile) {} =
      (.ok, (parseRecipeFile (some noteFile) {}).2) := by
    rw [← hok, Prod.mk.eta]
  exact ⟨_, hparse, recipe_validation.1 _ _ _ hparse⟩

end Culina.RecipeValidation
