import Mathlib.Data.List.Induction

/-!
Runs of a transition system with labelled steps. Nondeterminism sits in the
labels: an interleaving is a list of labels, and whatever every step keeps holds
in every state a run reaches.
-/
namespace Culina.Runs

variable {σ α : Type*}

/-- A run from `start`: the labels taken and the state reached. -/
inductive Run (step : σ → α → σ → Prop) (start : σ) : List α → σ → Prop
  | nil : Run step start [] start
  | snoc {labels : List α} {s t : σ} {label : α} (run : Run step start labels s)
      (last : step s label t) : Run step start (labels ++ [label]) t

/-- The states that some run from an initial state reaches. -/
inductive Reachable (init : σ → Prop) (step : σ → α → σ → Prop) : σ → Prop
  | init {s : σ} (start : init s) : Reachable init step s
  | step {s t : σ} {label : α} (reached : Reachable init step s) (last : step s label t) :
      Reachable init step t

variable {init : σ → Prop} {step : σ → α → σ → Prop} {start s t : σ} {labels : List α}

theorem Run.keeps (run : Run step start labels t) (inv : σ → Prop) (hstart : inv start)
    (hstep : ∀ s label t, inv s → step s label t → inv t) : inv t := by
  induction run with
  | nil => exact hstart
  | snoc _ last ih => exact hstep _ _ _ ih last

theorem Reachable.keeps (h : Reachable init step s) (inv : σ → Prop) (hinit : ∀ s, init s → inv s)
    (hstep : ∀ s label t, inv s → step s label t → inv t) : inv s := by
  induction h with
  | init start => exact hinit _ start
  | step _ last ih => exact hstep _ _ _ ih last

/-! Systems whose step is a function, taken when a guard allows it. -/

def Guarded (allowed : σ → α → Prop) (next : σ → α → σ) (s : σ) (label : α) (t : σ) : Prop :=
  allowed s label ∧ t = next s label

theorem Reachable.next {allowed : σ → α → Prop} {next : σ → α → σ} {s : σ}
    (h : Reachable init (Guarded allowed next) s) (label : α) (hallowed : allowed s label) :
    Reachable init (Guarded allowed next) (next s label) := Reachable.step h ⟨hallowed, rfl⟩

theorem Reachable.foldl {allowed : σ → α → Prop} {next : σ → α → σ} {s : σ}
    (h : Reachable init (Guarded allowed next) s) (labels : List α)
    (hallowed : ∀ label ∈ labels, ∀ s, allowed s label) :
    Reachable init (Guarded allowed next) (labels.foldl next s) := by
  induction labels generalizing s with
  | nil => exact h
  | cons label rest ih =>
    refine ih ?_ fun label hlabel => hallowed label (List.mem_cons_of_mem _ hlabel)
    exact h.next label (hallowed label List.mem_cons_self s)

/-- Every step of the run is taken in a state that allows it. -/
def Along (allowed : σ → α → Prop) (next : σ → α → σ) : σ → List α → Prop
  | _, [] => True
  | s, label :: rest => allowed s label ∧ Along allowed next (next s label) rest

instance decidableAlong (allowed : σ → α → Prop) [∀ s label, Decidable (allowed s label)]
    (next : σ → α → σ) : ∀ (s : σ) (labels : List α), Decidable (Along allowed next s labels)
  | _, [] => isTrue trivial
  | s, label :: rest =>
      have := decidableAlong allowed next (next s label) rest
      inferInstanceAs (Decidable (_ ∧ _))

theorem Along.at {allowed : σ → α → Prop} {next : σ → α → σ} {s : σ} {front back : List α} {label : α}
    (h : Along allowed next s (front ++ label :: back)) : allowed (front.foldl next s) label := by
  induction front generalizing s with
  | nil => exact h.1
  | cons first rest ih => exact ih h.2

theorem along_of_forall {allowed : σ → α → Prop} {next : σ → α → σ} {labels : List α}
    (h : ∀ label ∈ labels, ∀ s, allowed s label) (s : σ) : Along allowed next s labels := by
  induction labels generalizing s with
  | nil => trivial
  | cons label rest ih =>
    exact ⟨h label List.mem_cons_self s,
      ih (fun label hlabel => h label (List.mem_cons_of_mem _ hlabel)) (next s label)⟩

/-- While a condition keeps the invariant, and is what the goal asks of each step, a run meets the
goal as long as it meets the condition. -/
theorem along_iff {allowed goal condition : σ → α → Prop} {next : σ → α → σ} (inv : σ → Prop)
    (hgoal : ∀ s label, inv s → allowed s label → (goal s label ↔ condition s label))
    (hkeeps : ∀ s label, inv s → allowed s label → condition s label → inv (next s label))
    {s : σ} (hs : inv s) (labels : List α) (hallowed : Along allowed next s labels) :
    Along goal next s labels ↔ Along condition next s labels := by
  induction labels generalizing s with
  | nil => exact Iff.rfl
  | cons label rest ih =>
    obtain ⟨hlabel, hrest⟩ := hallowed
    have hfirst := hgoal s label hs hlabel
    constructor
    · rintro ⟨hmet, hlater⟩
      have hcondition := hfirst.mp hmet
      exact ⟨hcondition, (ih (hkeeps s label hs hlabel hcondition) hrest).mp hlater⟩
    · rintro ⟨hcondition, hlater⟩
      exact ⟨hfirst.mpr hcondition, (ih (hkeeps s label hs hlabel hcondition) hrest).mpr hlater⟩

/-- Bounded response. What is due within `n` counted steps is reached by a run that takes as many, when
each of them uses one up, the other steps none, and no step leads away from the goal. -/
theorem Along.reaches {allowed : σ → α → Prop} {next : σ → α → σ} {counts : α → Bool} (due : ℕ → σ → Prop)
    (goal : σ → Prop) (hzero : ∀ s, ¬ due 0 s)
    (hcounted : ∀ n s label, allowed s label → counts label = true → due (n + 1) s →
      due n (next s label) ∨ goal (next s label))
    (hother : ∀ n s label, allowed s label → counts label = false → due n s → due n (next s label))
    (hgoal : ∀ s label, allowed s label → goal s → goal (next s label))
    {s : σ} {n : ℕ} (hs : due n s ∨ goal s) {labels : List α} (hlabels : Along allowed next s labels)
    (hlong : n ≤ labels.countP counts) : goal (labels.foldl next s) := by
  induction labels generalizing s n with
  | nil =>
    rcases hs with hdue | hdone
    · rw [List.countP_nil, Nat.le_zero] at hlong
      exact absurd (hlong ▸ hdue) (hzero s)
    · exact hdone
  | cons label rest ih =>
    obtain ⟨hlabel, hrest⟩ := hlabels
    rw [List.countP_cons] at hlong
    rcases hs with hdue | hdone
    · cases hcounts : counts label with
      | true =>
        obtain ⟨m, rfl⟩ : ∃ m, n = m + 1 := Nat.exists_eq_succ_of_ne_zero fun h => hzero s (h ▸ hdue)
        rw [if_pos hcounts] at hlong
        exact ih (hcounted m s label hlabel hcounts hdue) hrest (Nat.le_of_succ_le_succ hlong)
      | false =>
        rw [if_neg (by simp [hcounts])] at hlong
        exact ih (Or.inl (hother n s label hlabel hcounts hdue)) hrest hlong
    · exact ih (Or.inr (hgoal s label hlabel hdone)) hrest (Nat.zero_le _)

/-- The goal is met on the way, by then at most `n` counted steps have been taken. -/
theorem Along.meets {allowed : σ → α → Prop} {next : σ → α → σ} {counts : α → Bool} (due : ℕ → σ → Prop)
    (goal : σ → Prop) (hzero : ∀ s, ¬ due 0 s)
    (hcounted : ∀ n s label, allowed s label → counts label = true → due (n + 1) s →
      due n (next s label) ∨ goal (next s label))
    (hother : ∀ n s label, allowed s label → counts label = false → due n s →
      due n (next s label) ∨ goal (next s label))
    {s : σ} {n : ℕ} (hs : due n s ∨ goal s) {labels : List α} (hlabels : Along allowed next s labels)
    (hlong : n ≤ labels.countP counts) :
    ∃ front back, labels = front ++ back ∧ front.countP counts ≤ n ∧ goal (front.foldl next s) := by
  induction labels generalizing s n with
  | nil =>
    rcases hs with hdue | hdone
    · rw [List.countP_nil, Nat.le_zero] at hlong
      exact absurd (hlong ▸ hdue) (hzero s)
    · exact ⟨[], [], rfl, Nat.zero_le _, hdone⟩
  | cons label rest ih =>
    rcases hs with hdue | hdone
    · obtain ⟨hlabel, hrest⟩ := hlabels
      rw [List.countP_cons] at hlong
      cases hcounts : counts label with
      | true =>
        obtain ⟨m, rfl⟩ : ∃ m, n = m + 1 := Nat.exists_eq_succ_of_ne_zero fun h => hzero s (h ▸ hdue)
        rw [if_pos hcounts] at hlong
        obtain ⟨front, back, rfl, hcount, hgoal⟩ :=
          ih (hcounted m s label hlabel hcounts hdue) hrest (Nat.le_of_succ_le_succ hlong)
        refine ⟨label :: front, back, rfl, ?_, hgoal⟩
        rw [List.countP_cons, if_pos hcounts]
        omega
      | false =>
        rw [if_neg (by simp [hcounts])] at hlong
        obtain ⟨front, back, rfl, hcount, hgoal⟩ := ih (hother n s label hlabel hcounts hdue) hrest hlong
        refine ⟨label :: front, back, rfl, ?_, hgoal⟩
        rw [List.countP_cons, if_neg (by simp [hcounts])]
        omega
    · exact ⟨[], _, rfl, Nat.zero_le _, hdone⟩

/-! Systems that answer every label. -/

section Answers

variable {τ ρ : Type*}

/-- The answers to the labels, and the state behind the last of them. -/
def answers (respond : σ → α → ρ × σ) : σ → List α → List ρ × σ
  | s, [] => ([], s)
  | s, label :: rest =>
      let current := respond s label
      let later := answers respond current.2 rest
      (current.1 :: later.1, later.2)

/-- Related states answer every label alike and stay related. -/
def Simulates (rel : σ → τ → Prop) (respond : σ → α → ρ × σ) (respond' : τ → α → ρ × τ) : Prop :=
  ∀ s t, rel s t → ∀ label,
    (respond s label).1 = (respond' t label).1 ∧ rel (respond s label).2 (respond' t label).2

theorem Simulates.answers {rel : σ → τ → Prop} {respond : σ → α → ρ × σ} {respond' : τ → α → ρ × τ}
    (h : Simulates rel respond respond') {s : σ} {t : τ} (hst : rel s t) (labels : List α) :
    (answers respond s labels).1 = (answers respond' t labels).1 ∧
      rel (answers respond s labels).2 (answers respond' t labels).2 := by
  induction labels generalizing s t with
  | nil => exact ⟨rfl, hst⟩
  | cons label rest ih =>
    obtain ⟨hanswer, hnext⟩ := h s t hst label
    obtain ⟨hlater, hend⟩ := ih hnext
    exact ⟨congrArg₂ List.cons hanswer hlater, hend⟩

end Answers

/-! Histories, oldest entry first. -/

/-- Every trigger in the history is followed by an answer. -/
def AnsweredSince (trigger answer : α → Prop) (history : List α) : Prop :=
  ∀ front x back, history = front ++ x :: back → trigger x → ∃ y ∈ back, answer y

variable {trigger answer : α → Prop} {history : List α} {entry : α}

theorem answeredSince_nil : AnsweredSince trigger answer [] := by
  intro front x back h
  simp at h

/-- An entry of a longer history is the newest one or stands before it. -/
theorem split_snoc {front back : List α} {x : α} (h : history ++ [entry] = front ++ x :: back) :
    (back = [] ∧ history = front ∧ entry = x) ∨
      ∃ rest, back = rest ++ [entry] ∧ history = front ++ x :: rest := by
  rcases List.eq_nil_or_concat back with rfl | ⟨rest, last, rfl⟩
  · obtain ⟨hhistory, hlast⟩ := List.append_inj' h rfl
    exact Or.inl ⟨rfl, hhistory, List.singleton_inj.mp hlast⟩
  · have h' : history ++ [entry] = (front ++ x :: rest) ++ [last] := by
      simpa using h
    obtain ⟨hhistory, hlast⟩ := List.append_inj' h' rfl
    rw [List.singleton_inj] at hlast
    subst hlast
    exact Or.inr ⟨rest, by simp, hhistory⟩

theorem AnsweredSince.snoc (h : AnsweredSince trigger answer history ∨ answer entry)
    (hentry : ¬ trigger entry) : AnsweredSince trigger answer (history ++ [entry]) := by
  intro front x back hsplit hx
  rcases split_snoc hsplit with ⟨-, -, rfl⟩ | ⟨rest, rfl, hhistory⟩
  · exact absurd hx hentry
  · rcases h with h | h
    · obtain ⟨y, hy, hanswer⟩ := h front x rest hhistory hx
      exact ⟨y, List.mem_append_left _ hy, hanswer⟩
    · exact ⟨entry, by simp, h⟩

/-- More entries that ask for no answer. -/
theorem AnsweredSince.append (h : AnsweredSince trigger answer history) {entries : List α}
    (hentries : ∀ x ∈ entries, ¬ trigger x) : AnsweredSince trigger answer (history ++ entries) := by
  induction entries using List.reverseRecOn with
  | nil => rwa [List.append_nil]
  | append_singleton entries entry ih =>
    rw [← List.append_assoc]
    have hbefore := ih fun x hx => hentries x (List.mem_append_left _ hx)
    exact AnsweredSince.snoc (Or.inl hbefore) (hentries entry (by simp))

/-- In a history ordered by number, two entries split it in the order of their numbers. -/
theorem exists_split_of_lt (number : α → ℕ) {earlier later : α}
    (hordered : history.Pairwise fun x y => number x < number y) (hearlier : earlier ∈ history)
    (hlater : later ∈ history) (hlt : number earlier < number later) :
    ∃ before between after, history = before ++ earlier :: (between ++ later :: after) := by
  obtain ⟨before, rest, rfl⟩ := List.append_of_mem hearlier
  rw [List.pairwise_append] at hordered
  rcases List.mem_append.mp hlater with hbefore | hrest
  · have := hordered.2.2 later hbefore earlier List.mem_cons_self
    omega
  · rcases List.mem_cons.mp hrest with rfl | hrest
    · omega
    · obtain ⟨between, after, rfl⟩ := List.append_of_mem hrest
      exact ⟨before, between, after, rfl⟩

/-- The value of the newest entry that sets one. -/
def latest {β : Type*} (value : α → Option β) (initial : β) (history : List α) : β :=
  (history.filterMap value).getLastD initial

theorem latest_snoc {β : Type*} (value : α → Option β) (initial : β) (history : List α)
    (entry : α) :
    latest value initial (history ++ [entry]) =
      (value entry).getD (latest value initial history) := by
  unfold latest
  cases h : value entry with
  | none => simp [List.filterMap_append, h]
  | some v => simp [List.filterMap_append, h]

/-- A value that differs from the initial one was set by some entry. -/
theorem exists_of_latest_ne {β : Type*} {value : α → Option β} {initial : β} {history : List α}
    (h : latest value initial history ≠ initial) : ∃ x ∈ history, value x ≠ none := by
  by_contra hnone
  have hempty : history.filterMap value = [] := by
    rw [List.filterMap_eq_nil_iff]
    intro x hx
    by_contra hvalue
    exact hnone ⟨x, hx, hvalue⟩
  rw [latest, hempty] at h
  exact h rfl

end Culina.Runs
