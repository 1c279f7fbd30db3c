import Culina.Runs

/-!
A queue with room for a fixed number of items. A push into a full queue is refused; a writer
that pushes one item after another until one is refused gets in exactly what there is room for.
-/
namespace Culina.BoundedQueue

open Runs

/-- A queue holds no more items than it has room for, oldest first. -/
structure Queue (α : Type*) (capacity : ℕ) where
  items : List α := []
  bounded : items.length ≤ capacity := by exact Nat.zero_le _

namespace Queue

variable {α : Type*} {capacity : ℕ}

def push (q : Queue α capacity) (item : α) : Bool × Queue α capacity :=
  if h : q.items.length < capacity then
    (true, ⟨q.items ++ [item], by rwa [List.length_append, List.length_singleton]⟩)
  else (false, q)

def pop (q : Queue α capacity) : Option α × Queue α capacity :=
  match h : q.items with
  | [] => (none, q)
  | first :: rest =>
      (some first, ⟨rest, Nat.le_of_succ_le (by simpa only [h, List.length_cons] using q.bounded)⟩)

theorem push_of_lt {q : Queue α capacity} (h : q.items.length < capacity) (item : α) :
    (q.push item).1 = true ∧ (q.push item).2.items = q.items ++ [item] := by
  unfold push
  rw [dif_pos h]
  exact ⟨rfl, rfl⟩

theorem push_of_full {q : Queue α capacity} (h : q.items.length = capacity) (item : α) :
    q.push item = (false, q) := by
  unfold push
  rw [dif_neg (Nat.not_lt.mpr (Nat.le_of_eq h.symm))]

theorem pop_of_nil {q : Queue α capacity} (h : q.items = []) : q.pop = (none, q) := by
  unfold pop
  split
  · rfl
  · rename_i hcons
    rw [h] at hcons
    cases hcons

theorem pop_of_cons {q : Queue α capacity} {first : α} {rest : List α} (h : q.items = first :: rest) :
    q.pop.1 = some first ∧ q.pop.2.items = rest := by
  unfold pop
  split
  · rename_i hnil
    rw [h] at hnil
    cases hnil
  · rename_i hcons
    rw [h, List.cons.injEq] at hcons
    obtain ⟨rfl, rfl⟩ := hcons
    exact ⟨rfl, rfl⟩

end Queue

/-! Pushes and pops in any order. -/

inductive Operation (α : Type*) where
  | push (item : α)
  | pop

inductive Answer (α : Type*) where
  | pushed (accepted : Bool)
  | popped (item : Option α)
deriving DecidableEq

section Operate

variable {σ τ α : Type*}

def operate (push : σ → α → Bool × σ) (pop : σ → Option α × σ) (s : σ) : Operation α → Answer α × σ
  | .push item => (.pushed (push s item).1, (push s item).2)
  | .pop => (.popped (pop s).1, (pop s).2)

theorem operate_simulates {rel : σ → τ → Prop} {push : σ → α → Bool × σ} {push' : τ → α → Bool × τ}
    {pop : σ → Option α × σ} {pop' : τ → Option α × τ} (hpush : Simulates rel push push')
    (hpop : ∀ s t, rel s t → (pop s).1 = (pop' t).1 ∧ rel (pop s).2 (pop' t).2) :
    Simulates rel (operate push pop) (operate push' pop') := by
  intro s t hst operation
  cases operation with
  | push item =>
    obtain ⟨hsame, hnext⟩ := hpush s t hst item
    exact ⟨congrArg Answer.pushed hsame, hnext⟩
  | pop =>
    obtain ⟨hsame, hnext⟩ := hpop s t hst
    exact ⟨congrArg Answer.popped hsame, hnext⟩

end Operate

/-! Writers. -/

section Offer

variable {σ τ α : Type*}

/-- Items are pushed until one is refused; the result is how many went in. -/
def offer (push : σ → α → Bool × σ) : σ → List α → ℕ × σ
  | s, [] => (0, s)
  | s, item :: rest =>
      match push s item with
      | (true, s) => ((offer push s rest).1 + 1, (offer push s rest).2)
      | (false, s) => (0, s)

theorem offer_of_accepted {push : σ → α → Bool × σ} {s : σ} {item : α} (h : (push s item).1 = true)
    (rest : List α) : offer push s (item :: rest) =
      ((offer push (push s item).2 rest).1 + 1, (offer push (push s item).2 rest).2) := by
  rw [offer]
  generalize push s item = pushed at h
  obtain ⟨accepted, s'⟩ := pushed
  cases h
  rfl

theorem offer_of_refused {push : σ → α → Bool × σ} {s : σ} {item : α} (h : (push s item).1 = false)
    (rest : List α) : offer push s (item :: rest) = (0, (push s item).2) := by
  rw [offer]
  generalize push s item = pushed at h
  obtain ⟨accepted, s'⟩ := pushed
  cases h
  rfl

/-- A writer cannot tell two systems apart whose pushes cannot be told apart. -/
theorem offer_simulates {rel : σ → τ → Prop} {push : σ → α → Bool × σ} {push' : τ → α → Bool × τ}
    (h : Simulates rel push push') : Simulates rel (offer push) (offer push') := by
  intro s t hst items
  induction items generalizing s t with
  | nil => exact ⟨rfl, hst⟩
  | cons item rest ih =>
    obtain ⟨hsame, hnext⟩ := h s t hst item
    cases haccepted : (push s item).1 with
    | false =>
      rw [offer_of_refused haccepted, offer_of_refused (hsame.symm.trans haccepted)]
      exact ⟨rfl, hnext⟩
    | true =>
      obtain ⟨hcount, hend⟩ := ih _ _ hnext
      rw [offer_of_accepted haccepted, offer_of_accepted (hsame.symm.trans haccepted)]
      exact ⟨congrArg (· + 1) hcount, hend⟩

variable {capacity : ℕ}

theorem offer_count (q : Queue α capacity) (items : List α) :
    (offer Queue.push q items).1 = min items.length (capacity - q.items.length) := by
  induction items generalizing q with
  | nil => exact (Nat.zero_min _).symm
  | cons item rest ih =>
    by_cases hroom : q.items.length < capacity
    · obtain ⟨haccepted, hitems⟩ := Queue.push_of_lt hroom item
      rw [offer_of_accepted haccepted, ih, hitems, List.length_append, List.length_singleton,
        List.length_cons]
      omega
    · have hfull : q.items.length = capacity := by
        have := q.bounded
        omega
      have hrefused := congrArg Prod.fst (Queue.push_of_full hfull item)
      rw [offer_of_refused hrefused, hfull, Nat.sub_self, Nat.min_zero]

/-- What went in is the front of what was offered. -/
theorem offer_items (q : Queue α capacity) (items : List α) :
    (offer Queue.push q items).2.items = q.items ++ items.take (offer Queue.push q items).1 := by
  induction items generalizing q with
  | nil => exact (List.append_nil _).symm
  | cons item rest ih =>
    by_cases hroom : q.items.length < capacity
    · obtain ⟨haccepted, hitems⟩ := Queue.push_of_lt hroom item
      rw [offer_of_accepted haccepted, ih, hitems, List.take_succ_cons, List.append_assoc]
      rfl
    · have hfull : q.items.length = capacity := by
        have := q.bounded
        omega
      have hpush := Queue.push_of_full hfull item
      rw [offer_of_refused (congrArg Prod.fst hpush), hpush, List.take_zero, List.append_nil]

end Offer

end Culina.BoundedQueue
