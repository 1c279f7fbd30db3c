import Mathlib.Data.List.Basic

/-!
An unbounded queue between a writer and a reader that takes as much as it likes.
Nothing pushed is lost, repeated or reordered: what has been taken and what is still
queued are together what was pushed.
-/
namespace Culina.Fifo

structure Queue (α : Type*) where
  taken : List α := []
  queued : List α := []

namespace Queue

variable {α : Type*}

/-- Everything pushed so far. -/
def content (q : Queue α) : List α := q.taken ++ q.queued

def push (q : Queue α) (items : List α) : Queue α := { q with queued := q.queued ++ items }

/-- The reader takes up to `count` items. -/
def drain (q : Queue α) (count : ℕ) : Queue α where
  taken := q.taken ++ q.queued.take count
  queued := q.queued.drop count

/-- The writer gives up what is still queued. -/
def cancel (q : Queue α) : Queue α := { q with queued := [] }

@[simp] theorem content_push (q : Queue α) (items : List α) :
    (q.push items).content = q.content ++ items := by
  simp [content, push]

@[simp] theorem content_drain (q : Queue α) (count : ℕ) : (q.drain count).content = q.content := by
  simp [content, drain]

@[simp] theorem content_cancel (q : Queue α) : q.cancel.content = q.taken := List.append_nil _

theorem drain_zero (q : Queue α) : q.drain 0 = q := by
  simp [drain]

/-- What is taken is the front of what was pushed. -/
theorem taken_prefix (q : Queue α) : q.taken <+: q.content := List.prefix_append _ _

end Queue

end Culina.Fifo
