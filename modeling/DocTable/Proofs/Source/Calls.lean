import DocTable.Source.Basic

/-!
# Asking a source

A source is asked for documents and whether there are more, in any order and any number of times.

* `Source.answers` — what a source answers to calls, and what is left of it.
* `answers_append` — calls in a row are answered one part after the other.
* `answers_of_spent` — a source that has nothing to give and does not change answers every call the
  same way for ever.
-/

set_option autoImplicit false

namespace DocTable.Source

/-- What a source can be asked. -/
inductive Call where
  | hasMore
  | next
  deriving DecidableEq, Repr

/-- What a source answers. -/
inductive Answer where
  | more (yes : Bool)
  | document (result : Except Error Document)

/-- The answer that there is nothing. -/
def Answer.exhausted : Call → Answer
  | .hasMore => more false
  | .next => document (.error .exhausted)

/-- The answer to one call, and the source after it. -/
def answer (source : Source) : Call → Answer × Source
  | .hasMore => (.more source.hasMore.1, source.hasMore.2)
  | .next => (.document source.next.1, source.next.2)

/-- The answers to calls in order, and the source after them. -/
def answers : Source → List Call → List Answer × Source
  | source, [] => ([], source)
  | source, call :: calls =>
    let (first, source) := source.answer call
    let (rest, source) := source.answers calls
    (first :: rest, source)

@[simp] theorem answers_nil (source : Source) : source.answers [] = ([], source) := rfl

@[simp] theorem answers_cons (source : Source) (call : Call) (calls : List Call) :
    source.answers (call :: calls) =
      ((source.answer call).1 :: ((source.answer call).2.answers calls).1,
        ((source.answer call).2.answers calls).2) := rfl

theorem answers_append (source : Source) (calls more : List Call) :
    source.answers (calls ++ more) =
      ((source.answers calls).1 ++ ((source.answers calls).2.answers more).1,
        ((source.answers calls).2.answers more).2) := by
  induction calls generalizing source with
  | nil => rfl
  | cons call calls ih =>
    rw [List.cons_append, answers_cons, answers_cons, ih]
    rfl

theorem answers_of_spent {source : Source}
    (h : ∀ call, source.answer call = (Answer.exhausted call, source)) (calls : List Call) :
    source.answers calls = (calls.map Answer.exhausted, source) := by
  induction calls with
  | nil => rfl
  | cons call calls ih => rw [answers_cons, h call, ih, List.map_cons]

end DocTable.Source
