/-!
# First-in first-out queues

A queue of values, pushed at the back and popped at the front, with a read of any position
from the front. A partition keeps the messages it still holds in one.

## Main definitions

* `Queue`: the values, front first, behind the view `Queue.toList`
* `Queue.push`, `Queue.pop`, `Queue.peek`, `Queue.peekBack`, `Queue.get?`, `Queue.size`
* `Queue.Command`, `Queue.perform`: one step of a script on a queue and its answer

## Main results

* one lemma per operation saying what it does to `toList`
-/

namespace MessageBroker

/-- A first-in first-out queue. -/
structure Queue (α : Type) where
  /-- The values, front first. -/
  toList : List α
  deriving DecidableEq

namespace Queue

variable {α : Type}

/-- The queue with nothing in it. -/
def empty : Queue α := ⟨[]⟩

/-- Adds a value at the back. -/
def push (q : Queue α) (a : α) : Queue α := ⟨q.toList ++ [a]⟩

/-- Takes the value at the front, if any; an empty queue stays as it is. -/
def pop (q : Queue α) : Option α × Queue α :=
  match q.toList with
  | [] => (none, q)
  | a :: rest => (some a, ⟨rest⟩)

/-- The value at the front. -/
def peek (q : Queue α) : Option α := q.toList.head?

/-- The value at the back. -/
def peekBack (q : Queue α) : Option α := q.toList.getLast?

/-- The value at a position counted from the front. -/
def get? (q : Queue α) (i : Nat) : Option α := q.toList[i]?

/-- The number of values. -/
def size (q : Queue α) : Nat := q.toList.length

/-- Whether the queue holds nothing. -/
def isEmpty (q : Queue α) : Bool := q.toList.isEmpty

@[simp] theorem toList_empty : (empty : Queue α).toList = [] := rfl

@[simp] theorem toList_push (q : Queue α) (a : α) : (q.push a).toList = q.toList ++ [a] := rfl

@[simp] theorem pop_fst (q : Queue α) : q.pop.1 = q.toList.head? := by
  unfold pop; cases q.toList <;> rfl

@[simp] theorem toList_pop_snd (q : Queue α) : q.pop.2.toList = q.toList.tail := by
  unfold pop
  cases h : q.toList <;> simp [h]

@[simp] theorem size_eq (q : Queue α) : q.size = q.toList.length := rfl

@[simp] theorem get?_eq (q : Queue α) (i : Nat) : q.get? i = q.toList[i]? := rfl

/-- One step of a script run on a queue. -/
inductive Command (α : Type) where
  | push (a : α)
  | pop
  | peek
  | peekBack
  | get (index : Nat)

/-- Runs one step: the queue after it, and the value it reads (`none` for a push, which reads
nothing). -/
def perform (q : Queue α) : Command α → Queue α × Option (Option α)
  | .push a => (q.push a, none)
  | .pop => (q.pop.2, some q.pop.1)
  | .peek => (q, some q.peek)
  | .peekBack => (q, some q.peekBack)
  | .get i => (q, some (q.get? i))

end Queue

end MessageBroker
