import MessageBroker.Text.Blank
/-!
# Topic names

A topic name is a non-empty text of at most 255 characters with no blank and no `/` (the slash
divides topic and partition in a message id). The rules are checked in that order and the first
one broken is reported.

## Main definitions

* `NameProblem`: the rule a text breaks, with its wording
* `nameProblem?`: the first rule a text breaks
* `TopicName`: a text that breaks no rule, with `TopicName.check`

## Main results

* `TopicName.check_val`: checking the text of a topic name gives that name back
-/

namespace MessageBroker

/-- The rules of topic names. -/
inductive NameProblem where
  | empty
  | tooLong
  | blank
  | slash
  deriving DecidableEq, Repr

/-- The wording of each broken rule. -/
def NameProblem.message : NameProblem → String
  | .empty => "Topic name cannot be empty"
  | .tooLong => "Topic name too long (max 255 characters)"
  | .blank => "Topic name cannot contain whitespace"
  | .slash => "Topic name cannot contain '/'"

/-- The most characters a topic name may have. -/
def maxNameLength : Nat := 255

/-- The first rule that a text breaks, in the order: empty, too long, blank, slash. -/
def nameProblem? (s : String) : Option NameProblem :=
  if s.isEmpty then some .empty
  else if maxNameLength < s.length then some .tooLong
  else if s.toList.any Text.isBlank then some .blank
  else if s.toList.contains '/' then some .slash
  else none

/-- A topic name: a text that breaks none of the rules. -/
@[ext]
structure TopicName where
  /-- The text of the name. -/
  val : String
  /-- It breaks no rule. -/
  valid : nameProblem? val = none

namespace TopicName

instance : DecidableEq TopicName := fun a b =>
  if h : a.val = b.val then isTrue (TopicName.ext h)
  else isFalse fun e => h (congrArg TopicName.val e)

/-- Checks a text against the rules. -/
def check (s : String) : Except NameProblem TopicName :=
  match h : nameProblem? s with
  | some p => .error p
  | none => .ok ⟨s, h⟩

/-- Checking the text of a name gives the name back. -/
theorem check_val (t : TopicName) : check t.val = .ok t := by
  unfold check
  split
  · next p h => exact absurd (h.symm.trans t.valid) (by simp)
  · rfl

end TopicName

end MessageBroker
