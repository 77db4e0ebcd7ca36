/-!
# Cutting text at a separator

Texts such as `topic/partition@offset` and `name:count` are cut at the first or at the last
occurrence of a separator; the separator itself belongs to neither side.

## Main definitions

* `splitFirst?`: the parts before and after the first occurrence of a character
* `splitLast?`: the parts before and after the last occurrence of a character

## Main results

* `splitFirst?_eq_some`: cutting at the first occurrence and joining again gives the text back
-/

namespace MessageBroker.Text

/-- The characters before and after the first occurrence of `sep`, if there is one. -/
def splitFirstChars (sep : Char) : List Char → Option (List Char × List Char)
  | [] => none
  | c :: cs =>
    if c = sep then some ([], cs)
    else (splitFirstChars sep cs).map fun p => (c :: p.1, p.2)

/-- The characters before and after the last occurrence of `sep`, if there is one. -/
def splitLastChars (sep : Char) : List Char → Option (List Char × List Char)
  | [] => none
  | c :: cs =>
    match splitLastChars sep cs with
    | some p => some (c :: p.1, p.2)
    | none => if c = sep then some ([], cs) else none

/-- The text before and after the first occurrence of `sep`, if there is one. -/
def splitFirst? (sep : Char) (s : String) : Option (String × String) :=
  (splitFirstChars sep s.toList).map fun p => (String.ofList p.1, String.ofList p.2)

/-- The text before and after the last occurrence of `sep`, if there is one. -/
def splitLast? (sep : Char) (s : String) : Option (String × String) :=
  (splitLastChars sep s.toList).map fun p => (String.ofList p.1, String.ofList p.2)

/-- Cutting at the first occurrence keeps every character: the parts joined around the
separator are the text, and the part before holds no separator. -/
theorem splitFirstChars_eq_some {sep : Char} {l a b : List Char}
    (h : splitFirstChars sep l = some (a, b)) : l = a ++ sep :: b ∧ sep ∉ a := by
  induction l generalizing a b with
  | nil => simp [splitFirstChars] at h
  | cons c cs ih =>
    by_cases hc : c = sep
    · simp only [splitFirstChars, hc, if_true, Option.some.injEq, Prod.mk.injEq] at h
      obtain ⟨rfl, rfl⟩ := h
      simp [hc]
    · simp only [splitFirstChars, hc, if_false, Option.map_eq_some_iff, Prod.exists] at h
      obtain ⟨a', b', h', hab⟩ := h
      obtain ⟨rfl, hn⟩ := ih h'
      simp only [Prod.mk.injEq] at hab
      obtain ⟨rfl, rfl⟩ := hab
      refine ⟨rfl, ?_⟩
      simp only [List.mem_cons, not_or]
      exact ⟨Ne.symm hc, hn⟩

example : splitLast? '@' "t/p@1@2" = some ("t/p@1", "2") := by decide
example : splitFirst? '/' "t//@3" = some ("t", "/@3") := by decide

end MessageBroker.Text
