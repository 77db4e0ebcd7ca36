/-!
# Blank characters

The characters with the Unicode `White_Space` property: twenty-five code points in ten runs.
A topic name may hold none of them.

## Main definitions

* `blankRuns`: the runs of `White_Space` code points, as inclusive ranges
* `isBlank`: membership in one of the runs

## Main results

* `isBlank_of_isWhitespace`: the four blanks that core knows are blanks here too
-/

namespace MessageBroker.Text

/-- The code points with the Unicode `White_Space` property, as inclusive runs in increasing
order: the C0 controls tab to carriage return, space, next line, no-break space, ogham space
mark, the en quad to hair space block, the line and paragraph separators, the narrow no-break
space, the medium mathematical space and the ideographic space. -/
def blankRuns : List (Nat × Nat) :=
  [(0x09, 0x0D), (0x20, 0x20), (0x85, 0x85), (0xA0, 0xA0), (0x1680, 0x1680),
    (0x2000, 0x200A), (0x2028, 0x2029), (0x202F, 0x202F), (0x205F, 0x205F), (0x3000, 0x3000)]

/-- A character is blank when its code point lies in one of the `White_Space` runs. -/
def isBlank (c : Char) : Bool :=
  blankRuns.any fun r => decide (r.1 ≤ c.toNat ∧ c.toNat ≤ r.2)

example : (blankRuns.map fun r => r.2 + 1 - r.1).sum = 25 := by decide

example : isBlank '　' ∧ isBlank '\u0085' ∧ ¬ isBlank '​' ∧ ¬ isBlank '﻿' ∧
    ¬ isBlank '᠎' := by decide

/-- The four blanks that core's `Char.isWhitespace` knows are blanks here too. -/
theorem isBlank_of_isWhitespace {c : Char} (h : c.isWhitespace) : isBlank c := by
  simp only [Char.isWhitespace, Bool.or_eq_true, decide_eq_true_eq] at h
  rcases h with ((h | h) | h) | h <;> subst h <;> decide

end MessageBroker.Text
