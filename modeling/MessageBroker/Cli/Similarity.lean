/-!
# Similarity of words

The Jaro similarity of two words, used to suggest the option a mistyped word was meant to be.
Two characters match when they are equal and no farther apart than half the longer word, less
one; each character matches at most once, the earliest free one. With `m` matches of which
`t` pairs are out of order, the similarity is the mean of `m / |a|`, `m / |b|` and
`(m - t) / m`, computed in binary64 arithmetic in that order.

## Main definitions

* `matchMarks`, `transpositions`, `jaro`
* `closest`: the most similar candidate above `0.7`, the later one among equals
-/

namespace MessageBroker.Cli

/-- For each character of `a`, whether it matched a character of `b` at most `window` places
away that no earlier character matched; and the same marks for `b`. -/
def matchMarks (a b : List Char) (window : Nat) : List Bool × List Bool :=
  let step (acc : List Bool × List Bool) (ci : Char × Nat) : List Bool × List Bool :=
    let hi := min b.length (ci.2 + window + 1)
    let free (j : Nat) : Bool := ci.2 - window ≤ j && b[j]? == some ci.1 && acc.2[j]? == some false
    match (List.range hi).find? free with
    | some j => (acc.1 ++ [true], acc.2.set j true)
    | none => (acc.1 ++ [false], acc.2)
  a.zipIdx.foldl step ([], List.replicate b.length false)

/-- The characters of a word that carry a mark, in order. -/
def marked (a : List Char) (marks : List Bool) : List Char :=
  (a.zip marks).filterMap fun p => if p.2 then some p.1 else none

/-- Half the number of places where the matched characters of the two words differ. -/
def transpositions (a b : List Char) (ma mb : List Bool) : Nat :=
  ((marked a ma).zip (marked b mb)).countP (fun p => p.1 != p.2) / 2

/-- The Jaro similarity of two words, between `0` and `1`. -/
def jaro (s t : String) : Float :=
  let a := s.toList
  let b := t.toList
  if a.isEmpty && b.isEmpty then 1
  else if a.isEmpty || b.isEmpty then 0
  else
    let marks := matchMarks a b (max a.length b.length / 2 - 1)
    let m := marks.1.count true
    if m = 0 then 0
    else
      let k := transpositions a b marks.1 marks.2
      (Float.ofNat m / Float.ofNat a.length + Float.ofNat m / Float.ofNat b.length +
        Float.ofNat (m - k) / Float.ofNat m) / 3

/-- The least similarity for a suggestion, `0.7` rounded to binary64. -/
def threshold : Float := Float.ofNat 7 / Float.ofNat 10

/-- The candidate most similar to a word, if any is more similar than `threshold`; among
equally similar candidates the last one listed. -/
def closest (word : String) (candidates : List String) : Option String :=
  let best := candidates.foldl (fun (acc : Option (Float × String)) c =>
    let score := jaro word c
    if threshold < score then
      match acc with
      | some (s, _) => if s ≤ score then some (score, c) else acc
      | none => some (score, c)
    else acc) none
  best.map Prod.snd

end MessageBroker.Cli
