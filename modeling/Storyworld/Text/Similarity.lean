/-! How much two texts resemble each other, from 0 to 1: the measure of Jaro, raised by Winkler for a
common beginning. Characters match if they are equal and not too far apart; matches in a different
order count half. -/

namespace Storyworld.Text

/-- Marks the first character equal to `c`, not yet marked, at a place from `low` below `high`; `i`
is the place of the first one given. -/
def claim? (low high : Nat) (c : Char) : Nat → List (Char × Bool) → Option (List (Char × Bool))
  | _, [] => none
  | i, (d, marked) :: rest =>
    if low ≤ i ∧ i < high ∧ d = c ∧ !marked then some ((d, true) :: rest)
    else (claim? low high c (i + 1) rest).map ((d, marked) :: ·)

/-- The characters of one text that match, and the other text with its matches marked. -/
def matchesFrom (range : Nat) : Nat → List Char → List (Char × Bool) → List Char × List (Char × Bool)
  | _, [], marks => ([], marks)
  | i, c :: cs, marks =>
    match claim? (i - range) (i + range + 1) c 0 marks with
    | some marks =>
      let (matched, marks) := matchesFrom range (i + 1) cs marks
      (c :: matched, marks)
    | none => matchesFrom range (i + 1) cs marks

def jaro (as bs : List Char) : Float :=
  if as.isEmpty && bs.isEmpty then 1.0
  else if as.isEmpty || bs.isEmpty then 0.0
  else
    let range := max as.length bs.length / 2 - 1
    let (left, marks) := matchesFrom range 0 as (bs.map (·, false))
    let right := (marks.filter Prod.snd).map Prod.fst
    let swapped := ((left.zip right).countP fun (c, d) => c ≠ d) / 2
    let m := Float.ofNat left.length
    if left.isEmpty then 0.0
    else
      (m / Float.ofNat as.length + m / Float.ofNat bs.length +
        Float.ofNat (left.length - swapped) / m) / 3.0

def commonStart (as bs : List Char) : Nat :=
  ((as.zip bs).takeWhile fun (c, d) => c = d).length

/-- The similarity of two texts; a fair one is raised by up to four characters of common
beginning. -/
def similarity (a b : String) : Float :=
  let score := jaro a.toList b.toList
  if 0.7 < score then
    let start := min 4 (commonStart a.toList b.toList)
    score + 0.1 * Float.ofNat start * (1.0 - score)
  else score

end Storyworld.Text
