/-
  Stocklist/Text/Similarity.lean
  ==============================
  **How alike two words are.**

  Letters of two words match if they are equal and stand at nearly the same place, each
  letter once.  Words are alike to the degree to which their letters match and the
  matching letters are in order: 0 for words without a match, 1 for equal words.
-/

namespace Stocklist.Text

/-- How far apart two letters may stand and still match. -/
def matchReach (a b : List Char) : Nat :=
  max a.length b.length / 2 - 1

/-- The places in `b`, letter by letter of `a`, that match a letter, and those letters.
    The letters of `a` are counted from `i`; the places in `taken` are used up. -/
def matchLetters (reach : Nat) (b : List Char) (i : Nat) (taken : List Nat) :
    List Char → List Nat × List Char
  | [] => (taken, [])
  | c :: rest =>
    let isFree := fun (d, j) => i ≤ j + reach && j ≤ i + reach && d = c && !taken.contains j
    match b.zipIdx.find? isFree with
    | none => matchLetters reach b (i + 1) taken rest
    | some (_, j) =>
      let (places, letters) := matchLetters reach b (i + 1) (j :: taken) rest
      (places, c :: letters)

/-- The likeness of two words, from 0 to 1. -/
def similarity (a b : List Char) : Float :=
  let (places, inA) := matchLetters (matchReach a b) b 0 [] a
  let inB := (b.zipIdx.filter fun (_, j) => places.contains j).map (·.1)
  let displaced := ((inA.zip inB).filter fun (c, d) => c ≠ d).length / 2
  let matched := inA.length
  if a.isEmpty && b.isEmpty then 1
  else if matched = 0 then 0
  else
    (matched.toFloat / a.length.toFloat + matched.toFloat / b.length.toFloat +
      (matched - displaced).toFloat / matched.toFloat) / 3

/-- The likeness above which a word is taken for a slip for another. -/
def slipLikeness : Float := 0.7

/-- The candidate that a word is most probably a slip for, the last one among equals. -/
def slipFor? (word : String) (candidates : List String) : Option String :=
  let scored := candidates.map fun c => (similarity word.toList c.toList, c)
  let likely := scored.filter fun (s, _) => s > slipLikeness
  (likely.foldl (fun best next =>
    match best with
    | none => some next
    | some b => if next.1 < b.1 then best else some next) none).map (·.2)

end Stocklist.Text
