/-
# Capital and small letters

A text is put into capitals character by character, and a character may become
several. It is put into small letters the same way, but for the capital sigma: at
the end of a word, that is after a letter and not before one, it becomes the final
form of the small sigma.

Key definitions: `Text.upper`, `Text.lower`.
-/
import SeqQuery.Text.CaseTable

namespace SeqQuery.Text

/-- The distance by which a run moves a code point of its own. -/
def CaseRun.distance? (run : CaseRun) (code : Nat) : Option Int :=
  if run.first ≤ code ∧ code ≤ run.last ∧ (code - run.first) % run.step = 0 then
    some run.distance
  else none

/-- The characters that a mapping gives for a character. -/
def mapCase (runs : List CaseRun) (expansions : List (Nat × List Nat)) (c : Char) : List Char :=
  match expansions.lookup c.toNat with
  | some codes => codes.map Char.ofNat
  | none =>
    match runs.findSome? (·.distance? c.toNat) with
    | some distance => [Char.ofNat (c.toNat + distance).toNat]
    | none => [c]

/-- Whether a character lies in one of the ranges. -/
def inRanges (ranges : List (Nat × Nat)) (c : Char) : Bool :=
  ranges.any fun (first, last) => first ≤ c.toNat && c.toNat ≤ last

/-- Whether the nearest character that counts is a letter with case. -/
def nextIsCased (text : List Char) : Bool :=
  match text.dropWhile (inRanges caseIgnorable) with
  | [] => false
  | c :: _ => inRanges cased c

/-- The small letters of a text whose part before, read backwards, is `before`. -/
def lowerAfter (before : List Char) : List Char → List Char
  | [] => []
  | c :: rest =>
    (if c = 'Σ' then
      if nextIsCased before && !nextIsCased rest then ['ς'] else ['σ']
    else mapCase lowerRuns lowerExpansions c) ++ lowerAfter (c :: before) rest

/-- A text in capitals. -/
def upper (text : String) : String :=
  String.ofList (text.toList.flatMap (mapCase upperRuns upperExpansions))

/-- A text in small letters. -/
def lower (text : String) : String :=
  String.ofList (lowerAfter [] text.toList)

end SeqQuery.Text
