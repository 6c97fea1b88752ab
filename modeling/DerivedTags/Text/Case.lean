import DerivedTags.Text.CaseTable
import DerivedTags.Text.Letter

/-!
# Upper and lower case of a text

Both mappings are those of Unicode without a locale: one character may
become several, and a capital sigma that ends a word becomes a final one.
-/

namespace DerivedTags.Text

/-- Whether a run maps the code point. -/
def CaseRun.holds (run : CaseRun) (n : Nat) : Bool :=
  run.first ≤ n && n ≤ run.last && (n - run.first) % run.step == 0

/-- One character through a table of expansions and a table of runs. -/
def mapCase (expansions : List (Nat × List Nat)) (runs : List CaseRun) (c : Char) : List Char :=
  match expansions.lookup c.toNat with
  | some codes => codes.map Char.ofNat
  | none =>
    match runs.find? (·.holds c.toNat) with
    | some run => [Char.ofNat (c.toNat + run.shift).toNat]
    | none => [c]

/-- The upper case form of one character. -/
def upperChar (c : Char) : List Char := mapCase upperExpansions upperRuns c

/-- The lower case form of one character, apart from its place in a word. -/
def lowerChar (c : Char) : List Char := mapCase lowerExpansions lowerRuns c

/-- The upper case form of a text. -/
def upper (cs : List Char) : List Char := cs.flatMap upperChar

/-- A character that takes no part in deciding where a word ends. -/
def isCaseIgnorable (c : Char) : Bool := inRanges caseIgnorableRanges c.toNat

/-- An upper, lower or title case letter. -/
def isCased (c : Char) : Bool := inRanges casedRanges c.toNat

/-- Whether the first character that counts is a cased one. -/
def meetsCased (cs : List Char) : Bool :=
  match cs.dropWhile isCaseIgnorable with
  | c :: _ => isCased c
  | [] => false

/-- The lower case form of a text, given the characters before it, the last
one first. A capital sigma after a cased character and not before one is
the final sigma. -/
def lowerAfter : List Char → List Char → List Char
  | _, [] => []
  | before, c :: rest =>
    let form :=
      if c == 'Σ' then
        if meetsCased before && !meetsCased rest then ['ς'] else ['σ']
      else lowerChar c
    form ++ lowerAfter (c :: before) rest

/-- The lower case form of a text. -/
def lower (cs : List Char) : List Char := lowerAfter [] cs

end DerivedTags.Text
