import Storyworld.Text.Lowercase.Context
import Storyworld.Text.Lowercase.Mapping

/-! Full lower casing of a text. Two characters do not follow the simple mapping: İ becomes an i
with a dot above it, and a sigma that ends a word becomes ς. -/

namespace Storyworld.Text

/-- Whether the nearest character that is not case-ignorable has case. -/
def casedNext (cs : List Char) : Bool :=
  match cs.dropWhile isCaseIgnorable with
  | [] => false
  | c :: _ => isCased c

/-- Lower-cases what is left of a text; `before` holds the characters already read, last first. -/
def lowercaseAfter (before : List Char) : List Char → List Char
  | [] => []
  | c :: cs =>
    let lowered :=
      if c = 'Σ' then [if casedNext before && !casedNext cs then 'ς' else 'σ']
      else if c = 'İ' then ['i', '\u0307']
      else [lowerChar c]
    lowered ++ lowercaseAfter (c :: before) cs

def lowercase (s : String) : String :=
  String.ofList (lowercaseAfter [] s.toList)

end Storyworld.Text
