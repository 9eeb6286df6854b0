import ImageLabeling.Text.LetterCase

/-!
# Lower-case texts

The full lower-case form of a text: each character's own mapping, with a dotted capital I becoming
two characters and a capital sigma at the end of a word becoming the final form.
-/

namespace ImageLabeling.Text

/-- Whether the first character that case rules do not look past has case. -/
def startsCased (cs : List Char) : Bool :=
  match cs.dropWhile isCaseIgnorable with
  | [] => false
  | c :: _ => isCased c

/-- The lower-case form of `cs`, where `before` is what precedes it in the text, nearest first. -/
def lowerFrom (before : List Char) : List Char → List Char
  | [] => []
  | c :: rest =>
    let lower :=
      if c = 'Σ' then [if startsCased before && !startsCased rest then 'ς' else 'σ']
      else if c = 'İ' then ['i', '\u0307']
      else [lowerChar c]
    lower ++ lowerFrom (c :: before) rest

/-- The lower-case form of a text. -/
def lowercase (text : String) : String :=
  String.ofList (lowerFrom [] text.toList)

end ImageLabeling.Text
