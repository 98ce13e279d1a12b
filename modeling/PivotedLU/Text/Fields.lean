/-!
# Cutting text
-/

namespace PivotedLU.Text

/-- The pieces between the occurrences of a separator; there is always at least one. -/
def splitAt (sep : Char) : List Char → List (List Char)
  | [] => [[]]
  | c :: rest =>
    if c = sep then [] :: splitAt sep rest
    else
      match splitAt sep rest with
      | piece :: pieces => (c :: piece) :: pieces
      | [] => [[c]]

/-- The maximal runs of characters that are no separators. -/
def fields (isSep : Char → Bool) : List Char → List (List Char)
  | [] => []
  | [c] => if isSep c then [] else [[c]]
  | c :: d :: rest =>
    if isSep c then fields isSep (d :: rest)
    else if isSep d then [c] :: fields isSep (d :: rest)
    else
      match fields isSep (d :: rest) with
      | run :: runs => (c :: run) :: runs
      | [] => [[c]]

end PivotedLU.Text
