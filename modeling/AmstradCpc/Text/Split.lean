/-
Taking texts apart at a mark.
-/
namespace AmstradCpc.Text

/-- The parts of a text between the marks in it; there is always one. -/
def splitAt (mark : Char) (text : List Char) : List (List Char) :=
  text.foldr (fun c parts =>
    if c = mark then [] :: parts
    else match parts with
      | part :: rest => (c :: part) :: rest
      | [] => [[c]]) [[]]

end AmstradCpc.Text
