/-!
# Cutting texts

A text is cut at each place where a separator stands. The separators are lost, and there is always one
part more than there are separators, so that the text can be put together again.
-/

set_option autoImplicit false

namespace MediaCatalogue.Text

/-- The parts of a row of characters between separators. -/
def splitChars (separator : Char) : List Char → List (List Char)
  | [] => [[]]
  | c :: cs =>
    if c = separator then [] :: splitChars separator cs
    else match splitChars separator cs with
      | part :: parts => (c :: part) :: parts
      | [] => [[c]]

/-- The parts of a text between separators. -/
def split (separator : Char) (s : String) : List String :=
  (splitChars separator s.toList).map String.ofList

/-- The texts before and after the first separator, if there is one. -/
def splitOnce? (separator : Char) (s : String) : Option (String × String) :=
  let cs := s.toList
  let head := cs.takeWhile (· != separator)
  match cs.drop head.length with
  | _ :: tail => some (String.ofList head, String.ofList tail)
  | [] => none

/-- There is at least one part. -/
theorem splitChars_ne_nil (separator : Char) (cs : List Char) : splitChars separator cs ≠ [] := by
  cases cs with
  | nil => simp [splitChars]
  | cons c cs =>
    rw [splitChars]
    split
    · simp
    · split <;> simp

end MediaCatalogue.Text
