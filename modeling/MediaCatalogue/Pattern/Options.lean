import MediaCatalogue.Text.Blank

/-!
# Options in a pattern

Options are set by letters in parentheses and hold to the end of the group in which they stand. With free
spacing, white space and comments between the parts of a pattern mean nothing.
-/

set_option autoImplicit false

namespace MediaCatalogue.Pattern

/-- The options in force at a place in a pattern. -/
structure Options where
  anyCase : Bool := false
  multiLine : Bool := false
  dotAll : Bool := false
  pairedLines : Bool := false
  shortFirst : Bool := false
  freeSpacing : Bool := false

/-- Turn the option of a letter on or off. `u` can only be turned on, which it is anyhow: patterns are
about characters, and reading them byte by byte is not represented. -/
def Options.set (o : Options) (letter : Char) (value : Bool) : Option Options :=
  match letter with
  | 'i' => some { o with anyCase := value }
  | 'm' => some { o with multiLine := value }
  | 's' => some { o with dotAll := value }
  | 'R' => some { o with pairedLines := value }
  | 'U' => some { o with shortFirst := value }
  | 'x' => some { o with freeSpacing := value }
  | 'u' => if value then some o else none
  | _ => none

/-- Read the letters of options up to a colon or a closing parenthesis; a letter may stand only once,
and a letter must follow a minus sign. -/
def readOptions (o : Options) (seen : List Char) (value afterMinus : Bool) :
    List Char → Option (Options × List Char)
  | [] => none
  | c :: rest =>
    if c = ':' || c = ')' then (if afterMinus then none else some (o, c :: rest))
    else if c = '-' then
      if value then readOptions o seen false true rest else none
    else if seen.contains c then none
    else
      match o.set c value with
      | some o => readOptions o (c :: seen) value false rest
      | none => none

/-- Drop white space and comments, where they are free. -/
def skipFree (o : Options) (cs : List Char) : List Char :=
  if !o.freeSpacing then cs
  else
    (cs.foldl (fun (state : Bool × Bool × List Char) c =>
      let (ended, comment, rest) := state
      if ended then state
      else if comment then (false, c != '\n', rest.drop 1)
      else if c = '#' then (false, true, rest.drop 1)
      else if Text.isBlank c then (false, false, rest.drop 1)
      else (true, false, rest)) (false, false, cs)).2.2

end MediaCatalogue.Pattern
