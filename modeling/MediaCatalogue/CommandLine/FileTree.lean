import MediaCatalogue.Text.Split

/-!
# Trees of files

The files below a directory, with their texts, and the directories that hold them. A path is followed name by
name, and everything on the way must be a directory. Writing a file makes the directories that are missing.
-/

set_option autoImplicit false

namespace MediaCatalogue.CommandLine

/-- What is at a path: nothing, something that has no text, or a text. -/
inductive FileContent where
  | absent
  | unreadable
  | text (s : String)
deriving DecidableEq

/-- Why a file is not written: a directory for it cannot be made, or the file itself cannot be. -/
inductive WriteError where
  | directory (path : String)
  | file (reason : String)
deriving DecidableEq

/-- The names on the way to a place, the last one first. The way begins at the working directory, or at the
root if its first name is a slash. -/
abbrev Place := List String

namespace Place

/-- Go one name further. Two dots lead up, but the root is its own parent. -/
def child (p : Place) (name : String) : Place :=
  if name = "" ∨ name = "." then p
  else if name = ".." then
    match p with
    | [] => [".."]
    | ".." :: _ => ".." :: p
    | "/" :: _ => p
    | _ :: q => q
  else name :: p

/-- Whether a place is the working directory, one above it, or the root. -/
def isTop (p : Place) : Bool :=
  p.all fun name => name == ".." || name == "/"

/-- Where a path begins. -/
def start (path : String) : Place :=
  if path.toList.head? = some '/' then ["/"] else []

end Place

/-- Drop the names at the end of a path that lead nowhere; the last one first. -/
def dropIdle : List String → List String
  | [] => []
  | [name] => [name]
  | name :: names => if name = "" ∨ name = "." then dropIdle names else name :: names

/-- The path of the directory in which a path leads to something. -/
def parentPath? (path : String) : Option String :=
  match dropIdle (Text.split '/' path).reverse with
  | [] => none
  | [name] => if name.isEmpty then none else some ""
  | _ :: names =>
    match dropIdle names with
    | [""] => some "/"
    | names => some (String.intercalate "/" names.reverse)

/-- Files by place, and the directories that were made for themselves. -/
structure FileTree where
  files : List (Place × String) := []
  directories : List Place := []

namespace FileTree

/-- Whether a place is a directory: it holds a file or directory, or was made as one. -/
def isDirectory (p : Place) (t : FileTree) : Bool :=
  p.isTop || t.directories.any (p.isSuffixOf ·) || t.files.any fun f => p.isSuffixOf f.1.tail

/-- The text of the file at a place. -/
def text? (p : Place) (t : FileTree) : Option String :=
  (t.files.find? fun f => f.1 == p).map Prod.snd

/-- Go down name by name; each but the last has to lead to a directory. -/
def follow (t : FileTree) (p : Place) : List String → Option Place
  | [] => some p
  | name :: names => if t.isDirectory p then t.follow (p.child name) names else none

/-- The place to which a path leads, whether something is there or not. -/
def locate? (path : String) (t : FileTree) : Option Place :=
  if path.isEmpty then none else t.follow (Place.start path) (Text.split '/' path)

/-- What is found under a path. -/
def read (path : String) (t : FileTree) : FileContent :=
  match t.locate? path with
  | none => .absent
  | some p =>
    if t.isDirectory p then .unreadable
    else
      match t.text? p with
      | some s => .text s
      | none => .absent

/-- Make the directories on a way, unless a file is in it. -/
def makeDirectories (t : FileTree) (p : Place) : List String → Option FileTree
  | [] => some t
  | name :: names =>
    let q := p.child name
    if t.isDirectory q then t.makeDirectories q names
    else if (t.text? q).isSome then none
    else makeDirectories { t with directories := q :: t.directories } q names

/-- Put a text in the file at a place, in place of what is there. -/
def put (p : Place) (text : String) (t : FileTree) : FileTree :=
  { t with files := (p, text) :: t.files.filter fun f => f.1 != p }

/-- Write a text to a path. What cannot be a file is a directory, or a file with something behind it. -/
def write (path text : String) (t : FileTree) : Except WriteError FileTree :=
  let parent := (parentPath? path).getD ""
  match t.makeDirectories (Place.start parent) (Text.split '/' parent) with
  | none => .error (.directory parent)
  | some t =>
    match t.locate? path with
    | some p =>
      if t.isDirectory p then .error (.file "Is a directory (os error 21)") else .ok (t.put p text)
    | none =>
      let isFile := (t.locate? (String.ofList (path.toList.reverse.dropWhile (· == '/')).reverse)).any
        fun p => (t.text? p).isSome
      .error (.file (if isFile then "Not a directory (os error 20)" else "Is a directory (os error 21)"))

/-- The tree of files with given paths and texts. -/
def ofFiles (files : List (String × String)) : FileTree :=
  files.foldl (fun t f => t.put ((Text.split '/' f.1).foldl Place.child (Place.start f.1)) f.2) {}

end FileTree
end MediaCatalogue.CommandLine
