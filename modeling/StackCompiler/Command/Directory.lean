import StackCompiler.Text.Lines

/-!
A directory with what is below it, and the paths that lead through it. A place is the
list of names on the way from the directory. The directories around it can be reached
too, and nothing is known in them but what has been put there. Paths and the names in
them have a greatest length.
-/
namespace StackCompiler.Command

inductive Entry where
  | file (content : String)
  | directory

structure Directory where
  /-- What there is below the directory, with the path of its place. -/
  entries : List (String × Entry)

namespace Directory

def empty : Directory := ⟨[]⟩

/-- The path that leads straight to a place. -/
def pathOf (place : List String) : String :=
  "/".intercalate place

/-- Whether a place is the directory itself or one around it. -/
def isAround (place : List String) : Bool :=
  place.all (· == "..")

def find? (d : Directory) (place : List String) : Option Entry :=
  if isAround place then some .directory else d.entries.lookup (pathOf place)

/-- Puts an entry at a place. -/
def put (d : Directory) (place : List String) (entry : Entry) : Directory :=
  let path := pathOf place
  ⟨(path, entry) :: d.entries.filter (·.1 != path)⟩

/-! ### Paths -/

/-- The parts of a path between its slashes. -/
def parts (path : String) : List String :=
  (Text.splitBy (· == '/') path.toList).map String.ofList

/-- The steps of a path. Empty parts and single dots lead nowhere. -/
def steps (path : String) : List String :=
  (parts path).filter fun part => part != "" && part != "."

/-- Whether only a directory can be at the end of a path. -/
def endsAtDirectory (path : String) : Bool :=
  (parts path).getLast?.any fun part => part == "" || part == "." || part == ".."

/-- Whether a path starts at the root of all directories, which is not known. -/
def isAbsolute (path : String) : Bool :=
  path.toList.head? == some '/'

/-- Whether a name can be part of a path at all. -/
def isWritable (name : String) : Bool :=
  ! name.toList.contains '\x00'

/-- Whether a name is short enough for a file. -/
def isShort (name : String) : Bool :=
  name.utf8ByteSize ≤ 255

/-- Whether a path is short enough to lead anywhere. -/
def isShortPath (path : String) : Bool :=
  path.utf8ByteSize ≤ 4095

/-- The part of a path before its last step. -/
def parentPath (path : String) : String :=
  let isSlash (c : Char) := c == '/'
  let passed := (path.toList.reverse.dropWhile isSlash).dropWhile (! isSlash ·)
  String.ofList (passed.dropWhile isSlash).reverse

/-- The directory around a place. -/
def outward (place : List String) : List String :=
  if isAround place then place ++ [".."] else place.dropLast

/-- The place to which steps lead. All but the last must lead to directories. -/
def locate (d : Directory) : (place steps : List String) → Option (List String)
  | place, [] => some place
  | place, step :: rest =>
    match d.find? place with
    | some .directory =>
      d.locate (if step = ".." then outward place else place ++ [step]) rest
    | _ => none

/-- What is at the end of a path. -/
def entryAt? (d : Directory) (path : String) : Option Entry :=
  if isAbsolute path || ! isShortPath path then none
  else do
    match ← d.find? (← d.locate [] (steps path)) with
    | .file content => if endsAtDirectory path then none else some (.file content)
    | .directory => some .directory

def contains (d : Directory) (path : String) : Bool :=
  (d.entryAt? path).isSome

/-- The text of the file at the end of a path. -/
def read? (d : Directory) (path : String) : Option String :=
  match d.entryAt? path with
  | some (.file content) => some content
  | _ => none

/-! ### Writing -/

/-- Makes the directories that steps lead through, from a place that is a directory. Gives the
    place, unless a file or a name that is too long is in the way. -/
def makeWay : (place steps : List String) → Directory → Directory × Option (List String)
  | place, [], d => (d, some place)
  | place, step :: rest, d =>
    if step = ".." then makeWay (outward place) rest d
    else if ! isShort step then (d, none)
    else
      let next := place ++ [step]
      match d.find? next with
      | some (.file _) => (d, none)
      | some .directory => makeWay next rest d
      | none => makeWay next rest (d.put next .directory)

/-- Writes a file and makes the directories on the way to it. Whether that worked comes with what
    is there afterwards. -/
def write (d : Directory) (path content : String) : Directory × Bool :=
  let way := steps path
  match way.getLast? with
  | none => (d, false)
  | some name =>
    if isAbsolute path || ! way.dropLast.all isWritable || ! isShortPath (parentPath path) then
      (d, false)
    else
      match makeWay [] way.dropLast d with
      | (d, none) => (d, false)
      | (d, some place) =>
        match d.find? (place ++ [name]) with
        | some .directory => (d, false)
        | _ =>
          if endsAtDirectory path || ! isWritable name || ! isShort name || ! isShortPath path then
            (d, false)
          else (d.put (place ++ [name]) (.file content), true)

inductive WriteResult where
  | written
  | skipped
  | failed
deriving DecidableEq

/-- Writes a file, or leaves what is there if only a missing file is to be written. -/
def save (d : Directory) (onlyIfMissing : Bool) (path content : String) : Directory × WriteResult :=
  if onlyIfMissing && d.contains path then (d, .skipped)
  else
    let (d, done) := d.write path content
    (d, if done then .written else .failed)

/-- Whether a path that leads straight to a place leaves the directory. -/
def isOutside (path : String) : Bool :=
  (steps path).head? == some ".."

/-- All files below the directory with their paths, in ascending order of these. -/
def files (d : Directory) : List (String × String) :=
  let found := d.entries.filterMap fun (path, entry) =>
    match entry with
    | .file content => if isOutside path then none else some (path, content)
    | .directory => none
  found.mergeSort fun a b => decide (a.1 ≤ b.1)

end Directory

/-- What commands do with files, in whatever world the files are. -/
structure FileAccess (m : Type → Type) where
  contains : String → m Bool
  read? : String → m (Option String)
  /-- Writes a file, with the directories on the way, and says whether that worked. -/
  write : String → String → m Bool

/-- The files of a directory that is given as a value. -/
def Directory.access : FileAccess (StateM Directory) where
  contains path := do return (← get).contains path
  read? path := do return (← get).read? path
  write path content := do
    let (d, done) := (← get).write path content
    set d
    return done

/-- The path of `name` in the directory at `path`. -/
def joinPath (path name : String) : String :=
  if path.isEmpty || path.toList.getLast? == some '/' then path ++ name else path ++ "/" ++ name

end StackCompiler.Command
