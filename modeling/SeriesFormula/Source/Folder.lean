import SeriesFormula.Source.Error

/-!
# Folders

A folder is a list of names with files or further folders; a file holds a text, or bytes that are none. Paths are
names between slashes; a point stands for the folder itself and two points for the one around it.
-/

namespace SeriesFormula

/-- A file or a folder. -/
inductive Entry where
  | file (content : Option String)
  | folder (entries : List (String × Entry))

namespace Entry

def empty : Entry := .folder []

/-- The names between the slashes of a path; a final slash leaves an empty name. -/
def pathNames (path : String) : List String := path.splitOn "/"

def maxNameLength : Nat := 255

def maxPathLength : Nat := 4095

/-- Whether a name on a path stands for the folder itself. -/
def isSelf (name : String) : Bool := name == "" || name == "."

/-- Refuses a path that can name nothing. -/
def checkPath (path : String) : Except FileError Unit := do
  if path.contains '\x00' then throw .zeroByte
  if path.isEmpty then throw .missing
  if maxPathLength < path.utf8ByteSize then throw .nameTooLong

/-- The entry under some names; `around` holds the folders that were entered, the innermost first. A file has nothing
under it, not even itself, and the folder around the outermost one holds nothing that is known. -/
def find (around : List Entry) : List String → Entry → Except FileError Entry
  | [], entry => .ok entry
  | _ :: _, .file _ => .error .notFolder
  | name :: names, .folder entries =>
    if isSelf name then find around names (.folder entries)
    else if name = ".." then
      match around with
      | [] => find [] names empty
      | outer :: around => find around names outer
    else if maxNameLength < name.utf8ByteSize then .error .nameTooLong
    else
      match entries.lookup name with
      | some entry => find (.folder entries :: around) names entry
      | none => .error .missing

/-- The text of the file at a path. A path that starts with a slash leads out of the folder, to where nothing is. -/
def readText (root : Entry) (path : String) : Except FileError String := do
  checkPath path
  match ← (if path.startsWith "/" then empty else root).find [] (pathNames path) with
  | .file (some text) => return text
  | .file none => throw .notText
  | .folder _ => throw .folder

/-- The text of the file at a path that starts in a folder: the empty path is the folder itself. -/
def readWithin (root : Entry) (path : String) : Except FileError String :=
  root.readText (if path.isEmpty then "." else path)

/-- The entries with one of them replaced, or added at the end. -/
def put (name : String) (entry : Entry) : List (String × Entry) → List (String × Entry)
  | [] => [(name, entry)]
  | (other, old) :: entries =>
    if other = name then (name, entry) :: entries else (other, old) :: put name entry entries

/-- Writes a file and the folders on the way to it. No name stands for a folder itself or the one around it. -/
def write (content : Option String) : List String → Entry → Except FileError Entry
  | [], .folder _ => .error .folder
  | [], .file _ => .ok (.file content)
  | _ :: _, .file _ => .error .notFolder
  | name :: names, .folder entries => do
    if maxNameLength < name.utf8ByteSize then throw .nameTooLong
    let inner := (entries.lookup name).getD (if names.isEmpty then .file none else empty)
    return .folder (put name (← write content names inner) entries)

/-- The names on a path that are left when those of the folder itself are dropped and each pair of points has taken
away the name before it. -/
def resolved (names : List String) : List String :=
  ((names.filter fun name => !isSelf name).foldl
    (fun kept name => if name == ".." then kept.tail else name :: kept) []).reverse

/-- Makes the folders under some names that are not there yet. -/
def makeFolder : List String → Entry → Except FileError Entry
  | [], entry => .ok entry
  | _ :: _, .file _ => .error .notFolder
  | name :: names, .folder entries => do
    if maxNameLength < name.utf8ByteSize then throw .nameTooLong
    return .folder (put name (← makeFolder names ((entries.lookup name).getD empty)) entries)

/-- Makes each folder on the way to the last of some names, also those that two points lead out of again. -/
def makeFoldersTo (root : Entry) (names : List String) : Except FileError Entry :=
  (List.range names.length).foldlM (fun root n => makeFolder (resolved (names.take n)) root) root

/-- Writes a text to the file at a path. A path that ends in a slash or in two points means a folder, and one that
ends in a single point means a folder that must be there. -/
def writeText (root : Entry) (path text : String) : Except FileError Entry := do
  checkPath path
  let (ending, names) := (pathNames path).reverse.span isSelf
  let root ← root.makeFoldersTo names.reverse
  match names with
  | [] | ".." :: _ => throw .folder
  | names =>
    if ending.isEmpty then root.write (some text) (resolved names.reverse)
    else if ending.contains "." then
      match ← root.find [] names.reverse with
      | .file _ => throw .notFolder
      | .folder _ => throw .folder
    else throw .folder

mutual

/-- The paths and contents of all files, depth first. -/
def files : Entry → List (List String × Option String)
  | .file content => [([], content)]
  | .folder entries => filesOfList entries

/-- The paths and contents of all files under some names. -/
def filesOfList : List (String × Entry) → List (List String × Option String)
  | [] => []
  | (name, entry) :: entries =>
    entry.files.map (fun (path, content) => (name :: path, content)) ++ filesOfList entries

end

end Entry

end SeriesFormula
