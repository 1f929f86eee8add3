/-
A tree of files and directories that is only a value. It says no in the same
cases as a disk does on which everything is permitted. A path is followed name
by name, each from a directory: a single dot stays there, two dots lead to the
directory around it, and of several slashes in a row one counts.
-/
import AmstradCpc.Storage
import AmstradCpc.Text.Split

namespace AmstradCpc

namespace FileTree

/-- Where paths start from. -/
inductive Origin where
  /-- So many directories above the one that the program works in. -/
  | above (levels : Nat)
  /-- The directory that is in no other. -/
  | root
  deriving DecidableEq, Repr, Inhabited

/-- Something in the tree: from a directory through names, the innermost first. -/
structure Place where
  origin : Origin := .above 0
  names : List String := []
  deriving DecidableEq, Repr, Inhabited

inductive Entry where
  | file (bytes : ByteArray)
  | directory
  deriving Inhabited

end FileTree

/-- What there is, by place. The directories that paths start from are there in
any case. -/
structure FileTree where
  entries : List (FileTree.Place × FileTree.Entry) := []
  deriving Inhabited

namespace FileTree

/-! ## Places -/

/-- Bytes in the longest name. -/
def longestName : Nat := 255

/-- Bytes in the longest path. -/
def longestPath : Nat := 4095

/-- The directory around a place; there is none around the root. -/
def Place.parent (p : Place) : Place :=
  match p.names, p.origin with
  | _ :: names, _ => { p with names }
  | [], .above levels => { p with origin := .above (levels + 1) }
  | [], .root => p

/-- The place that a name stands for in a directory. -/
def Place.child (p : Place) (name : String) : Place :=
  match name with
  | "" => p
  | "." => p
  | ".." => p.parent
  | name => { p with names := name :: p.names }

/-- Where a path starts from. -/
def startOf (path : String) : Place :=
  { origin := if path.toList.head? == some '/' then .root else .above 0 }

/-- The names in a path; those of no length mean nothing. -/
def namesOf (path : String) : List String := (Text.splitAt '/' path.toList).map String.ofList

def get? (t : FileTree) (p : Place) : Option Entry :=
  if p.names.isEmpty then some .directory else t.entries.lookup p

/-! ## Following a path -/

/-- Why nothing can be looked up at a place: it is not a directory. -/
def directoryProblem (t : FileTree) (p : Place) : Option FileProblem :=
  match t.get? p with
  | some .directory => none
  | some (.file _) => some .notADirectory
  | none => some .notFound

/-- Follows names. The last one need not stand for anything; what the others
stand for has to be directories. -/
def follow (t : FileTree) (p : Place) : List String → Except FileProblem Place
  | [] => .ok p
  | name :: rest =>
    match t.directoryProblem p with
    | some problem => .error problem
    | none => if longestName < name.utf8ByteSize then .error .invalidFilename else t.follow (p.child name) rest

/-- What may be wrong with a path whatever the tree is. -/
def pathProblem (path : String) : Option FileProblem :=
  if path.toList.contains '\x00' then some .invalidInput
  else if longestPath < path.utf8ByteSize then some .invalidFilename
  else if path.isEmpty then some .notFound
  else none

/-- Follows a path, if nothing is wrong with it. -/
def locate (t : FileTree) (path : String) : Except FileProblem Place :=
  match pathProblem path with
  | some problem => .error problem
  | none => t.follow (startOf path) (namesOf path)

/-- The path ends in a slash: what it leads to has to be a directory. -/
def asksForDirectory (path : String) : Bool := (namesOf path).getLast? == some ""

/-- Follows a path as if it did not end in a slash. -/
def locateBare (t : FileTree) (path : String) : Except FileProblem Place :=
  match pathProblem path with
  | some problem => .error problem
  | none => t.follow (startOf path) ((namesOf path).reverse.dropWhile (·.isEmpty)).reverse

/-! ## Reading and writing -/

def readAt (t : FileTree) (p : Place) : Except FileProblem ByteArray :=
  match t.get? p with
  | some (.file bytes) => .ok bytes
  | some .directory => .error .isADirectory
  | none => .error .notFound

def read (t : FileTree) (path : String) : Except FileProblem ByteArray :=
  match t.locate path with
  | .error problem => .error problem
  | .ok p => t.readAt p

/-- The tree without what is at a place. -/
def erase (t : FileTree) (p : Place) : FileTree := ⟨t.entries.filter fun (q, _) => q != p⟩

def put (t : FileTree) (p : Place) (e : Entry) : FileTree := ⟨(p, e) :: (t.erase p).entries⟩

/-- Writes a file, where there is one already or nothing yet. -/
def writeAt (t : FileTree) (p : Place) (bytes : ByteArray) : Except FileProblem FileTree :=
  match t.get? p with
  | some .directory => .error .isADirectory
  | _ => .ok (t.put p (.file bytes))

def write (t : FileTree) (path : String) (bytes : ByteArray) : Except FileProblem FileTree :=
  if asksForDirectory path then
    match t.locateBare path with
    | .error problem => .error problem
    | .ok _ => .error .isADirectory
  else
    match t.locate path with
    | .error problem => .error problem
    | .ok p => t.writeAt p bytes

/-- The tree without a file. Directories stay. -/
def removeFile? (t : FileTree) (path : String) : Option FileTree :=
  match t.locate path with
  | .error _ => none
  | .ok p =>
    match t.get? p with
    | some (.file _) => some (t.erase p)
    | _ => none

/-- The tree with a directory where nothing was. -/
def makeDirectory? (t : FileTree) (path : String) : Option FileTree :=
  match t.locateBare path with
  | .error _ => none
  | .ok p => if (t.get? p).isNone then some (t.put p .directory) else none

/-! ## Building -/

/-- The directories between a place and its origin. -/
def Place.around (origin : Origin) : List String → List Place
  | [] => []
  | _ :: names => ⟨origin, names⟩ :: around origin names

/-- The tree with a file, and with the directories that it needs. -/
def addFile (t : FileTree) (path : String) (bytes : ByteArray) : FileTree :=
  let p := (namesOf path).foldl Place.child (startOf path)
  let missing := (Place.around p.origin p.names).filter fun q => (t.get? q).isNone
  (missing.foldl (fun t q => t.put q .directory) t).put p (.file bytes)

def ofFiles (files : List (String × ByteArray)) : FileTree :=
  files.foldl (fun t (path, bytes) => t.addFile path bytes) {}

instance : MonadFiles (StateM FileTree) where
  readFile path := do return (← get).read path
  writeFile path bytes := do
    match (← get).write path bytes with
    | .ok t => set t; return .ok ()
    | .error problem => return .error problem

end FileTree

end AmstradCpc
