import LayerPipeline.Planning.PlanFile

/-!
# Files in memory

A tree of files, and how a path finds its way through it.
-/

namespace LayerPipeline

/-- Files by their places. A place is the list of names on the way from the root. -/
structure FileTree where
  /-- The folder where a path starts that does not start at the root. -/
  home : List String
  files : List (List String × List UInt8)
deriving DecidableEq, Inhabited

namespace FileTree

/-- Why a path leads to no file that can be read or written. -/
inductive Fault where
  /-- There is nothing at some step of the way. -/
  | missing
  /-- The way goes on where there is a file. -/
  | notFolder
  /-- The path stands for a folder. -/
  | isFolder
  /-- A name or the whole path is too long. -/
  | tooLong
deriving DecidableEq, Inhabited

/-- The system's words for a fault. -/
def Fault.reason : Fault → String
  | .missing => noSuchFileReason
  | .notFolder => "Not a directory (os error 20)"
  | .isFolder => "Is a directory (os error 21)"
  | .tooLong => "File name too long (os error 36)"

/-- The most bytes that a name may have. -/
def nameLimit : Nat := 255

/-- The most bytes that a path may have. -/
def pathLimit : Nat := 4095

/-- The names in a path. -/
def names (path : String) : List String :=
  (path.splitOn "/").filter (· ≠ "")

/-- Whether a name stands for the folder itself or for the one around it. -/
def isDots (name : String) : Bool :=
  name = "." || name = ".."

/-- Where a path starts. -/
def start (t : FileTree) (path : String) : List String :=
  if path.startsWith "/" then [] else t.home

/-- The content of the file at a place. -/
def content? (t : FileTree) (place : List String) : Option (List UInt8) :=
  t.files.lookup place

/-- Whether there is a folder at a place: every place above a file or on the way home is one. -/
def hasFolder (t : FileTree) (place : List String) : Bool :=
  place.isPrefixOf t.home || t.files.any fun f => place.isPrefixOf f.1 && place ≠ f.1

/-- The folder that a name leads to from another one. -/
def enter (t : FileTree) (folder : List String) (name : String) : Except Fault (List String) :=
  let place := folder ++ [name]
  if name = "." then .ok folder
  else if name = ".." then .ok folder.dropLast
  else if nameLimit < name.utf8ByteSize then .error .tooLong
  else if t.hasFolder place then .ok place
  else if (t.content? place).isSome then .error .notFolder
  else .error .missing

/-- The place that a path stands for. All its names but the last lead through folders, and the last
one is the name of something. -/
def locate (t : FileTree) (path : String) : Except Fault (List String) :=
  if path = "" then .error .missing
  else if pathLimit < path.utf8ByteSize then .error .tooLong
  else
    match (names path).getLast? with
    | none => .error .isFolder
    | some last => do
      let folder ← (names path).dropLast.foldlM t.enter (t.start path)
      if isDots last then .error .isFolder else .ok (folder ++ [last])

/-- Whether the last name of a place is too long. -/
def endsTooLong (place : List String) : Bool :=
  place.getLast?.any fun name => nameLimit < name.utf8ByteSize

/-- The content of the file that a path stands for. A slash at its end asks for a folder. -/
def read (t : FileTree) (path : String) : Except Fault (List UInt8) := do
  let place ← t.locate path
  match t.content? place with
  | some bytes => if path.endsWith "/" then .error .notFolder else .ok bytes
  | none =>
    if t.hasFolder place then .error .isFolder
    else if endsTooLong place then .error .tooLong
    else .error .missing

/-- The tree after a file was written, in place of the one with the same path if there is one. Only
the file is made, no folder on its way. -/
def write (t : FileTree) (path : String) (bytes : List UInt8) : Except Fault FileTree := do
  let place ← t.locate path
  if path.endsWith "/" || t.hasFolder place then .error .isFolder
  else if endsTooLong place then .error .tooLong
  else .ok { t with files := t.files.filter (fun f => f.1 ≠ place) ++ [(place, bytes)] }

/-- An empty tree, whose home is a folder for temporary files. -/
def empty : FileTree := ⟨["tmp", "desk"], []⟩

/-- Adds a file and the folders on its way. -/
def add (t : FileTree) (path : String) (bytes : List UInt8) : FileTree :=
  let place := t.start path ++ (names path).filter fun name => !isDots name
  { t with files := t.files ++ [(place, bytes)] }

end FileTree

end LayerPipeline
