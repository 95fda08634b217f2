import EdgeMapper.OrderedMap
/-!
# File trees

Text files and directories below one root. A path is the list of the names on the way from the root.
The name `..` leads back to the directory above, so several paths may lead to one place.
-/

namespace EdgeMapper

structure FilePath where
  names : List String
  deriving DecidableEq, Repr

namespace FilePath

def ofText (text : String) : FilePath :=
  ⟨(text.splitOn "/").filter fun name => name ≠ "" ∧ name ≠ "."⟩

def text (p : FilePath) : String := if p.names.isEmpty then "." else "/".intercalate p.names

def parent (p : FilePath) : FilePath := ⟨p.names.dropLast⟩

end FilePath

inductive FileFault where
  | isDirectory
  | occupied
  /-- The way leads through a file. -/
  | notADirectory
  /-- The way leads through a directory that is not there. -/
  | notFound
  | nameTooLong
  | badName
  deriving DecidableEq, Repr

/-- A place in a tree, by the names on the shortest way to it. The way to a place outside the tree
begins with `..`. -/
structure Place where
  names : List String
  deriving DecidableEq, Repr

namespace Place

def root : Place := ⟨[]⟩

def holdsRoot (p : Place) : Bool := p.names.all (· = "..")

def above (p : Place) : Place :=
  if p.holdsRoot then ⟨".." :: p.names⟩ else ⟨p.names.dropLast⟩

def step (p : Place) (name : String) : Place :=
  if name = ".." then p.above else ⟨p.names ++ [name]⟩

end Place

structure FileTree where
  files : OrderedMap Place String := ∅
  directories : List Place := []

namespace FileTree

def maxNameSize : Nat := 255

def isDirectory (t : FileTree) (p : Place) : Bool := p.holdsRoot || t.directories.contains p

def isFile (t : FileTree) (p : Place) : Bool := t.files.contains p

/-- Follows names from a place. All but the last have to lead to directories; where the last one
leads, nothing need be. -/
def follow (t : FileTree) (place : Place) : List String → Except FileFault Place
  | [] => .ok place
  | name :: rest =>
    if t.isDirectory place then
      if maxNameSize < name.utf8ByteSize then .error .nameTooLong
      else t.follow (place.step name) rest
    else if t.isFile place then .error .notADirectory
    else .error .notFound

def locate (t : FileTree) (p : FilePath) : Except FileFault Place :=
  if p.names.any (·.toList.contains '\x00') then .error .badName else t.follow Place.root p.names

def leadsToDirectory (t : FileTree) (p : FilePath) : Bool :=
  match t.locate p with
  | .ok place => t.isDirectory place
  | .error _ => false

def makeInner (t : FileTree) (p : FilePath) : Except FileFault FileTree :=
  (t.locate p).bind fun place =>
    if t.isDirectory place || t.isFile place then .error .occupied
    else .ok { t with directories := t.directories ++ [place] }

def ensureInner (t : FileTree) (p : FilePath) : Except FileFault FileTree :=
  if t.leadsToDirectory p then .ok t else t.makeInner p

/-- Ensures the directory to which names lead, the last of which comes first, after those above
where it has none to be in. -/
def ensureReversed (t : FileTree) : List String → Except FileFault FileTree
  | [] => .ok t
  | name :: before =>
    let p : FilePath := ⟨(name :: before).reverse⟩
    match t.ensureInner p with
    | .error .notFound => (t.ensureReversed before).bind (·.ensureInner p)
    | result => result

def ensureDirectory (t : FileTree) (p : FilePath) : Except FileFault FileTree :=
  t.ensureReversed p.names.reverse

/-- Makes a directory, which may not be there, and the directories above it. -/
def makeDirectory (t : FileTree) (p : FilePath) : Except FileFault FileTree :=
  match t.makeInner p with
  | .error .notFound => (t.ensureDirectory p.parent).bind (·.makeInner p)
  | result => result

def write (t : FileTree) (p : FilePath) (content : String) : Except FileFault FileTree :=
  (t.locate p).bind fun place =>
    if t.isDirectory place then .error .isDirectory
    else .ok { t with files := t.files.insert place content }

def read (t : FileTree) (p : FilePath) : Except FileFault (Option String) :=
  match t.locate p with
  | .ok place => if t.isDirectory place then .error .isDirectory else .ok (t.files.get? place)
  | .error .nameTooLong => .error .nameTooLong
  | .error _ => .ok none

end FileTree

end EdgeMapper
