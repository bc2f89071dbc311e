import OpCycle.Document.Node

/-! # Documents by path
Which document a path names. A path is walked name by name, from the root when it starts with a slash and
from the working directory otherwise: an empty name and `.` stay, `..` goes up, and every other name goes
down. Only a folder can be walked on from, so a path that leads through anything else names nothing. -/

namespace OpCycle

/-- Where a walk can start. -/
inductive Origin
  /-- The root of all folders. -/
  | root
  /-- The folder this many levels above the working directory. -/
  | above (levels : Nat)
  deriving DecidableEq, Repr

/-- A place that a walk can lead to. The working directory does not know its own name, so going up from
it and down again leads to another place. -/
structure Place where
  /-- The highest folder on the way. -/
  origin : Origin
  /-- The names on the way down from there, the last one first. -/
  names : List Text
  deriving DecidableEq, Repr

namespace Place

/-- The working directory, `.above 0` without names. -/
def here : Place := ⟨.above 0, []⟩

/-- The root of all folders, which is above itself. -/
def root : Place := ⟨.root, []⟩

/-- The place above, which for `.above levels` is `.above (levels + 1)`. -/
def parent : Place → Place
  | ⟨origin, _ :: names⟩ => ⟨origin, names⟩
  | ⟨.above levels, []⟩ => ⟨.above (levels + 1), []⟩
  | ⟨.root, []⟩ => root

/-- The place after one more `name`: `.` stays and `..` goes up. -/
def step (p : Place) (name : Text) : Place :=
  if name.isEmpty ∨ name = "." then p
  else if name = ".." then p.parent
  else ⟨p.origin, name :: p.names⟩

/-- The places that a walk along the names has to go on from: `p` and those after it, without the last one. -/
def passed : Place → List Text → List Place
  | _, [] => []
  | p, name :: rest => p :: (p.step name).passed rest

/-- The place that a walk from `p` along `names` ends at. -/
def reached (p : Place) (names : List Text) : Place := names.foldl step p

end Place

/-- A path, as the walk that it stands for. -/
structure Path where
  /-- Where the walk starts. -/
  start : Place
  /-- The names to walk. -/
  names : List Text
  deriving DecidableEq, Repr

/-- The path that a text writes, with `/` between its names and at its start if it starts at the root. -/
def Path.ofText : Text → Path
  | Byte.slash :: rest => ⟨.root, Text.splitAll Byte.slash rest⟩
  | s => ⟨.here, Text.splitAll Byte.slash s⟩

/-- The documents within reach of a program, and the folders that it can walk through. -/
structure Directory where
  /-- The documents, the latest first. -/
  documents : List (Place × Document)
  /-- The folders, apart from those that walks start at. -/
  folders : List Place

namespace Directory

/-- The directory without documents. -/
def empty : Directory := ⟨[], []⟩

/-- The directory without documents is written `∅`. -/
instance : EmptyCollection Directory := ⟨empty⟩

/-- The directory without documents stands in for one that is not there. -/
instance : Inhabited Directory := ⟨empty⟩

/-- Whether a walk can go on from `p`. -/
def isFolder (d : Directory) (p : Place) : Bool := p.names.isEmpty || d.folders.contains p

/-- Makes the folders on the way to `path`. -/
def makeWay (d : Directory) (path : Text) : Directory :=
  let path := Path.ofText path
  { d with folders := path.start.passed path.names ++ d.folders }

/-- Puts `document` at `path`. -/
def add (d : Directory) (path : Text) (document : Document) : Directory :=
  let place := (Path.ofText path).start.reached (Path.ofText path).names
  { d.makeWay path with documents := (place, document) :: d.documents }

/-- The directory of `documents` at their paths. -/
def ofList (documents : List (Text × Document)) : Directory :=
  documents.foldl (fun d entry => d.add entry.1 entry.2) ∅

/-- The document at `path`, which is `.missing` where a walk does not lead there. -/
def find (d : Directory) (path : Text) : Document :=
  let path := Path.ofText path
  if (path.start.passed path.names).all d.isFolder then
    (d.documents.lookup (path.start.reached path.names)).getD .missing
  else .missing

end Directory

end OpCycle
