/-
# Paths

A path is written with slashes.  Doubled slashes and single dots say nothing and drop out; two dots
stay, since what they lead to depends on the disk.  A leading slash starts at the root, and exactly
two leading slashes are a root of their own.
-/
import SharpForms.Text

namespace SharpForms

/-- A path: where it starts, and its steps. -/
structure FilePath where
  root : Text
  steps : List Text
  deriving DecidableEq, Repr

namespace FilePath

/-- The parts of a text between slashes. -/
def parts : Text → List Text
  | [] => [[]]
  | '/' :: rest => [] :: parts rest
  | c :: rest =>
    match parts rest with
    | [] => [[c]]
    | p :: ps => (c :: p) :: ps

/-- A part that goes somewhere. -/
def isStep (part : Text) : Bool := !part.isEmpty && part != ['.']

/-- The root of a path with a given number of leading slashes. -/
def rootOf : Nat → Text
  | 0 => []
  | 2 => ['/', '/']
  | _ => ['/']

/-- Reads a path. -/
def ofText (t : Text) : FilePath :=
  ⟨rootOf (t.takeWhile (· == '/')).length, (parts t).filter isStep⟩

/-- Writes a path; the empty one is the directory itself. -/
def text (p : FilePath) : Text :=
  if p.root.isEmpty && p.steps.isEmpty then ['.']
  else p.root ++ List.intercalate ['/'] p.steps

end FilePath

/-- Files under one directory, by the steps that lead to them.  It stands for a disk where a run is
tried out without one. -/
structure Directory where
  files : List (List Text × ByteArray)

namespace Directory

/-- A file by its steps. -/
def file? (d : Directory) (steps : List Text) : Option ByteArray := d.files.lookup steps

/-- The steps lead to a directory: a file is somewhere below. -/
def hasDirectory (d : Directory) (steps : List Text) : Bool :=
  steps.isEmpty ||
    d.files.any fun f => steps.isPrefixOf f.1 && decide (steps.length < f.1.length)

/-- Follows steps from a directory, which is given by the steps that led there.  Two dots lead back
from a directory that exists, but not above the first one. -/
def follow (d : Directory) (reached : List Text) : List Text → Option ByteArray
  | [] => d.file? reached
  | step :: rest =>
    if step = ['.', '.'] then
      if reached.isEmpty || !d.hasDirectory reached then none
      else d.follow reached.dropLast rest
    else d.follow (reached ++ [step]) rest

/-- The file at a path that starts here. -/
def find? (d : Directory) (p : FilePath) : Option ByteArray :=
  if p.root.isEmpty then d.follow [] p.steps else none

end Directory

end SharpForms
