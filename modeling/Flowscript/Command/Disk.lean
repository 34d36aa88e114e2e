import Flowscript.Command.Places
import Flowscript.Index

/-!
# Disks

A disk in memory: what the command reads from and writes to when it is run without a real one. The
command works in one directory of it. A path is followed name by name, and each name but the last
must lead to a directory, also where the next is `..`; so a path fails at its first name that leads
nowhere. A file that is written need not exist, but a slash behind its name asks for a directory.
-/

namespace Flowscript.Command

/-- Why a file cannot be read or written. -/
inductive FileError where
  | notFound
  | permissionDenied
  | notDirectory
  | isDirectory
  | noSpace
  | nameTooLong
  | nulInName
  | notText
deriving DecidableEq, Repr

def FileError.message : FileError → String
  | .notFound => "No such file or directory (os error 2)"
  | .permissionDenied => "Permission denied (os error 13)"
  | .notDirectory => "Not a directory (os error 20)"
  | .isDirectory => "Is a directory (os error 21)"
  | .noSpace => "No space left on device (os error 28)"
  | .nameTooLong => "File name too long (os error 36)"
  | .nulInName => "file name contained an unexpected NUL byte"
  | .notText => "stream did not contain valid UTF-8"

/-- A disk: the directory that the command works in, all files with text, and what else the system
has. -/
structure Disk where
  home : Place := ["tmp", "work"]
  files : List (Place × String) := []
  system : List (Place × Entry) := []
deriving DecidableEq, Repr

namespace Disk

/-- The disk with a file written. -/
def write (d : Disk) (place : Place) (content : String) : Disk :=
  { d with files := put place content d.files }

/-- The disk with these files written in the directory that the command works in. -/
def withFiles (d : Disk) (files : List (String × String)) : Disk :=
  files.foldl (fun d (path, content) => d.write (d.home ++ Place.names path) content) d

/-- What stands at a place. A directory stands at the root and wherever a file lies below. -/
def entry? (d : Disk) (place : Place) : Option Entry :=
  match d.files.lookup place with
  | some content => some (.text content)
  | none =>
    if place.isPrefixOf d.home ∨ d.files.any fun (file, _) => place.isPrefixOf file then
      some .directory
    else
      d.system.lookup place

/-! ## Following paths -/

/-- The longest path, in bytes. -/
def maxPath : Nat :=
  4095

/-- The longest name in a path, in bytes. -/
def maxName : Nat :=
  255

/-- Whether no entry can have this name. -/
def isTooLong (name : String) : Bool :=
  maxName < Text.width name.toList

/-- What is wrong with a path before any of its names is looked at. -/
def checkPath (path : String) : Except FileError Unit :=
  if path.toList.contains '\x00' then
    .error .nulInName
  else if path = "" then
    .error .notFound
  else if maxPath < Text.width path.toList then
    .error .nameTooLong
  else
    .ok ()

/-- A place where a directory stands. -/
def enter (d : Disk) (place : Place) : Except FileError Place :=
  match d.entry? place with
  | some .directory => .ok place
  | some _ => .error .notDirectory
  | none => .error .notFound

/-- Follows one name from a place, where a directory must stand. The root is its own parent. -/
def step (d : Disk) (place : Place) (name : String) : Except FileError Place := do
  let place ← d.enter place
  if name = "" ∨ name = "." then
    return place
  else if name = ".." then
    return place.dropLast
  else if isTooLong name then
    throw .nameTooLong
  else
    return place ++ [name]

/-- Where a path starts: at the root, or in the directory that the command works in. -/
def start (d : Disk) (path : String) : Place :=
  if path.toList.head? = some '/' then [] else d.home

/-- The place that these names lead to. Nothing need stand there. -/
def follow (d : Disk) (place : Place) (names : List String) : Except FileError Place :=
  names.foldlM d.step place

/-! ## Reading and writing -/

/-- Reads a file. -/
def read (d : Disk) (path : String) : Except FileError String := do
  checkPath path
  let place ← d.follow (d.start path) (Place.names path)
  match d.entry? place with
  | some (.text content) => return content
  | some (.device _) => return ""
  | some .directory => throw .isDirectory
  | some .program => throw .notText
  | none => throw .notFound

/-- Where something can be written. -/
inductive Outlet where
  | file (place : Place)
  | device (d : Device)
deriving DecidableEq, Repr

/-- What can be written to under this name in a directory. -/
def outletIn (d : Disk) (parent : Place) (name : String) : Except FileError Outlet :=
  if isTooLong name then
    .error .nameTooLong
  else
    match d.entry? (parent ++ [name]) with
    | none => .ok (.file (parent ++ [name]))
    | some (.text _) => .ok (.file (parent ++ [name]))
    | some (.device device) => .ok (.device device)
    | some .directory => .error .isDirectory
    | some .program => .error .permissionDenied

/-- What a path leads to for writing. -/
def outlet (d : Disk) (path : String) : Except FileError Outlet := do
  checkPath path
  match (Place.names path).reverse.dropWhile (· = "") with
  | [] => throw .isDirectory
  | last :: before =>
    if last = "." ∨ last = ".." then
      let _ ← d.follow (d.start path) (Place.names path)
      throw .isDirectory
    else
      let parent ← d.enter (← d.follow (d.start path) before.reverse)
      if path.toList.getLast? = some '/' then throw .isDirectory else d.outletIn parent last

/-! ## The directory that the command works in -/

/-- The files in the directory that the command works in, with their paths from there. -/
def toList (d : Disk) : List (String × String) :=
  d.files.filterMap fun (place, content) =>
    if d.home.isPrefixOf place then
      some (String.intercalate "/" (place.drop d.home.length), content)
    else
      none

/-- The files in that directory that are new or have another content than before. -/
def changes (before after : Disk) : List (String × String) :=
  after.toList.filter fun file => !before.toList.contains file

end Disk

end Flowscript.Command
