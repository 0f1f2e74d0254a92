import Upkeep.Config.Error
import Upkeep.Config.FileState
import Upkeep.Dict

/-!
This module contains a disk: files and directories, what paths lead to, and how all this changes.
Files are kept in one directory of the disk, which paths call `$DIR`. Each directory has a number
that it keeps wherever it is moved, so that those who watch it can be told what happens to it.
-/

namespace Upkeep.Config

/--
A file with its bytes, a directory with its number, or a device, which has nothing to read.
-/
inductive DiskNode where
  | file (bytes : List UInt8)
  | directory (number : Nat)
  | device
  deriving DecidableEq, Inhabited

/--
A place on a disk: the names on the way from the root to it.
-/
abbrev Place := List String

/--
What is at which place. `next` is the number of the next directory.
-/
structure Disk where
  nodes : Dict Place DiskNode
  next : Nat
  deriving Inhabited

/--
A change of the disk by somebody else.
-/
inductive DiskChange where
  | write (path : String) (bytes : List UInt8)
  | delete (path : String)
  | makeDirectory (path : String)
  | move (path target : String)

/--
What those who watch a directory are told: something happened to an entry of it, or to the directory
itself.
-/
structure DiskNotice where
  directory : Nat
  entry : Option String
  kind : NoticeKind
  deriving DecidableEq, Inhabited

namespace Disk

/--
What paths call the directory of the files.
-/
def root : String := "$DIR"

/--
The place of the directory of the files.
-/
def home : Place := ["tmp", root]

/--
The place where paths begin that begin neither with a slash nor with the directory of the files.
-/
def workplace : Place := ["work"]

/--
The directories that are there from the start. The first is the root of the disk.
-/
def directories : List Place :=
  [[], home, workplace] ++
    (["bin", "boot", "dev", "etc", "home", "lib", "media", "mnt", "opt", "proc", "root", "run",
      "sbin", "srv", "sys", "tmp", "usr", "var"].map fun name => [name])

def empty : Disk :=
  { nodes := Dict.ofList
      ((directories.zipIdx.map fun d => (d.1, DiskNode.directory d.2)) ++
        [(["dev", "null"], DiskNode.device)])
    next := directories.length }

/--
A path inside the directory of the files. A path that begins with a slash stays what it is.
-/
def pathOf (path : String) : String := if path.startsWith "/" then path else root ++ "/" ++ path

/--
The longest name of an entry, in bytes.
-/
def maxName : Nat := 255

/--
The longest path, in bytes.
-/
def maxPath : Nat := 4095

/--
How many bytes the real path of the directory of the files takes.
-/
def homeLength : Nat := 15

/--
What stands between the slashes of a path.
-/
def pieces : List Char → List (List Char)
  | [] => [[]]
  | c :: cs =>
    match pieces cs with
    | [] => [[c]]
    | piece :: rest => if c = '/' then [] :: piece :: rest else (c :: piece) :: rest

/--
Where a path begins, and the names on the way from there.
-/
def route (path : String) : Place × List String :=
  match (pieces path.toList).map String.ofList with
  | [] => ([], [])
  | first :: rest =>
    if first = "" then ([], rest)
    else if first = root then (home, rest)
    else (workplace, first :: rest)

/--
The length of a path, in bytes.
-/
def pathLength (path : String) : Nat :=
  if (route path).1 = home then path.utf8ByteSize - root.utf8ByteSize + homeLength
  else path.utf8ByteSize

/--
Follows names from a place. All but the last have to exist, and what names are looked up in has to
be a directory. Above the root is the root.
-/
def walk (d : Disk) : Place → List String → Except Fault Place
  | place, [] => .ok place
  | place, name :: rest =>
    match d.nodes.get? place with
    | none => .error .notFound
    | some (.directory _) =>
      if name = "" || name = "." then d.walk place rest
      else if name = ".." then d.walk place.dropLast rest
      else if maxName < name.utf8ByteSize then .error .invalidName
      else d.walk (place ++ [name]) rest
    | some _ => .error .notDirectory

/--
The place that a path leads to. There need not be anything there.
-/
def place (d : Disk) (path : String) : Except Fault Place :=
  if path.toList.contains '\x00' then .error .invalidPath
  else if path.isEmpty then .error .notFound
  else if maxPath < pathLength path then .error .invalidName
  else
    let (start, names) := route path
    d.walk start names

def lookup (d : Disk) (path : String) : Except Fault DiskNode :=
  match d.place path with
  | .ok p =>
    match d.nodes.get? p with
    | some n => .ok n
    | none => .error .notFound
  | .error e => .error e

def read (d : Disk) (path : String) : Except Fault String :=
  match d.lookup path with
  | .ok (.file bytes) =>
    match String.fromUTF8? bytes.toByteArray with
    | some s => .ok s
    | none => .error .notText
  | .ok (.directory _) => .error .isDirectory
  | .ok .device => .ok ""
  | .error e => .error e

/--
Reads the text of a file after a look at whether it is one.
-/
def readFile (d : Disk) (path : String) : Except ConfigError String :=
  match d.lookup path with
  | .ok (.directory _) | .ok .device => .error (.notAFile path)
  | _ =>
    match d.read path with
    | .ok s => .ok s
    | .error e => .error (.io path e)

def number? (d : Disk) (place : Place) : Option Nat :=
  match d.nodes.get? place with
  | some (.directory n) => some n
  | _ => none

/--
The last of some names, if it is the name of an entry.
-/
def entryName? (names : List String) : Option String :=
  match names.getLast? with
  | some name => if name = ".." || name = "." then none else some name
  | none => none

/--
The entry of a directory that a path speaks of.
-/
structure Entry where
  directory : Nat
  directoryName : Option String
  name : String
  deriving DecidableEq, Inhabited

/--
What comes of registering for what happens to an entry: which one it is, or what was said against
it.
-/
abbrev Registration := Except String Entry

/--
The entry that a path speaks of: the number of the directory, what the path calls the directory, and
the name of the entry there.
-/
def entry? (d : Disk) (path : String) : Option Entry :=
  let (start, names) := route path
  let names := names.filter fun n => n ≠ "" && n ≠ "."
  match entryName? names, d.walk start names.dropLast with
  | some name, .ok place =>
    (d.number? place).map fun directory =>
      ⟨directory, entryName? (start ++ names.dropLast), name⟩
  | _, _ => none

/--
Registers for what happens to the entry that a path speaks of. Its directory has to be there.
-/
def register (d : Disk) (path : String) : Registration :=
  match d.entry? path with
  | some entry => .ok entry
  | none => .error "No path was found."

/--
The place at which a path makes, moves or deletes something, and whether a slash says that it has to
be a directory.
-/
def slot? (d : Disk) (path : String) : Option (Place × Bool) :=
  if path.toList.contains '\x00' || maxPath < pathLength path then none
  else
    let (start, names) := route path
    let kept := (names.reverse.dropWhile (· = "")).reverse
    match entryName? kept, d.walk start kept.dropLast with
    | some name, .ok place =>
      if (d.number? place).isSome && name.utf8ByteSize ≤ maxName then
        some (place ++ [name], kept.length < names.length)
      else none
    | _, _ => none

def entryNotice (d : Disk) (place : Place) (kind : NoticeKind) : List DiskNotice :=
  (d.number? place.dropLast).toList.map fun n => ⟨n, place.getLast?, kind⟩

/--
What is told about the directory at a place itself, if there is one.
-/
def selfNotice (d : Disk) (place : Place) (kind : NoticeKind) : List DiskNotice :=
  (d.number? place).toList.map fun n => ⟨n, none, kind⟩

/--
What is told about the deletion of what is at a place.
-/
def removal (d : Disk) (place : Place) : List DiskNotice :=
  d.entryNotice place .removed ++ d.selfNotice place .removed

/--
Whether a place is another one or lies below it.
-/
def isWithin (place other : Place) : Bool := other.isPrefixOf place

/--
Puts a place before those that do not lie deeper.
-/
def insertByDepth (place : Place) : List Place → List Place
  | [] => [place]
  | p :: rest =>
    if p.length ≤ place.length then place :: p :: rest else p :: insertByDepth place rest

/--
Everything at a place and below it, what lies deepest first.
-/
def within (d : Disk) (place : Place) : List Place :=
  (d.nodes.keys.filter (isWithin · place)).foldr insertByDepth []

def isBare (d : Disk) (place : Place) : Bool := (d.within place).length ≤ 1

/--
Takes everything at a place and below it away.
-/
def prune (d : Disk) (place : Place) : Disk :=
  { d with nodes := (d.within place).foldl Dict.erase d.nodes }

/--
Takes everything at a place and below it to another place.
-/
def graft (d : Disk) (place target : Place) : Disk :=
  let moved := (d.within place).filterMap fun p =>
    (d.nodes.get? p).map fun n => (target ++ p.drop place.length, n)
  let rest := ((d.prune place).prune target).nodes
  { d with nodes := moved.foldl (fun nodes e => nodes.insert e.1 e.2) rest }

/--
Whether what is at one place may be moved to another. A file does not take the place of a directory,
nor a directory that of a file or of a directory that is not empty.
-/
def canMove (d : Disk) (place target : Place) : Bool :=
  match d.nodes.get? place, d.nodes.get? target with
  | some (.file _), some (.file _) | some (.file _), none => true
  | some (.directory _), none => !isWithin target place
  | some (.directory _), some (.directory _) => !isWithin target place && d.isBare target
  | _, _ => false

/--
Moves what is at a place. One who watches the directory that is moved, or the empty directory whose
place it takes, is told so.
-/
def move (d : Disk) (place target : Place) : Disk × List DiskNotice :=
  if d.canMove place target && place ≠ target then
    (d.graft place target,
      d.entryNotice place .written ++ d.entryNotice target .written ++
        d.selfNotice target .written ++ d.selfNotice place .written ++
        d.selfNotice target .removed)
  else
    (d, [])

/--
Changes the disk, if that can be done. Gives what those who watch directories are told.
-/
def change (d : Disk) : DiskChange → Disk × List DiskNotice
  | .write path bytes =>
    match d.slot? path with
    | some (p, false) =>
      if (d.number? p).isNone then
        ({ d with nodes := d.nodes.insert p (.file bytes) }, d.entryNotice p .written)
      else
        (d, [])
    | _ => (d, [])
  | .delete path =>
    match d.slot? path with
    | some (p, slashed) =>
      match d.nodes.get? p with
      | some (.file _) => if slashed then (d, []) else (d.prune p, d.removal p)
      | some (.directory _) => (d.prune p, (d.within p).flatMap d.removal)
      | _ => (d, [])
    | none => (d, [])
  | .makeDirectory path =>
    match d.slot? path with
    | some (p, _) =>
      if (d.nodes.get? p).isNone then
        ({ nodes := d.nodes.insert p (.directory d.next), next := d.next + 1 },
          d.entryNotice p .written)
      else
        (d, [])
    | none => (d, [])
  | .move path target =>
    match d.slot? path, d.slot? target with
    | some (p, slashed), some (q, targetSlashed) =>
      if (slashed || targetSlashed) && (d.number? p).isNone then (d, []) else d.move p q
    | _, _ => (d, [])

end Disk

end Upkeep.Config
