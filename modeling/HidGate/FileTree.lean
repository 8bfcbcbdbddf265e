import HidGate.Fault

/-!
# Paths

A small tree of files, and what a path in it leads to. A path is followed one part at a time: each part but
the last has to be a folder, and so has the last if a slash follows it.
-/

namespace HidGate

/-- What stands at a path. A pipe may hold packets already. -/
inductive Place
  | folder
  | regular (content : Bytes)
  | fifo (packets : List Bytes)
  | null
  | zero
  | full
  deriving DecidableEq, Repr

def Place.bytes : Place → Except SystemError Bytes
  | .folder => .error (.code Errno.isDirectory)
  | .regular content => .ok content
  | _ => .ok []

/-- Files by their absolute paths, and the folder that relative paths start from. -/
structure FileTree where
  current : List String
  places : List (List String × Place)

namespace FileTree

def longestPath : Nat := 4095
def longestPart : Nat := 255

def rootFolders : List String :=
  ["bin", "dev", "etc", "home", "lib", "opt", "proc", "root", "run", "sbin", "sys", "tmp", "usr", "var"]

def deviceFiles : List (String × Place) := [("null", .null), ("zero", .zero), ("full", .full)]

def around (files : List (String × Place)) : FileTree :=
  let current := ["tmp", "work"]
  ⟨current, ([], .folder) :: (current, .folder) :: rootFolders.map (fun name => ([name], .folder))
    ++ deviceFiles.map (fun (name, place) => (["dev", name], place))
    ++ files.map fun (name, place) => (current ++ [name], place)⟩

def walk (t : FileTree) : List String → List String → Except Int Place
  | here, [] =>
    match t.places.lookup here with
    | some place => .ok place
    | none => .error Errno.notFound
  | here, part :: rest =>
    match t.places.lookup here with
    | none => .error Errno.notFound
    | some .folder =>
      if part = "" ∨ part = "." then walk t here rest
      else if part = ".." then walk t here.dropLast rest
      else if longestPart < part.utf8ByteSize then .error Errno.nameTooLong
      else walk t (here ++ [part]) rest
    | some _ => .error Errno.notDirectory

def zeroInPath : SystemError := .text "file name contained an unexpected NUL byte"

def find (t : FileTree) (path : String) : Except SystemError Place :=
  if path.toList.contains '\x00' then .error zeroInPath
  else if path.isEmpty then .error (.code Errno.notFound)
  else if longestPath < path.utf8ByteSize then .error (.code Errno.nameTooLong)
  else (walk t (if path.startsWith "/" then [] else t.current) (path.splitOn "/")).mapError .code

def read (t : FileTree) (path : String) : Except SystemError Bytes := (t.find path).bind Place.bytes

end FileTree

end HidGate
