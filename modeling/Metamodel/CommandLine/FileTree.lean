/-!
# Files by their paths

A tree of files with a working folder.  A path is walked name by name, from the root if it starts with a slash and from
the working folder otherwise; every name has to be entered from a folder, so that a slash after the path of a file fails
as well.
-/

namespace Metamodel.CommandLine

/-- Why a file cannot be read. -/
inductive ReadFailure where
  | missing | forbidden | notFolder | isFolder | nameTooLong | notText
  | other (reason : String)
deriving DecidableEq

/-- The reason as the system says it. -/
def ReadFailure.message : ReadFailure → String
  | missing => "No such file or directory (os error 2)"
  | forbidden => "Permission denied (os error 13)"
  | notFolder => "Not a directory (os error 20)"
  | isFolder => "Is a directory (os error 21)"
  | nameTooLong => "File name too long (os error 36)"
  | notText => "stream did not contain valid UTF-8"
  | other reason => reason

/-- Files with their contents, and folders, all by the names on the way from the root. -/
structure FileTree where
  files : List (List String × String)
  folders : List (List String)
  workingFolder : List String

namespace FileTree

/-- Where a walk along a path stands. -/
inductive Place where
  | folder (names : List String)
  | file (text : String)
deriving DecidableEq

/-- A folder is listed, or lies on the way to a folder or file. -/
def isFolder (t : FileTree) (names : List String) : Bool :=
  names.isPrefixOf t.workingFolder || t.folders.any names.isPrefixOf || t.files.any fun f => names.isPrefixOf f.1

/-- The longest name, in bytes. -/
def longestName : Nat := 255

/-- The longest path, in bytes. -/
def longestPath : Nat := 4095

/-- The place that a name leads to. -/
def enter (t : FileTree) (name : String) : Place → Except ReadFailure Place
  | .file _ => .error .notFolder
  | .folder names =>
    if name = "" ∨ name = "." then .ok (.folder names)
    else if name = ".." then .ok (.folder names.dropLast)
    else if longestName < name.utf8ByteSize then .error .nameTooLong
    else match t.files.lookup (names ++ [name]) with
      | some text => .ok (.file text)
      | none => if t.isFolder (names ++ [name]) then .ok (.folder (names ++ [name])) else .error .missing

def walk (t : FileTree) : List String → Place → Except ReadFailure Place
  | [], place => .ok place
  | name :: names, place => (t.enter name place).bind (t.walk names)

/-- The place that a path leads to. -/
def find (t : FileTree) (path : String) : Except ReadFailure Place :=
  if path.isEmpty then .error .missing
  else if longestPath < path.utf8ByteSize then .error .nameTooLong
  else t.walk (path.splitOn "/") (.folder (if path.startsWith "/" then [] else t.workingFolder))

/-- The contents of the file that a path leads to. -/
def read (t : FileTree) (path : String) : Except ReadFailure String :=
  match t.find path with
  | .ok (.file text) => .ok text
  | .ok (.folder _) => .error .isFolder
  | .error e => .error e

/-- The folders that every system has at its root. -/
def rootFolders : List String :=
  ["bin", "dev", "etc", "home", "lib", "media", "mnt", "opt", "proc", "root", "run", "sbin", "srv", "sys", "tmp", "usr",
    "var"]

/-- A working folder with these files, in a system that holds nothing else but the empty device. -/
def ofFiles (files : List (String × String)) : FileTree where
  files := (["dev", "null"], "") ::
    files.map fun (path, text) => (["tmp", "work"] ++ (path.splitOn "/").filter (fun name => name ≠ "" ∧ name ≠ "."), text)
  folders := rootFolders.map ([·])
  workingFolder := ["tmp", "work"]

end FileTree

end Metamodel.CommandLine
