import LoadGenerator.Configuration.File

/-!
# A tree of files

Paths through folders, from the root or from a working folder, and the reasons why a path does not lead to a file. The parent of the root is the root itself.
-/

namespace LoadGenerator.Configuration

inductive FileTree where
  | file (content : List UInt8)
  | folder (entries : List (String × FileTree))

namespace FileTree

def noSuchFile : String := "No such file or directory (os error 2)"

def notADirectory : String := "Not a directory (os error 20)"

def isADirectory : String := "Is a directory (os error 21)"

def tooLongName : String := "File name too long (os error 36)"

def nullInName : String := "file name contained an unexpected NUL byte"

def longestName : Nat := 255

def longestPath : Nat := 4095

/-- What the names of a path lead to from a place below its ancestors, the nearest of which comes first. -/
def follow (ancestors : List FileTree) : FileTree → List String → Except String (List UInt8)
  | file content, [] => .ok content
  | file _, _ :: _ => .error notADirectory
  | folder _, [] => .error isADirectory
  | folder entries, name :: rest =>
    if name = "" ∨ name = "." then follow ancestors (folder entries) rest
    else if name = ".." then
      match ancestors with
      | [] => follow [] (folder entries) rest
      | parent :: more => follow more parent rest
    else if longestName < name.utf8ByteSize then .error tooLongName
    else
      match entries.lookup name with
      | none => .error noSuchFile
      | some place => follow (folder entries :: ancestors) place rest

/-- The files below a root as they are seen from the folder that these names lead to. -/
def files (root : FileTree) (working : List String) : Files := fun path =>
  if path.toList.contains '\x00' then .error nullInName
  else if path.isEmpty then .error noSuchFile
  else if longestPath < path.utf8ByteSize then .error tooLongName
  else root.follow [] ((if path.startsWith "/" then [] else working) ++ path.splitOn "/")

end FileTree

end LoadGenerator.Configuration
