import ActorSystem.Config.File

/-!
# A machine without files

What comes of reading a file on a machine that has the usual directories at the root of its file
tree, and in them nothing but the null device, from which there is nothing to read. Relative
paths start in one of the directories.
-/

namespace ActorSystem.Bench

def directories : List String :=
  ["bin", "dev", "etc", "home", "lib", "mnt", "opt", "proc", "root", "run", "sbin", "srv", "sys",
    "tmp", "usr", "var"]

/-- The longest part of a path, in bytes. -/
def longestName : Nat := 255

/-- The longest path, in bytes. -/
def longestPath : Nat := 4095

/-- Where the null device is, the innermost name first. -/
def nullDevice : List String := ["null", "dev"]

/-- Follows the parts of a path from a directory, whose innermost name is first, and reads what is
there. -/
def follow : List String → List String → Except ReadFailure ByteArray
  | _, [] => .error .isDirectory
  | place, step :: rest =>
    if step = "" ∨ step = "." then follow place rest
    else if step = ".." then follow (place.drop 1) rest
    else if longestName < step.utf8ByteSize then .error .nameTooLong
    else if step :: place = nullDevice then
      if rest = [] then .ok .empty else .error .notADirectory
    else if place = [] ∧ step ∈ directories then follow [step] rest
    else .error .notFound

/-- What is in the file with this path. -/
def contentsAt (path : String) : Except ReadFailure ByteArray :=
  if path.contains '\x00' then .error .zeroInPath
  else if path = "" then .error .notFound
  else if longestPath < path.utf8ByteSize then .error .nameTooLong
  else follow (if path.startsWith "/" then [] else ["tmp"]) (path.splitOn "/")

end ActorSystem.Bench
