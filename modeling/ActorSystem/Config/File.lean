import ActorSystem.Config.Document
import ActorSystem.Event

/-!
# Settings in a file

What was read from a file, or why it could not be read, becomes settings or an error. The error
of a file that cannot be read starts with its path; the errors of its text do not mention it.

* `ofFile_error`: a file that cannot be read gives no settings.
-/

namespace ActorSystem

inductive ReadFailure where
  | notFound
  | isDirectory
  | notADirectory
  | nameTooLong
  /-- The path has a character with code zero, which no path may have. -/
  | zeroInPath
  /-- Any other reason, in words. -/
  | other (reason : String)
  deriving DecidableEq

namespace ReadFailure

def message : ReadFailure → String
  | notFound => "No such file or directory (os error 2)"
  | isDirectory => "Is a directory (os error 21)"
  | notADirectory => "Not a directory (os error 20)"
  | nameTooLong => "File name too long (os error 36)"
  | zeroInPath => "file name contained an unexpected NUL byte"
  | other reason => reason

end ReadFailure

namespace Config

def notText : String := "stream did not contain valid UTF-8"

def unreadable (path reason : String) : Error := .config s!"{path}: {reason}"

def ofFile (path : String) (contents : Except ReadFailure ByteArray) : Except Error Config :=
  match contents with
  | .error e => .error (unreadable path e.message)
  | .ok bytes =>
    match String.fromUTF8? bytes with
    | none => .error (unreadable path notText)
    | some text => ofText text

theorem ofFile_error (path : String) (e : ReadFailure) :
    ofFile path (.error e) = .error (.config (path ++ ": " ++ e.message)) := rfl

end Config

end ActorSystem
