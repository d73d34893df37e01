import ActorSystem.Demo.Play

/-!
# The command line of the demo

The first argument, if there is one, is the path of a file with settings. The environment
variable `RUST_LOG` says which events are shown.
-/

namespace ActorSystem.CommandLine

open Demo

def failureOf : IO.Error → ReadFailure
  | .noFileOrDirectory .. => .notFound
  | .inappropriateType .. => .isDirectory
  | e => .other (toString e)

def readSettings (path : String) : IO File := do
  match ← (IO.FS.readBinFile path).toBaseIO with
  | .ok bytes => return ⟨path, .ok bytes⟩
  | .error e => return ⟨path, .error (failureOf e)⟩

/-- The sweeps of the demo are done one after another, as on one processor. -/
def processors : Nat := 1

end ActorSystem.CommandLine

open ActorSystem CommandLine in
def main (args : List String) : IO UInt32 := do
  let file ← args.head?.mapM readSettings
  let filter := (← IO.getEnv "RUST_LOG").getD ""
  let output := (Demo.run file processors).output filter
  for line in output.lines do IO.println line
  for complaint in output.complaints do IO.eprintln complaint
  return output.exit
