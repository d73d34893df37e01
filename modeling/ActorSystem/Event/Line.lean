import ActorSystem.Event

/-!
# Events on a line

An event is shown on one line: its level, its title, and its fields as they are.
-/

namespace ActorSystem.Event

/-- The event on a line, without the time at which it happened. -/
def line (e : Event) : String :=
  " ".intercalate (e.level.name :: e.title :: e.fields.map fun (k, v) => s!"{k}={v}")

end ActorSystem.Event
