import ActorSystem.Bench.Files
import ActorSystem.Bench.Live
import ActorSystem.Bench.LockSession
import ActorSystem.Main
import ActorSystem.Proofs.Reach.Reachable
import ActorSystem.Proofs.Crew.Mail
import ActorSystem.Proofs.Crew.Table
import ActorSystem.Proofs.Crew.Newcomers
import ActorSystem.Proofs.Office.Dependable
import ActorSystem.Proofs.Lock.Protected
import ActorSystem.Proofs.Lock.Crowding
import ActorSystem.Proofs.Roles.Counter
import ActorSystem.Proofs.Roles.Mock
import ActorSystem.Proofs.Roles.Schedule
import ActorSystem.Proofs.Shift.Deadlock
import ActorSystem.Proofs.Shift.Wakeup
import ActorSystem.Proofs.Crew.Teardown
import ActorSystem.Proofs.Identity.Unique
import ActorSystem.Proofs.Identity.Dismissal
import ActorSystem.Proofs.Identity.Range
import ActorSystem.Proofs.Identity.Freshness
import ActorSystem.Proofs.Sweep.Bounded
import ActorSystem.Proofs.Sweep.Consumption
import ActorSystem.Proofs.Sweep.Strategies
import ActorSystem.Proofs.Sweep.Skips
import ActorSystem.Proofs.Sweep.Course
import ActorSystem.Proofs.Sweep.Handoff
