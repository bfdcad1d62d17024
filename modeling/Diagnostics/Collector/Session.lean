import Diagnostics.Collector
import Diagnostics.Problem.Draft
import Diagnostics.Severity.Draft

/-!
# Sessions with a collector

Runs of steps on a collector and a saved copy of it. Problems and masks arrive as drafts; a step
with a draft that cannot be built reports the fault and leaves both collectors as they were.
-/
namespace Diagnostics.Collector

structure Session where
  collector : Collector
  /-- The copy made by the last `save`. -/
  saved : Collector
  deriving DecidableEq

namespace Session

def start : Session := ⟨∅, ∅⟩

inductive Step where
  | report (problem : Problem.Draft)
  /-- Report a problem given by its parts. -/
  | state (severity : Severity) (location : Location.Draft) (message : String)
  | extend (problems : List Problem.Draft)
  | clearModule (moduleName : String)
  | list
  | filter (mask : Mask.Draft)
  | count (mask : Mask.Draft)
  | hasErrors
  | size
  | isEmpty
  | take
  | emit
  | save
  /-- Exchange the collector and the saved copy. -/
  | swap
  deriving DecidableEq, Repr

/-- What a step answers. -/
inductive Reply where
  | done
  | flag (value : Bool)
  | number (value : Nat)
  | problems (list : List Problem)
  | events (list : List Event)
  deriving DecidableEq, Repr

def onCollector (s : Session) (after : Collector) : Session := { s with collector := after }

/-- The session after a step and the step's answer. All drafts are built before anything else. -/
def apply (s : Session) : Step → Except Fault (Session × Reply)
  | .report draft => do
      let (after, added) := s.collector.report (← draft.build)
      return (s.onCollector after, .flag added)
  | .state severity location message => do
      let (after, added) := s.collector.report (.stated severity (← location.build) message)
      return (s.onCollector after, .flag added)
  | .extend drafts => do
      let problems ← Problem.Draft.buildAll drafts
      return (s.onCollector (s.collector.extend problems), .done)
  | .clearModule moduleName =>
      let (after, dropped) := s.collector.clearModule moduleName
      return (s.onCollector after, .number dropped)
  | .list => return (s, .problems s.collector.problems)
  | .filter mask => return (s, .problems (s.collector.filter (← mask.build)))
  | .count mask => return (s, .number (s.collector.count (← mask.build)))
  | .hasErrors => return (s, .flag s.collector.hasErrors)
  | .size => return (s, .number s.collector.size)
  | .isEmpty => return (s, .flag s.collector.isEmpty)
  | .take =>
      let (after, taken) := s.collector.take
      return (s.onCollector after, .problems taken)
  | .emit => return (s, .events s.collector.emit)
  | .save => return ({ s with saved := s.collector }, .done)
  | .swap => return (⟨s.saved, s.collector⟩, .done)

/-- A step's answer, or its fault, and the collector after it. -/
structure Answer where
  reply : Except Fault Reply
  collector : Collector

/-- The session after a step and the answer; a fault leaves the session as it was. -/
def step (s : Session) (action : Step) : Session × Answer :=
  match s.apply action with
  | .ok (after, reply) => (after, ⟨.ok reply, after.collector⟩)
  | .error fault => (s, ⟨.error fault, s.collector⟩)

/-- The answers of a run. -/
def run (s : Session) : List Step → List Answer
  | [] => []
  | action :: rest => (s.step action).2 :: run (s.step action).1 rest

/-- The session at the end of a run. -/
def finish (s : Session) (steps : List Step) : Session :=
  steps.foldl (fun s action => (s.step action).1) s

end Session
end Diagnostics.Collector
