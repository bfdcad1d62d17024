import Diagnostics.Capability.Lookup
import Diagnostics.Problem.Draft

/-!
# Sessions with a registry

Runs of steps on a registry, with the journal of each step. Values to look capabilities up for
arrive as drafts; a draft that cannot be built is the fault of its step, and nothing is looked up.
-/
namespace Diagnostics.Capability

/-- A value for which a capability is looked up, as a producer hands it over. -/
inductive Subject where
  | problem (draft : Problem.Draft)
  | location (draft : Location.Draft)
  | severity (grade : Severity)
  | integer (n : Int32)
  | text (words : String)
  deriving DecidableEq, Repr

def Subject.build : Subject → Except Fault View
  | .problem draft => return ⟨.problem, ← draft.build⟩
  | .location draft => return ⟨.location, ← draft.build⟩
  | .severity grade => .ok ⟨.severity, grade⟩
  | .integer n => .ok ⟨.integer, n⟩
  | .text words => .ok ⟨.text, words⟩

namespace Session

inductive Step where
  /-- File a provider under the type it takes. -/
  | register (id : String) (provider : Provider)
  | has (type : ValueType) (id : String)
  | unregister (type : ValueType) (id : String)
  | resolve (subject : Subject) (id : String)
  | clear

/-- What a step answers. -/
inductive Reply where
  | done
  | flag (value : Bool)
  | number (value : Nat)
  | resolution (value : Resolution)
  | fault (fault : Fault)

/-- Carries a step out, with lookups nested at most `bound` deep. -/
def step (bound : Nat) (r : Registry) : Step → Option (Outcome Reply)
  | .register id provider =>
      let done := r.register id provider
      some ⟨.done, done.after, done.journal⟩
  | .has type id =>
      let done := r.query type id
      some ⟨.flag done.value, done.after, done.journal⟩
  | .unregister type id =>
      let done := r.unregister type id
      some ⟨.number done.value, done.after, done.journal⟩
  | .resolve subject id =>
      match subject.build with
      | .ok view => do
          let done ← resolve bound view.type view.value id r
          return ⟨.resolution done.value, done.after, done.journal⟩
      | .error fault => some ⟨.fault fault, r, []⟩
  | .clear =>
      let done := r.clear
      some ⟨.done, done.after, done.journal⟩

/-- The outcome of each step of a run, or `none` if a lookup goes too deep. -/
def run (bound : Nat) (r : Registry) : List Step → Option (List (Outcome Reply))
  | [] => some []
  | action :: rest => do
      let first ← step bound r action
      let others ← run bound first.after rest
      return first :: others

/-- Either a value was built and looked up, or its fault is all there is. -/
theorem step_resolve_eq_some {bound : Nat} {r : Registry} {subject : Subject} {id : String}
    {outcome : Outcome Reply} :
    step bound r (.resolve subject id) = some outcome ↔
      (∃ view, subject.build = .ok view ∧
        ∃ found, resolve bound view.type view.value id r = some found ∧
          ⟨.resolution found.value, found.after, found.journal⟩ = outcome) ∨
      ∃ fault, subject.build = .error fault ∧ ⟨.fault fault, r, []⟩ = outcome := by
  simp only [step]
  cases subject.build with
  | ok view => simp [Option.bind_eq_some_iff]
  | error fault => simp

theorem run_cons_eq_some {bound : Nat} {r : Registry} {action : Step} {rest : List Step}
    {outcomes : List (Outcome Reply)} :
    run bound r (action :: rest) = some outcomes ↔
      ∃ first, step bound r action = some first ∧
        ∃ others, run bound first.after rest = some others ∧ first :: others = outcomes := by
  simp only [run, Option.bind_eq_bind, Option.bind_eq_some_iff, Option.pure_def,
    Option.some.injEq]

/-- How deep lookups may nest where nothing else is said. -/
def usualBound : Nat := 10000

end Session
end Diagnostics.Capability
