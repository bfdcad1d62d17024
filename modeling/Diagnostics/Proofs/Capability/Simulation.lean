import Mathlib.Data.List.Forall2
import Diagnostics.Proofs.Capability.Chronicle

/-!
# Registries that cannot be told apart

Two registries may differ in what some kinds of acts never look at. If every single request of such
a kind is answered and recorded alike in both, and leaves two registries that differ no more than
before, then so is every lookup and every run of steps in which nothing of another kind is done.
What the registries have in common and which kinds of acts are meant is left open.
-/
namespace Diagnostics.Capability

/-- All acts of the journal are of a kind. -/
def Journal.All (kind : Act → Prop) (journal : Journal) : Prop := ∀ entry ∈ journal, kind entry.act

namespace Journal

variable {kind : Act → Prop} {past future : Journal}

theorem all_cons {entry : Entry} : All kind (entry :: future) ↔ kind entry.act ∧ future.All kind :=
  List.forall_mem_cons

theorem all_append : All kind (past ++ future) ↔ past.All kind ∧ future.All kind :=
  List.forall_mem_append

theorem all_deepen : All kind (past.map Entry.deepen) ↔ past.All kind :=
  List.forall_mem_map

end Journal

/-- The same result and the same journal, and registries that are still related. -/
structure Outcome.Matches (related : Registry → Registry → Prop) {α : Type} (o p : Outcome α) :
    Prop where
  value : o.value = p.value
  journal : o.journal = p.journal
  after : related o.after p.after

/-- Requests whose records are of a kind do not tell related registries apart. -/
structure Simulation (related : Registry → Registry → Prop) (kind : Act → Prop) : Prop where
  held {r s type id} : related r s → kind (.began type id (r.held type id)) →
    r.held type id = s.held type id
  query {r s type id} : related r s → (r.query type id).journal.All kind →
    (r.query type id).Matches related (s.query type id)
  register {r s id provider} : related r s → (r.register id provider).journal.All kind →
    (r.register id provider).Matches related (s.register id provider)
  unregister {r s type id} : related r s → (r.unregister type id).journal.All kind →
    (r.unregister type id).Matches related (s.unregister type id)
  clear {r s} : related r s → r.clear.journal.All kind → r.clear.Matches related s.clear
  keep {r s type serial change} : related r s → (r.keep type serial change).journal.All kind →
    (r.keep type serial change).Matches related (s.keep type serial change)

/-- A way to look up that does not tell related registries apart. -/
def Lookup.Simulated (related : Registry → Registry → Prop) (kind : Act → Prop) (lookup : Lookup) :
    Prop :=
  ∀ ⦃type value id r s outcome⦄, lookup type value id r = some outcome →
    outcome.journal.All kind → related r s →
    ∃ other, lookup type value id s = some other ∧ outcome.Matches related other

section Simulation

variable {related : Registry → Registry → Prop} {kind : Act → Prop}

theorem Outcome.Matches.behind {α : Type} {past before : Journal} {o p : Outcome α}
    (same : past = before) (alike : o.Matches related p) :
    (o.behind past).Matches related (p.behind before) :=
  ⟨alike.value, congrArg₂ (· ++ ·) same alike.journal, alike.after⟩

variable (simulation : Simulation related kind) {lookup : Lookup}
  (simulated : lookup.Simulated related kind)
include simulation simulated

theorem Script.run_simulated {keeper : ValueType} {serial : Nat} {gives : ValueType}
    (script : Script gives) {r s : Registry} {outcome : Outcome (Option gives.Carrier)}
    (done : script.run lookup keeper serial r = some outcome) (all : outcome.journal.All kind)
    (alike : related r s) :
    ∃ other, script.run lookup keeper serial s = some other ∧ outcome.Matches related other := by
  induction script generalizing r s with
  | answer view =>
    cases done
    exact ⟨⟨view, s, []⟩, rfl, rfl, rfl, alike⟩
  | has asked id next ih =>
    obtain ⟨rest, ran, rfl⟩ := behind_eq_some.mp done
    obtain ⟨here, onward⟩ := Journal.all_append.mp all
    have same := simulation.query alike here
    obtain ⟨other, again, alike⟩ := ih _ ran onward same.after
    rw [same.value] at again
    exact ⟨_, behind_eq_some.mpr ⟨other, again, rfl⟩, alike.behind same.journal⟩
  | resolve asked value id next ih =>
    obtain ⟨inner, found, onward⟩ := Option.bind_eq_some_iff.mp done
    obtain ⟨rest, ran, rfl⟩ := behind_eq_some.mp onward
    obtain ⟨inside, onward⟩ := Journal.all_append.mp all
    obtain ⟨second, refound, same⟩ := simulated found (Journal.all_deepen.mp inside) alike
    obtain ⟨other, again, alike⟩ := ih _ ran onward same.after
    rw [same.value] at again
    refine ⟨_, Option.bind_eq_some_iff.mpr ⟨second, refound, ?_⟩,
      alike.behind (congrArg _ same.journal)⟩
    exact behind_eq_some.mpr ⟨other, again, rfl⟩
  | register takes result id name run next _ ih =>
    obtain ⟨rest, ran, rfl⟩ := behind_eq_some.mp done
    obtain ⟨here, onward⟩ := Journal.all_append.mp all
    have same := simulation.register alike here
    obtain ⟨other, again, alike⟩ := ih ran onward same.after
    exact ⟨_, behind_eq_some.mpr ⟨other, again, rfl⟩, alike.behind same.journal⟩
  | unregister asked id next ih =>
    obtain ⟨rest, ran, rfl⟩ := behind_eq_some.mp done
    obtain ⟨here, onward⟩ := Journal.all_append.mp all
    have same := simulation.unregister alike here
    obtain ⟨other, again, alike⟩ := ih _ ran onward same.after
    rw [same.value] at again
    exact ⟨_, behind_eq_some.mpr ⟨other, again, rfl⟩, alike.behind same.journal⟩
  | clear next ih =>
    obtain ⟨rest, ran, rfl⟩ := behind_eq_some.mp done
    obtain ⟨here, onward⟩ := Journal.all_append.mp all
    have same := simulation.clear alike here
    obtain ⟨other, again, alike⟩ := ih ran onward same.after
    exact ⟨_, behind_eq_some.mpr ⟨other, again, rfl⟩, alike.behind same.journal⟩
  | keep change next ih =>
    obtain ⟨rest, ran, rfl⟩ := behind_eq_some.mp done
    obtain ⟨here, onward⟩ := Journal.all_append.mp all
    have same := simulation.keep alike here
    obtain ⟨other, again, alike⟩ := ih _ ran onward same.after
    rw [same.value] at again
    exact ⟨_, behind_eq_some.mpr ⟨other, again, rfl⟩, alike.behind same.journal⟩

theorem Registration.ask_simulated {asked : ValueType} {value : asked.Carrier}
    {registration : Registration} {r s : Registry} {outcome : Outcome Resolution}
    (done : registration.ask lookup asked value r = some outcome)
    (all : outcome.journal.All kind) (alike : related r s) :
    ∃ other, registration.ask lookup asked value s = some other ∧
      outcome.Matches related other := by
  by_cases takes : asked = registration.provider.takes
  · obtain ⟨own, ran, rfl⟩ := (Registration.ask_eq_some takes).mp done
    have onward := (Journal.all_cons.mp all).2
    obtain ⟨other, again, same⟩ :=
      Script.run_simulated simulation simulated _ ran onward alike
    exact ⟨_, (Registration.ask_eq_some takes).mpr ⟨other, again, rfl⟩,
      congrArg (Option.map _) same.value, congrArg (List.cons _) same.journal, same.after⟩
  · rw [Registration.ask_of_ne takes] at done ⊢
    cases done
    exact ⟨_, rfl, rfl, rfl, alike⟩

theorem askInTurn_simulated {asked : ValueType} {value : asked.Carrier}
    (candidates : List Registration) {r s : Registry} {outcome : Outcome Resolution}
    (done : askInTurn lookup asked value candidates r = some outcome)
    (all : outcome.journal.All kind) (alike : related r s) :
    ∃ other, askInTurn lookup asked value candidates s = some other ∧
      outcome.Matches related other := by
  induction candidates generalizing r s outcome with
  | nil =>
    cases done
    exact ⟨_, rfl, rfl, rfl, alike⟩
  | cons candidate others ih =>
    obtain ⟨first, asked, goes⟩ := askInTurn_cons_eq_some.mp done
    rcases goes with ⟨answered, rfl⟩ | ⟨declined, rest, ran, rfl⟩
    · obtain ⟨other, again, same⟩ :=
        Registration.ask_simulated simulation simulated asked all alike
      have answers : other.value.isSome := same.value ▸ answered
      exact ⟨other, askInTurn_cons_eq_some.mpr ⟨other, again, .inl ⟨answers, rfl⟩⟩, same⟩
    · obtain ⟨here, onward⟩ := Journal.all_append.mp all
      obtain ⟨second, again, same⟩ :=
        Registration.ask_simulated simulation simulated asked here alike
      have declines : second.value = none := same.value ▸ declined
      obtain ⟨other, further, alike⟩ := ih ran onward same.after
      exact ⟨_, askInTurn_cons_eq_some.mpr ⟨second, again, .inr ⟨declines, other, further, rfl⟩⟩,
        alike.behind same.journal⟩

end Simulation

section Runs

variable {related : Registry → Registry → Prop} {kind : Act → Prop}
  (simulation : Simulation related kind)
include simulation

/-- Lookups do not tell related registries apart. -/
theorem resolve_simulated (bound : Nat) : (resolve bound).Simulated related kind := by
  induction bound with
  | zero =>
    intro type value id r s outcome done
    cases done
  | succ bound ih =>
    intro type value id r s outcome done all alike
    obtain ⟨inTurn, ran, rfl⟩ := resolve_succ_eq_some.mp done
    obtain ⟨began, rest⟩ := Journal.all_cons.mp all
    obtain ⟨onward, _⟩ := Journal.all_append.mp rest
    have candidates := simulation.held alike began
    obtain ⟨other, again, same⟩ := askInTurn_simulated simulation ih _ ran onward alike
    rw [candidates] at again
    refine ⟨_, resolve_succ_eq_some.mpr ⟨other, again, rfl⟩, same.value, ?_, same.after⟩
    dsimp only
    rw [candidates, same.journal, same.value]

namespace Session

theorem step_simulated {bound : Nat} {action : Step} {r s : Registry} {outcome : Outcome Reply}
    (done : step bound r action = some outcome) (all : outcome.journal.All kind)
    (alike : related r s) :
    ∃ other, step bound s action = some other ∧ outcome.Matches related other := by
  cases action with
  | register id provider =>
    cases done
    have same := simulation.register alike all
    exact ⟨_, rfl, rfl, same.journal, same.after⟩
  | has type id =>
    cases done
    have same := simulation.query alike all
    exact ⟨_, rfl, congrArg Reply.flag same.value, same.journal, same.after⟩
  | unregister type id =>
    cases done
    have same := simulation.unregister alike all
    exact ⟨_, rfl, congrArg Reply.number same.value, same.journal, same.after⟩
  | resolve subject id =>
    rcases step_resolve_eq_some.mp done with ⟨view, built, found, ran, rfl⟩ | ⟨fault, built, rfl⟩
    · obtain ⟨other, again, same⟩ := resolve_simulated simulation bound ran all alike
      exact ⟨_, step_resolve_eq_some.mpr (.inl ⟨view, built, other, again, rfl⟩),
        congrArg Reply.resolution same.value, same.journal, same.after⟩
    · exact ⟨_, step_resolve_eq_some.mpr (.inr ⟨fault, built, rfl⟩), rfl, rfl, alike⟩
  | clear =>
    cases done
    have same := simulation.clear alike all
    exact ⟨_, rfl, rfl, same.journal, same.after⟩

/-- Runs do not tell related registries apart. -/
theorem run_simulated {bound : Nat} {steps : List Step} {r s : Registry}
    {outcomes : List (Outcome Reply)} (done : run bound r steps = some outcomes)
    (all : ∀ outcome ∈ outcomes, outcome.journal.All kind) (alike : related r s) :
    ∃ others, run bound s steps = some others ∧
      List.Forall₂ (Outcome.Matches related) outcomes others := by
  induction steps generalizing r s outcomes with
  | nil =>
    cases done
    exact ⟨[], rfl, .nil⟩
  | cons action rest ih =>
    obtain ⟨first, begun, remaining, ran, rfl⟩ := run_cons_eq_some.mp done
    obtain ⟨here, later⟩ := List.forall_mem_cons.mp all
    obtain ⟨second, again, same⟩ := step_simulated simulation begun here alike
    obtain ⟨others, further, matching⟩ := ih ran later same.after
    exact ⟨second :: others, run_cons_eq_some.mpr ⟨second, again, others, further, rfl⟩,
      .cons same matching⟩

end Session

end Runs

end Diagnostics.Capability
