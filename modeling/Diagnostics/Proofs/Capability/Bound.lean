import Diagnostics.Proofs.Capability.Requests

/-!
# The bound on nested lookups

The bound only cuts off: a lookup that has an outcome keeps it under every greater bound. So it
makes sense to speak of the outcome of a lookup, and of what a provider comes to, without a bound.
What it comes to is what its script goes to if its lookups have these outcomes.
-/
namespace Diagnostics.Capability

/-- What one way to look up finds, the other finds too. -/
def Lookup.Within (lookup wider : Lookup) : Prop :=
  ∀ {type value id r outcome}, lookup type value id r = some outcome →
    wider type value id r = some outcome

section Within

variable {lookup wider : Lookup} (within : lookup.Within wider)
include within

theorem Script.run_mono {type : ValueType} {serial : Nat} {gives : ValueType}
    (script : Script gives) {r : Registry} {outcome : Outcome (Option gives.Carrier)}
    (done : script.run lookup type serial r = some outcome) :
    script.run wider type serial r = some outcome :=
  ((goes_of_run done).mono within).run_eq

theorem Registration.ask_mono {type : ValueType} {value : type.Carrier}
    {registration : Registration} {r : Registry} {outcome : Outcome Resolution}
    (done : registration.ask lookup type value r = some outcome) :
    registration.ask wider type value r = some outcome := by
  by_cases takes : type = registration.provider.takes
  · obtain ⟨own, ran, same⟩ := (Registration.ask_eq_some takes).mp done
    exact (Registration.ask_eq_some takes).mpr ⟨own, Script.run_mono within _ ran, same⟩
  · rw [Registration.ask_of_ne takes] at done ⊢
    exact done

theorem askInTurn_mono {type : ValueType} {value : type.Carrier} (candidates : List Registration)
    {r : Registry} {outcome : Outcome Resolution}
    (done : askInTurn lookup type value candidates r = some outcome) :
    askInTurn wider type value candidates r = some outcome := by
  induction candidates generalizing r outcome with
  | nil => exact done
  | cons candidate others ih =>
    obtain ⟨first, asked, goes⟩ := askInTurn_cons_eq_some.mp done
    have wide := Registration.ask_mono within asked
    rcases goes with answered | ⟨declined, rest, ran, same⟩
    · exact askInTurn_cons_eq_some.mpr ⟨first, wide, .inl answered⟩
    · exact askInTurn_cons_eq_some.mpr ⟨first, wide, .inr ⟨declined, rest, ih ran, same⟩⟩

end Within

theorem resolve_succ (bound : Nat) : (resolve bound).Within (resolve (bound + 1)) := by
  induction bound with
  | zero =>
    intro type value id r outcome done
    cases done
  | succ bound ih =>
    intro type value id r outcome done
    obtain ⟨inTurn, ran, same⟩ := resolve_succ_eq_some.mp done
    exact resolve_succ_eq_some.mpr ⟨inTurn, askInTurn_mono ih _ ran, same⟩

/-- A greater bound changes no outcome. -/
theorem resolve_mono {bound greater : Nat} (le : bound ≤ greater) :
    (resolve bound).Within (resolve greater) := by
  induction le with
  | refl => exact id
  | step _ ih => exact fun done => resolve_succ _ (ih done)

/-- The lookup has this outcome, however deep lookups nest in it. -/
def Resolves (type : ValueType) (value : type.Carrier) (id : String) (r : Registry)
    (outcome : Outcome Resolution) : Prop :=
  ∃ bound, resolve bound type value id r = some outcome

/-- A lookup has at most one outcome. -/
theorem Resolves.unique {type : ValueType} {value : type.Carrier} {id : String} {r : Registry}
    {outcome other : Outcome Resolution} (first : Resolves type value id r outcome)
    (second : Resolves type value id r other) : outcome = other := by
  obtain ⟨bound, found⟩ := first
  obtain ⟨further, again⟩ := second
  have wide := resolve_mono (Nat.le_max_left bound further) found
  exact Option.some.inj (wide.symm.trans (resolve_mono (Nat.le_max_right bound further) again))

/-- The provider's own function, run on the value in a registry, comes to this. -/
def Registration.Runs (registration : Registration) (value : registration.provider.takes.Carrier)
    (r : Registry) (own : Outcome (Option registration.provider.gives.Carrier)) : Prop :=
  ∃ bound, (registration.provider.run value).run (resolve bound) registration.provider.takes
    registration.serial r = some own

namespace Script

variable {type : ValueType} {serial : Nat} {gives : ValueType} {script : Script gives}
  {r : Registry} {outcome : Outcome (Option gives.Carrier)}

/-- One bound is enough for all lookups of a script. -/
theorem Goes.bounded (goes : script.Goes Resolves type serial r outcome) :
    ∃ bound, script.Goes (Capability.resolve bound).Finds type serial r outcome := by
  induction goes with
  | answer view r => exact ⟨0, .answer view r⟩
  | has served _ ih => exact ih.imp fun _ => .has served
  | resolve found _ ih =>
    obtain ⟨bound, found⟩ := found
    obtain ⟨further, onward⟩ := ih
    have wide := resolve_mono (Nat.le_max_left bound further) found
    exact ⟨max bound further,
      .resolve wide (onward.mono (resolve_mono (Nat.le_max_right bound further)))⟩
  | register served _ ih => exact ih.imp fun _ => .register served
  | unregister served _ ih => exact ih.imp fun _ => .unregister served
  | clear served _ ih => exact ih.imp fun _ => .clear served
  | keep changed _ ih => exact ih.imp fun _ => .keep changed

/-- A script comes to just what it goes to. -/
theorem runs_iff_goes :
    (∃ bound, script.run (Capability.resolve bound) type serial r = some outcome) ↔
      script.Goes Resolves type serial r outcome := by
  constructor
  · rintro ⟨bound, ran⟩
    exact (goes_of_run ran).mono fun found => ⟨bound, found⟩
  · intro goes
    obtain ⟨bound, goes⟩ := goes.bounded
    exact ⟨bound, goes.run_eq⟩

end Script
end Diagnostics.Capability
