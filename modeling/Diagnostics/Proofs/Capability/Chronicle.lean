import Diagnostics.Capability.Session

/-!
# Chronicles

The journal of a run is a chronicle: each act is one that the registry of that moment allows, it
reports what that registry holds, and it leads to the registry of the next moment. So a statement
about every moment of a run, lookups inside lookups included, needs one case for each act and no
case for what a provider may do.

Chronicles are not confined to journals of runs. They are all orders of acts, whoever performs
them, and so also the beginnings of runs that never end.
-/
namespace Diagnostics.Capability

/-- An act in a registry, and the registry after it. What the act reports is read off the registry
in which it happens. -/
inductive Happens : Registry → Act → Registry → Prop where
  | called (r : Registry) (registration : Registration) : Happens r (.called registration) r
  | kept (r : Registry) (type : ValueType) (serial : Nat) (change : Nat → Nat) :
      Happens r (.kept type serial (r.keep type serial change).value)
        (r.keep type serial change).after
  | asked (r : Registry) (type : ValueType) (id : String) :
      Happens r (.asked type id (r.has type id)) r
  | registered (r : Registry) (id : String) (provider : Provider) :
      Happens r (.registered id (r.enrol provider)) (r.register id provider).after
  | unregistered (r : Registry) (type : ValueType) (id : String) :
      Happens r
        (.unregistered type id
          (if r.table.hasType type then some (r.held type id).length else none))
        (r.unregister type id).after
  | cleared (r : Registry) : Happens r .cleared r.clear.after
  | began (r : Registry) (type : ValueType) (id : String) :
      Happens r (.began type id (r.held type id)) r
  | resolved (r : Registry) (type : ValueType) (id : String) : Happens r (.resolved type id) r
  | unsupported (r : Registry) (type : ValueType) (id : String) (candidates : Nat) :
      Happens r (.unsupported type id candidates) r

/-- A journal that tells how one registry became another. -/
inductive Chronicle : Registry → Journal → Registry → Prop where
  | nil (r : Registry) : Chronicle r [] r
  | cons {r next final : Registry} {entry : Entry} {journal : Journal}
      (first : Happens r entry.act next) (rest : Chronicle next journal final) :
      Chronicle r (entry :: journal) final

/-- A registry that the empty one can become. -/
def Registry.Reachable (r : Registry) : Prop := ∃ journal, Chronicle ∅ journal r

namespace Chronicle

variable {r next final : Registry} {journal past future : Journal}

theorem single {act : Act} (depth : Nat) (happens : Happens r act next) :
    Chronicle r [⟨depth, act⟩] next :=
  .cons happens (.nil next)

theorem append (first : Chronicle r past next) (second : Chronicle next future final) :
    Chronicle r (past ++ future) final := by
  induction first with
  | nil => exact second
  | cons happens _ ih => exact .cons happens (ih second)

/-- Every point of a journal is a moment with a registry of its own. -/
theorem split (chronicle : Chronicle r (past ++ future) final) :
    ∃ moment, Chronicle r past moment ∧ Chronicle moment future final := by
  induction past generalizing r with
  | nil => exact ⟨r, .nil r, chronicle⟩
  | cons entry past ih =>
    cases chronicle with
    | cons happens rest =>
      obtain ⟨moment, before, after⟩ := ih rest
      exact ⟨moment, .cons happens before, after⟩

/-- The depth at which an act is recorded does not matter. -/
theorem deepen (chronicle : Chronicle r journal final) :
    Chronicle r (journal.map Entry.deepen) final := by
  induction chronicle with
  | nil r => exact .nil r
  | cons happens _ ih => exact .cons happens ih

/-- What each act preserves holds at the end of a chronicle if it holds at its beginning. -/
theorem preserves {Invariant : Registry → Prop}
    (step : ∀ {r act next}, Happens r act next → Invariant r → Invariant next)
    (chronicle : Chronicle r journal final) (initial : Invariant r) : Invariant final := by
  induction chronicle with
  | nil => exact initial
  | cons happens _ ih => exact ih (step happens initial)

theorem reachable (chronicle : Chronicle r journal final) (initial : r.Reachable) :
    final.Reachable := by
  obtain ⟨earlier, before⟩ := initial
  exact ⟨earlier ++ journal, before.append chronicle⟩

end Chronicle

/-- An outcome whose journal tells how the registry became the one after it. -/
def Outcome.Told {α : Type} (r : Registry) (outcome : Outcome α) : Prop :=
  Chronicle r outcome.journal outcome.after

theorem Registry.reachable_empty : Registry.Reachable ∅ := ⟨[], .nil ∅⟩

theorem Outcome.Told.behind {α : Type} {r next : Registry} {journal : Journal}
    {outcome : Outcome α} (earlier : Chronicle r journal next) (told : outcome.Told next) :
    (outcome.behind journal).Told r :=
  Chronicle.append earlier told

namespace Registry

/-- Every provider that is held is of the kind that there has to be where it is held. -/
def Holds (kind : ValueType → String → Provider → Prop) (r : Registry) : Prop :=
  ∀ type id, ∀ registration ∈ r.held type id, kind type id registration.provider

namespace Holds

variable {kind : ValueType → String → Provider → Prop} {r : Registry}

theorem empty : Holds kind ∅ := by
  intro type id registration held
  cases held

theorem register (holds : r.Holds kind) {id : String} {provider : Provider}
    (new : kind provider.takes id provider) : (r.register id provider).after.Holds kind := by
  intro type name registration held
  rw [held_register] at held
  split at held
  · next same =>
    obtain ⟨rfl, rfl⟩ := same
    rcases List.mem_append.mp held with old | added
    · exact holds _ _ registration old
    · rw [List.mem_singleton.mp added]
      exact new
  · exact holds type name registration held

theorem unregister (holds : r.Holds kind) (type : ValueType) (id : String) :
    (r.unregister type id).after.Holds kind := by
  intro other name registration held
  rw [held_unregister] at held
  split at held
  · cases held
  · exact holds other name registration held

theorem clear : r.clear.after.Holds kind := by
  intro type id registration held
  cases held

theorem keep (holds : r.Holds kind) (type : ValueType) (serial : Nat) (change : Nat → Nat) :
    (r.keep type serial change).after.Holds kind :=
  holds

end Holds

/-- Every provider is filed under the type it takes. -/
def WellTyped (r : Registry) : Prop :=
  ∀ type id, ∀ registration ∈ r.held type id, registration.provider.takes = type

theorem wellTyped_iff {r : Registry} :
    r.WellTyped ↔ r.Holds fun type _ provider => provider.takes = type :=
  Iff.rfl

end Registry

theorem Happens.wellTyped {r next : Registry} {act : Act} (happens : Happens r act next)
    (typed : r.WellTyped) : next.WellTyped := by
  rw [Registry.wellTyped_iff] at typed ⊢
  cases happens with
  | registered id provider => exact typed.register rfl
  | unregistered type id => exact typed.unregister type id
  | cleared => exact .clear
  | kept type serial change => exact typed.keep type serial change
  | called _ => exact typed
  | asked _ _ => exact typed
  | began _ _ => exact typed
  | resolved _ _ => exact typed
  | unsupported _ _ _ => exact typed

theorem Registry.Reachable.wellTyped {r : Registry} (reachable : r.Reachable) : r.WellTyped := by
  obtain ⟨journal, chronicle⟩ := reachable
  exact chronicle.preserves Happens.wellTyped (wellTyped_iff.mpr .empty)

end Diagnostics.Capability
