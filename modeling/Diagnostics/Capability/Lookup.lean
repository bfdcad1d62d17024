import Diagnostics.Capability.Registry

/-!
# Lookups

A lookup asks the providers that a capability has when the lookup begins, in the order of their
registration, until one gives a view. What the providers do to the registry meanwhile does not
change whom this lookup asks, but every later request sees it.

Lookups may start lookups. A bound says how deep they may nest; a lookup that would go deeper has
no outcome.
-/
namespace Diagnostics.Capability

/-- A way to look up: type, value and id. -/
abbrev Lookup :=
  (type : ValueType) → type.Carrier → String → Registry → Option (Outcome Resolution)

/-- Carries a script out for the provider with this type and serial number. -/
def Script.run (lookup : Lookup) (type : ValueType) (serial : Nat) {gives : ValueType} :
    Script gives → Registry → Option (Outcome (Option gives.Carrier))
  | .answer view, r => some ⟨view, r, []⟩
  | .has asked id next, r => do
      let done := r.query asked id
      let rest ← (next done.value).run lookup type serial done.after
      return rest.behind done.journal
  | .resolve asked value id next, r => do
      let inner ← lookup asked value id r
      let rest ← (next inner.value).run lookup type serial inner.after
      return rest.behind (inner.journal.map Entry.deepen)
  | .register takes gives id name run next, r => do
      let done := r.register id ⟨takes, gives, name, run⟩
      let rest ← next.run lookup type serial done.after
      return rest.behind done.journal
  | .unregister asked id next, r => do
      let done := r.unregister asked id
      let rest ← (next done.value).run lookup type serial done.after
      return rest.behind done.journal
  | .clear next, r => do
      let done := r.clear
      let rest ← next.run lookup type serial done.after
      return rest.behind done.journal
  | .keep change next, r => do
      let done := r.keep type serial change
      let rest ← (next done.value).run lookup type serial done.after
      return rest.behind done.journal

/-- Asks one provider for a view. A provider for values of another type declines without being
called. -/
def Registration.ask (lookup : Lookup) (type : ValueType) (value : type.Carrier)
    (registration : Registration) (r : Registry) : Option (Outcome Resolution) :=
  let provider := registration.provider
  if h : type = provider.takes then do
    let done ← (provider.run (h ▸ value)).run lookup provider.takes registration.serial r
    return ⟨done.value.map (View.mk provider.gives), done.after,
      ⟨0, .called registration⟩ :: done.journal⟩
  else some ⟨none, r, []⟩

/-- Asks the candidates in turn, up to the first that gives a view. -/
def askInTurn (lookup : Lookup) (type : ValueType) (value : type.Carrier) :
    List Registration → Registry → Option (Outcome Resolution)
  | [], r => some ⟨none, r, []⟩
  | candidate :: others, r => do
      let first ← candidate.ask lookup type value r
      if first.value.isSome then return first
      else
        let rest ← askInTurn lookup type value others first.after
        return rest.behind first.journal

/-- The record that closes a lookup. -/
def closing (type : ValueType) (id : String) (candidates : Nat) : Resolution → Act
  | some _ => .resolved type id
  | none => .unsupported type id candidates

/-- Looks a capability up, with lookups nested at most `bound` deep, this one included. -/
def resolve : (bound : Nat) → Lookup
  | 0 => fun _ _ _ _ => none
  | bound + 1 => fun type value id r => do
      let candidates := r.held type id
      let done ← askInTurn (resolve bound) type value candidates r
      let closed := closing type id candidates.length done.value
      return ⟨done.value, done.after,
        ⟨0, .began type id candidates⟩ :: done.journal ++ [⟨0, closed⟩]⟩

section Outcomes

variable {lookup : Lookup} {type : ValueType} {value : type.Carrier} {id : String} {r : Registry}
  {outcome : Outcome Resolution}

theorem behind_eq_some {α : Type} {done : Option (Outcome α)} {earlier : Journal}
    {whole : Outcome α} :
    (done.bind fun rest => some (rest.behind earlier)) = some whole ↔
      ∃ rest, done = some rest ∧ rest.behind earlier = whole := by
  rw [Option.bind_eq_some_iff]
  simp only [Option.some.injEq]

theorem Registration.ask_eq_some {registration : Registration}
    (takes : type = registration.provider.takes) :
    registration.ask lookup type value r = some outcome ↔
      ∃ own, (registration.provider.run (takes ▸ value)).run lookup registration.provider.takes
          registration.serial r = some own ∧
        ⟨own.value.map (View.mk registration.provider.gives), own.after,
          ⟨0, .called registration⟩ :: own.journal⟩ = outcome := by
  simp only [ask, dif_pos takes, Option.bind_eq_bind, Option.bind_eq_some_iff, Option.pure_def,
    Option.some.injEq]

/-- A provider for values of another type is not called. -/
theorem Registration.ask_of_ne {registration : Registration}
    (differs : type ≠ registration.provider.takes) :
    registration.ask lookup type value r = some ⟨none, r, []⟩ := by
  simp only [ask, dif_neg differs]

theorem askInTurn_cons_eq_some {candidate : Registration} {others : List Registration} :
    askInTurn lookup type value (candidate :: others) r = some outcome ↔
      ∃ first, candidate.ask lookup type value r = some first ∧
        (first.value.isSome ∧ first = outcome ∨
          first.value = none ∧ ∃ rest, askInTurn lookup type value others first.after = some rest ∧
            rest.behind first.journal = outcome) := by
  simp only [askInTurn, Option.bind_eq_bind, Option.bind_eq_some_iff]
  refine exists_congr fun first => and_congr_right fun _ => ?_
  cases first.value with
  | some view => simp
  | none => simp [Option.bind_eq_some_iff]

theorem resolve_succ_eq_some {bound : Nat} :
    resolve (bound + 1) type value id r = some outcome ↔
      ∃ inTurn, askInTurn (resolve bound) type value (r.held type id) r = some inTurn ∧
        ⟨inTurn.value, inTurn.after,
          ⟨0, .began type id (r.held type id)⟩ :: inTurn.journal ++
            [⟨0, closing type id (r.held type id).length inTurn.value⟩]⟩ = outcome := by
  simp only [resolve, Option.bind_eq_bind, Option.bind_eq_some_iff, Option.pure_def,
    Option.some.injEq]

end Outcomes
end Diagnostics.Capability
