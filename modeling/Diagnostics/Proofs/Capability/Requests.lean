import Diagnostics.Proofs.Capability.Chronicle

/-!
# Requests and replies

A request ties three things together: the reply, the act that is recorded, and what is held
afterwards. A running provider is described by its requests, without the function that carries its
script out: the script goes on from reply to reply. In both directions that is all there is to it,
and it follows that the journal of a lookup is a chronicle.
-/
namespace Diagnostics.Capability

/-- How a registry serves a request. What it holds decides the reply, the one act that is recorded,
and what it holds from then on. -/
inductive Served (r : Registry) : Session.Step → Session.Reply → Act → Registry → Prop where
  | has {type : ValueType} {id : String} {found : Bool}
      (holds : found = true ↔ r.held type id ≠ []) :
      Served r (.has type id) (.flag found) (.asked type id found) r
  /-- The provider comes behind those that the capability has. -/
  | register {id : String} {provider : Provider} {registration : Registration} {next : Registry}
      (enrols : registration.provider = provider)
      (happens : Happens r (.registered id registration) next)
      (files : ∀ type name, next.held type name =
        if provider.takes = type ∧ id = name then r.held type name ++ [registration]
        else r.held type name) :
      Served r (.register id provider) .done (.registered id registration) next
  /-- The reply is the number of those that the capability loses. -/
  | unregister {type : ValueType} {id : String} {removed : Option Nat} {next : Registry}
      (happens : Happens r (.unregistered type id removed) next)
      (counts : removed.getD 0 = (r.held type id).length)
      (empties : ∀ other name, next.held other name =
        if type = other ∧ id = name then [] else r.held other name) :
      Served r (.unregister type id) (.number (r.held type id).length)
        (.unregistered type id removed) next
  | clear {next : Registry} (happens : Happens r .cleared next)
      (empties : ∀ type id, next.held type id = []) : Served r .clear .done .cleared next

namespace Registry

variable (r : Registry) (type : ValueType) (id : String)

theorem eq_has {found : Bool} (holds : found = true ↔ r.held type id ≠ []) :
    found = r.has type id := by
  rw [Bool.eq_iff_iff, holds]
  simp [has]

/-- If no provider takes the type there is nothing to count. -/
theorem removed_getD :
    (if r.table.hasType type then some (r.held type id).length else none).getD 0 =
      (r.held type id).length := by
  split
  · rfl
  · next absent =>
    have nobody : r.held type id = [] := Table.held_absent absent id
    rw [nobody]
    rfl

theorem unregister_value : (r.unregister type id).value = (r.held type id).length := by
  rw [← r.removed_getD type id]
  unfold unregister
  split <;> simp_all

theorem unregister_journal :
    (r.unregister type id).journal =
      [⟨0, .unregistered type id
        (if r.table.hasType type then some (r.held type id).length else none)⟩] := by
  unfold unregister
  split <;> simp_all

theorem query_served :
    Served r (.has type id) (.flag (r.query type id).value)
      (.asked type id (r.query type id).value) (r.query type id).after :=
  .has (by simp [query, has])

theorem register_served (provider : Provider) :
    Served r (.register id provider) .done (.registered id (r.enrol provider))
      (r.register id provider).after :=
  .register rfl (.registered r id provider) fun type name => r.held_register id name provider type

theorem unregister_served :
    ∃ removed, (r.unregister type id).journal = [⟨0, .unregistered type id removed⟩] ∧
      Served r (.unregister type id) (.number (r.unregister type id).value)
        (.unregistered type id removed) (r.unregister type id).after := by
  refine ⟨_, r.unregister_journal type id, ?_⟩
  rw [unregister_value]
  exact .unregister (.unregistered r type id) (r.removed_getD type id) fun other name =>
    r.held_unregister type other id name

theorem clear_served : Served r .clear .done .cleared r.clear.after :=
  .clear (.cleared r) r.held_clear

end Registry

/-- An act by which a running provider deals with the registry itself. -/
def Act.isRequest : Act → Bool
  | .kept .. | .asked .. | .registered .. | .unregistered .. | .cleared => true
  | .called _ | .began .. | .resolved .. | .unsupported .. => false

namespace Served

variable {r next : Registry} {action : Session.Step} {reply : Session.Reply} {act : Act}

theorem happens (served : Served r action reply act next) : Happens r act next := by
  cases served with
  | @has type id found holds =>
    rw [r.eq_has type id holds]
    exact .asked r type id
  | register _ happens _ => exact happens
  | unregister happens _ _ => exact happens
  | clear happens _ => exact happens

theorem isRequest (served : Served r action reply act next) : act.isRequest := by
  cases served <;> rfl

theorem told (served : Served r action reply act next) : Chronicle r [⟨0, act⟩] next :=
  .single 0 served.happens

/-- A registry serves a request in one way, and a session does so. -/
theorem step_eq (served : Served r action reply act next) (bound : Nat) :
    Session.step bound r action = some ⟨reply, next, [⟨0, act⟩]⟩ := by
  cases served with
  | @has type id found holds =>
    rw [r.eq_has type id holds]
    rfl
  | register enrols happens _ =>
    cases happens
    cases enrols
    rfl
  | @unregister type id removed next happens _ _ =>
    cases happens
    simp only [Session.step, r.unregister_value, r.unregister_journal]
  | clear happens _ =>
    cases happens
    rfl

end Served

theorem Registry.register_told (r : Registry) (id : String) (provider : Provider) :
    (r.register id provider).Told r :=
  (r.register_served id provider).told

/-- What a running provider does: requests of its own, and lookups, recorded one level deeper. -/
inductive Dealings (lookup : Lookup) : Registry → Journal → Registry → Prop where
  | nil (r : Registry) : Dealings lookup r [] r
  | request {r next final : Registry} {act : Act} {journal : Journal} (request : act.isRequest)
      (happens : Happens r act next) (rest : Dealings lookup next journal final) :
      Dealings lookup r (⟨0, act⟩ :: journal) final
  | resolve {r final : Registry} {type : ValueType} {value : type.Carrier} {id : String}
      {inner : Outcome Resolution} {journal : Journal}
      (found : lookup type value id r = some inner)
      (rest : Dealings lookup inner.after journal final) :
      Dealings lookup r (inner.journal.map Entry.deepen ++ journal) final

/-- Which lookups have which outcomes. -/
abbrev Findings :=
  (type : ValueType) → type.Carrier → String → Registry → Outcome Resolution → Prop

def Lookup.Finds (lookup : Lookup) : Findings := fun type value id r outcome =>
  lookup type value id r = some outcome

/-- How a script goes, run for the provider with this type and serial number. Each request is served
by the registry as the requests and lookups before it have left it, and the script goes on with the
reply. -/
inductive Script.Goes (finds : Findings) (type : ValueType) (serial : Nat) {gives : ValueType} :
    Script gives → Registry → Outcome (Option gives.Carrier) → Prop where
  | answer (view : Option gives.Carrier) (r : Registry) :
      Goes finds type serial (.answer view) r ⟨view, r, []⟩
  | has {asked : ValueType} {id : String} {next : Bool → Script gives} {r after : Registry}
      {found : Bool} {act : Act} {rest : Outcome (Option gives.Carrier)}
      (served : Served r (.has asked id) (.flag found) act after)
      (onward : Goes finds type serial (next found) after rest) :
      Goes finds type serial (.has asked id next) r
        ⟨rest.value, rest.after, ⟨0, act⟩ :: rest.journal⟩
  /-- What the lookup records is recorded one level deeper. -/
  | resolve {asked : ValueType} {value : asked.Carrier} {id : String}
      {next : Resolution → Script gives} {r : Registry} {inner : Outcome Resolution}
      {rest : Outcome (Option gives.Carrier)} (found : finds asked value id r inner)
      (onward : Goes finds type serial (next inner.value) inner.after rest) :
      Goes finds type serial (.resolve asked value id next) r
        ⟨rest.value, rest.after, inner.journal.map Entry.deepen ++ rest.journal⟩
  | register {takes result : ValueType} {id name : String} {run : takes.Carrier → Script result}
      {next : Script gives} {r after : Registry} {act : Act}
      {rest : Outcome (Option gives.Carrier)}
      (served : Served r (.register id ⟨takes, result, name, run⟩) .done act after)
      (onward : Goes finds type serial next after rest) :
      Goes finds type serial (.register takes result id name run next) r
        ⟨rest.value, rest.after, ⟨0, act⟩ :: rest.journal⟩
  | unregister {asked : ValueType} {id : String} {next : Nat → Script gives} {r after : Registry}
      {removed : Nat} {act : Act} {rest : Outcome (Option gives.Carrier)}
      (served : Served r (.unregister asked id) (.number removed) act after)
      (onward : Goes finds type serial (next removed) after rest) :
      Goes finds type serial (.unregister asked id next) r
        ⟨rest.value, rest.after, ⟨0, act⟩ :: rest.journal⟩
  | clear {next : Script gives} {r after : Registry} {act : Act}
      {rest : Outcome (Option gives.Carrier)} (served : Served r .clear .done act after)
      (onward : Goes finds type serial next after rest) :
      Goes finds type serial (.clear next) r ⟨rest.value, rest.after, ⟨0, act⟩ :: rest.journal⟩
  /-- The number is the provider's own. -/
  | keep {change : Nat → Nat} {next : Nat → Script gives} {r : Registry} {content : Nat}
      {rest : Outcome (Option gives.Carrier)}
      (changed : content = change ((r.memories type).getD serial 0))
      (onward : Goes finds type serial (next content) (r.keep type serial change).after rest) :
      Goes finds type serial (.keep change next) r
        ⟨rest.value, rest.after, ⟨0, .kept type serial content⟩ :: rest.journal⟩

namespace Script

variable {lookup : Lookup} {finds : Findings} {type : ValueType} {serial : Nat} {gives : ValueType}
  {script : Script gives} {r : Registry} {outcome : Outcome (Option gives.Carrier)}

theorem goes_of_run (done : script.run lookup type serial r = some outcome) :
    script.Goes lookup.Finds type serial r outcome := by
  induction script generalizing r with
  | answer view =>
    cases done
    exact .answer view r
  | has asked id next ih =>
    obtain ⟨rest, ran, rfl⟩ := behind_eq_some.mp done
    exact .has (r.query_served asked id) (ih _ ran)
  | resolve asked value id next ih =>
    obtain ⟨inner, found, onward⟩ := Option.bind_eq_some_iff.mp done
    obtain ⟨rest, ran, rfl⟩ := behind_eq_some.mp onward
    exact .resolve found (ih _ ran)
  | register takes result id name run next _ ih =>
    obtain ⟨rest, ran, rfl⟩ := behind_eq_some.mp done
    exact .register (r.register_served id _) (ih ran)
  | unregister asked id next ih =>
    obtain ⟨rest, ran, rfl⟩ := behind_eq_some.mp done
    obtain ⟨removed, journal, served⟩ := r.unregister_served asked id
    rw [journal]
    exact .unregister served (ih _ ran)
  | clear next ih =>
    obtain ⟨rest, ran, rfl⟩ := behind_eq_some.mp done
    exact .clear r.clear_served (ih ran)
  | keep change next ih =>
    obtain ⟨rest, ran, rfl⟩ := behind_eq_some.mp done
    exact .keep rfl (ih _ ran)

theorem Goes.run_eq (goes : script.Goes lookup.Finds type serial r outcome) :
    script.run lookup type serial r = some outcome := by
  induction goes with
  | answer view r => rfl
  | @has _ _ _ _ _ _ _ rest served _ ih =>
    cases served.step_eq 0
    exact behind_eq_some.mpr ⟨rest, ih, rfl⟩
  | @resolve _ _ _ _ _ inner rest found _ ih =>
    exact Option.bind_eq_some_iff.mpr ⟨inner, found, behind_eq_some.mpr ⟨rest, ih, rfl⟩⟩
  | @register _ _ _ _ _ _ _ _ _ rest served _ ih =>
    cases served.step_eq 0
    exact behind_eq_some.mpr ⟨rest, ih, rfl⟩
  | @unregister _ _ _ _ _ _ _ rest served _ ih =>
    -- What is recorded depends on whether some provider takes the type.
    have stepped := served.step_eq 0
    simp only [Session.step, Option.some.injEq, Outcome.mk.injEq, Session.Reply.number.injEq]
      at stepped
    obtain ⟨rfl, rfl, journal⟩ := stepped
    refine behind_eq_some.mpr ⟨rest, ih, ?_⟩
    rw [journal]
    rfl
  | @clear _ _ _ _ rest served _ ih =>
    cases served.step_eq 0
    exact behind_eq_some.mpr ⟨rest, ih, rfl⟩
  | @keep _ _ _ _ rest changed _ ih =>
    subst changed
    exact behind_eq_some.mpr ⟨rest, ih, rfl⟩

/-- If more lookups come to an end a script still goes as before. -/
theorem Goes.mono {wider : Findings}
    (within : ∀ {type value id r inner}, finds type value id r inner → wider type value id r inner)
    (goes : script.Goes finds type serial r outcome) :
    script.Goes wider type serial r outcome := by
  induction goes with
  | answer view r => exact .answer view r
  | has served _ ih => exact .has served ih
  | resolve found _ ih => exact .resolve (within found) ih
  | register served _ ih => exact .register served ih
  | unregister served _ ih => exact .unregister served ih
  | clear served _ ih => exact .clear served ih
  | keep changed _ ih => exact .keep changed ih

theorem Goes.dealings (goes : script.Goes lookup.Finds type serial r outcome) :
    Dealings lookup r outcome.journal outcome.after := by
  induction goes with
  | answer view r => exact .nil r
  | has served _ ih => exact .request served.isRequest served.happens ih
  | resolve found _ ih => exact .resolve found ih
  | register served _ ih => exact .request served.isRequest served.happens ih
  | unregister served _ ih => exact .request served.isRequest served.happens ih
  | clear served _ ih => exact .request served.isRequest served.happens ih
  | @keep change _ r _ _ changed _ ih =>
    subst changed
    exact .request rfl (.kept r type serial change) ih

/-- A script deals with the registry as far as it gets. -/
theorem run_dealings (script : Script gives)
    (done : script.run lookup type serial r = some outcome) :
    Dealings lookup r outcome.journal outcome.after :=
  (goes_of_run done).dealings

end Script

/-- A way to look up whose outcomes are all told. -/
def Lookup.Told (lookup : Lookup) : Prop :=
  ∀ {type value id r outcome}, lookup type value id r = some outcome → outcome.Told r

section Runs

variable {lookup : Lookup} (told : lookup.Told)
include told

theorem Dealings.chronicle {r final : Registry} {journal : Journal}
    (dealings : Dealings lookup r journal final) : Chronicle r journal final := by
  induction dealings with
  | nil r => exact .nil r
  | request _ happens _ ih => exact .cons happens ih
  | resolve found _ ih => exact (told found).deepen.append ih

theorem Registration.ask_told {type : ValueType} {value : type.Carrier}
    {registration : Registration} {r : Registry} {outcome : Outcome Resolution}
    (done : registration.ask lookup type value r = some outcome) : outcome.Told r := by
  by_cases takes : type = registration.provider.takes
  · obtain ⟨own, ran, rfl⟩ := (Registration.ask_eq_some takes).mp done
    exact .cons (.called r registration) ((Script.run_dealings _ ran).chronicle told)
  · rw [Registration.ask_of_ne takes] at done
    cases done
    exact .nil r

theorem askInTurn_told {type : ValueType} {value : type.Carrier} (candidates : List Registration)
    {r : Registry} {outcome : Outcome Resolution}
    (done : askInTurn lookup type value candidates r = some outcome) : outcome.Told r := by
  induction candidates generalizing r outcome with
  | nil =>
    cases done
    exact .nil r
  | cons candidate others ih =>
    obtain ⟨first, asked, goes⟩ := askInTurn_cons_eq_some.mp done
    have begun := Registration.ask_told told asked
    rcases goes with ⟨_, rfl⟩ | ⟨_, rest, ran, rfl⟩
    · exact begun
    · exact .behind begun (ih ran)

end Runs

theorem closing_happens (r : Registry) (type : ValueType) (id : String) (candidates : Nat)
    (resolution : Resolution) : Happens r (closing type id candidates resolution) r := by
  cases resolution with
  | none => exact .unsupported r type id candidates
  | some _ => exact .resolved r type id

/-- A lookup changes the registry only through the acts that it records, at whatever depth. -/
theorem resolve_told (bound : Nat) : (resolve bound).Told := by
  induction bound with
  | zero =>
    intro type value id r outcome done
    cases done
  | succ bound ih =>
    intro type value id r outcome done
    obtain ⟨inTurn, ran, rfl⟩ := resolve_succ_eq_some.mp done
    have told := askInTurn_told ih _ ran
    exact .cons (.began r type id) (told.append (.single 0 (closing_happens _ type id _ _)))

end Diagnostics.Capability
