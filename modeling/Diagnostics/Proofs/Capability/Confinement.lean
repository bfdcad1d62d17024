import Mathlib.Data.List.Forall2
import Diagnostics.Capability.Rule
import Diagnostics.Proofs.Capability.Requests

/-!
# Providers that keep to their type

A provider is confined if all its dealings with the registry are for the type of the values that it
takes, and so are those of the providers that it registers; then it never clears the registry. What
is done in a run of steps with confined providers is done for the type of each step.
-/
namespace Diagnostics.Capability

/-- The value type that an act concerns. To clear concerns all of them. -/
def Act.type? : Act → Option ValueType
  | .called registration => some registration.provider.takes
  | .kept type _ _ => some type
  | .asked type _ _ => some type
  | .registered _ registration => some registration.provider.takes
  | .unregistered type _ _ => some type
  | .cleared => none
  | .began type _ _ => some type
  | .resolved type _ => some type
  | .unsupported type _ _ => some type

/-- All acts of the journal concern one value type. -/
def Journal.Within (journal : Journal) (type : ValueType) : Prop :=
  ∀ entry ∈ journal, entry.act.type? = some type

namespace Journal

variable {type : ValueType} {past future : Journal}

theorem within_nil : Within [] type := List.forall_mem_nil _

theorem within_cons {entry : Entry} :
    Within (entry :: future) type ↔ entry.act.type? = some type ∧ future.Within type :=
  List.forall_mem_cons

theorem within_append :
    Within (past ++ future) type ↔ past.Within type ∧ future.Within type :=
  List.forall_mem_append

theorem within_deepen : Within (past.map Entry.deepen) type ↔ past.Within type :=
  List.forall_mem_map

end Journal

/-- Whatever the replies are, every request of the script is for this value type. -/
def Script.Confined (type : ValueType) {gives : ValueType} : Script gives → Prop
  | .answer _ => True
  | .has asked _ next => asked = type ∧ ∀ found, (next found).Confined type
  | .resolve asked _ _ next => asked = type ∧ ∀ resolution, (next resolution).Confined type
  | .register takes _ _ _ run next =>
      takes = type ∧ (∀ value, (run value).Confined takes) ∧ next.Confined type
  | .unregister asked _ next => asked = type ∧ ∀ removed, (next removed).Confined type
  | .clear _ => False
  | .keep _ next => ∀ content, (next content).Confined type

def Provider.Confined (provider : Provider) : Prop :=
  ∀ value, (provider.run value).Confined provider.takes

/-- All providers that are held are confined and take what they are held for. -/
def Registry.Confined : Registry → Prop :=
  Registry.Holds fun type _ provider => provider.takes = type ∧ provider.Confined

/-- A journal of one value type, and a registry of confined providers. -/
structure Outcome.Confined {α : Type} (type : ValueType) (outcome : Outcome α) : Prop where
  within : outcome.journal.Within type
  after : outcome.after.Confined

theorem Outcome.Confined.behind {α : Type} {type : ValueType} {earlier : Journal}
    {outcome : Outcome α} (within : earlier.Within type) (confined : outcome.Confined type) :
    (outcome.behind earlier).Confined type :=
  ⟨Journal.within_append.mpr ⟨within, confined.within⟩, confined.after⟩

namespace Registry.Confined

variable {r : Registry} (confined : r.Confined) (type : ValueType)
include confined

theorem query (id : String) : (r.query type id).Confined type :=
  ⟨Journal.within_cons.mpr ⟨rfl, Journal.within_nil⟩, confined⟩

omit type in
theorem register (id : String) (provider : Provider) (own : provider.Confined) :
    (r.register id provider).Confined provider.takes :=
  ⟨Journal.within_cons.mpr ⟨rfl, Journal.within_nil⟩, Holds.register confined ⟨rfl, own⟩⟩

theorem unregister (id : String) : (r.unregister type id).Confined type := by
  refine ⟨?_, Holds.unregister confined type id⟩
  rw [r.unregister_journal type id]
  exact Journal.within_cons.mpr ⟨rfl, Journal.within_nil⟩

theorem keep (serial : Nat) (change : Nat → Nat) : (r.keep type serial change).Confined type :=
  ⟨Journal.within_cons.mpr ⟨rfl, Journal.within_nil⟩, confined⟩

end Registry.Confined

/-- A way to look up that, among confined providers, keeps to the type of the value. -/
def Lookup.Confined (lookup : Lookup) : Prop :=
  ∀ ⦃type value id r outcome⦄, lookup type value id r = some outcome → r.Confined →
    outcome.Confined type

section Confined

variable {lookup : Lookup} (keeps : lookup.Confined)
include keeps

theorem Script.run_confined {type : ValueType} {serial : Nat} {gives : ValueType}
    (script : Script gives) {r : Registry} {outcome : Outcome (Option gives.Carrier)}
    (done : script.run lookup type serial r = some outcome) (own : script.Confined type)
    (confined : r.Confined) : outcome.Confined type := by
  induction script generalizing r with
  | answer view =>
    cases done
    exact ⟨Journal.within_nil, confined⟩
  | has asked id next ih =>
    obtain ⟨rest, ran, rfl⟩ := behind_eq_some.mp done
    obtain ⟨rfl, own⟩ := own
    have here := confined.query asked id
    exact .behind here.within (ih _ ran (own _) here.after)
  | resolve asked value id next ih =>
    obtain ⟨inner, found, onward⟩ := Option.bind_eq_some_iff.mp done
    obtain ⟨rest, ran, rfl⟩ := behind_eq_some.mp onward
    obtain ⟨rfl, own⟩ := own
    have here := keeps found confined
    exact .behind (Journal.within_deepen.mpr here.within) (ih _ ran (own _) here.after)
  | register takes result id name run next _ ih =>
    obtain ⟨rest, ran, rfl⟩ := behind_eq_some.mp done
    obtain ⟨rfl, new, own⟩ := own
    have here := confined.register id ⟨takes, result, name, run⟩ new
    exact .behind here.within (ih ran own here.after)
  | unregister asked id next ih =>
    obtain ⟨rest, ran, rfl⟩ := behind_eq_some.mp done
    obtain ⟨rfl, own⟩ := own
    have here := confined.unregister asked id
    exact .behind here.within (ih _ ran (own _) here.after)
  | clear next ih => exact own.elim
  | keep change next ih =>
    obtain ⟨rest, ran, rfl⟩ := behind_eq_some.mp done
    have here := confined.keep type serial change
    exact .behind here.within (ih _ ran (own _) here.after)

theorem askInTurn_confined {type : ValueType} {value : type.Carrier}
    (candidates : List Registration) {r : Registry} {outcome : Outcome Resolution}
    (done : askInTurn lookup type value candidates r = some outcome)
    (own : ∀ candidate ∈ candidates,
      candidate.provider.takes = type ∧ candidate.provider.Confined)
    (confined : r.Confined) : outcome.Confined type := by
  induction candidates generalizing r outcome with
  | nil =>
    cases done
    exact ⟨Journal.within_nil, confined⟩
  | cons candidate others ih =>
    obtain ⟨first, asked, goes⟩ := askInTurn_cons_eq_some.mp done
    obtain ⟨⟨rfl, mine⟩, ownRest⟩ := List.forall_mem_cons.mp own
    obtain ⟨ran, run, rfl⟩ := (Registration.ask_eq_some rfl).mp asked
    have turn := Script.run_confined keeps _ run (mine value) confined
    have begun : Journal.Within (⟨0, .called candidate⟩ :: ran.journal) candidate.provider.takes :=
      Journal.within_cons.mpr ⟨rfl, turn.within⟩
    rcases goes with ⟨_, rfl⟩ | ⟨_, rest, onward, rfl⟩
    · exact ⟨begun, turn.after⟩
    · exact .behind begun (ih onward ownRest turn.after)

end Confined

theorem closing_type? (type : ValueType) (id : String) (candidates : Nat) (resolution : Resolution) :
    (closing type id candidates resolution).type? = some type := by
  cases resolution <;> rfl

theorem resolve_confined (bound : Nat) : (resolve bound).Confined := by
  induction bound with
  | zero =>
    intro type value id r outcome done
    cases done
  | succ bound ih =>
    intro type value id r outcome done confined
    obtain ⟨inTurn, ran, rfl⟩ := resolve_succ_eq_some.mp done
    have asked := askInTurn_confined ih _ ran (confined type id) confined
    have closed : Journal.Within [⟨0, closing type id (r.held type id).length inTurn.value⟩] type :=
      Journal.within_cons.mpr ⟨closing_type? .., Journal.within_nil⟩
    exact ⟨Journal.within_cons.mpr ⟨rfl, Journal.within_append.mpr ⟨asked.within, closed⟩⟩,
      asked.after⟩

theorem Script.confined_ite {type gives : ValueType} {script : Script gives} (applies : Bool)
    (own : script.Confined type) : (if applies then script else .answer none).Confined type := by
  cases applies with
  | true => exact own
  | false => trivial

namespace Effect

/-- The effect, or that of a rule that it registers, removes all providers. -/
def clears : Effect → Bool
  | .clear => true
  | .register _ _ _ effect => effect.clears
  | _ => false

theorem script_confined {effect : Effect} (tame : effect.clears = false) (type : ValueType)
    (value : type.Carrier) : (effect.script type value).Confined type := by
  induction effect generalizing value with
  | clear => cases tame
  | register id name condition effect ih =>
    exact ⟨rfl, fun value => Script.confined_ite _ (ih tame value), trivial⟩
  | number => trivial
  | text => trivial
  | self => trivial
  | const _ => trivial
  | unit => trivial
  | counter => exact fun _ => trivial
  | has _ => exact ⟨rfl, fun _ => trivial⟩
  | resolveNumber _ => exact ⟨rfl, fun _ => trivial⟩
  | resolveText _ => exact ⟨rfl, fun _ => trivial⟩
  | unregister _ => exact ⟨rfl, fun _ => trivial⟩

end Effect

/-- A rule that clears nothing deals with the registry for the type of its values only. -/
theorem Rule.provider_confined {rule : Rule} (tame : rule.effect.clears = false)
    (type : ValueType) : (rule.provider type).Confined :=
  fun value => Script.confined_ite _ (Effect.script_confined tame type value)

def Subject.type : Subject → ValueType
  | .problem _ => .problem
  | .location _ => .location
  | .severity _ => .severity
  | .integer _ => .integer
  | .text _ => .text

theorem Subject.type_of_build {subject : Subject} {view : View}
    (built : subject.build = .ok view) : view.type = subject.type := by
  cases subject with
  | problem draft =>
    simp only [build] at built
    cases made : draft.build <;> rw [made] at built <;> cases built
    rfl
  | location draft =>
    simp only [build] at built
    cases made : draft.build <;> rw [made] at built <;> cases built
    rfl
  | severity grade =>
    cases built
    rfl
  | integer n =>
    cases built
    rfl
  | text words =>
    cases built
    rfl

namespace Session

/-- The value type that a step is for. To clear is for none in particular. -/
def Step.type? : Step → Option ValueType
  | .register _ provider => some provider.takes
  | .has type _ => some type
  | .unregister type _ => some type
  | .resolve subject _ => some subject.type
  | .clear => none

/-- The step neither clears the registry nor brings in a provider that is not confined. -/
def Step.Confined : Step → Prop
  | .register _ provider => provider.Confined
  | .clear => False
  | _ => True

/-- Every step of the run is for some value type, and so is all that is done in it. So nothing
clears the registry, neither a step nor a provider. -/
def OwnTypes (steps : List Step) (outcomes : List (Outcome Reply)) : Prop :=
  List.Forall₂
    (fun action outcome => ∃ type, action.type? = some type ∧ outcome.journal.Within type)
    steps outcomes

theorem step_confined {bound : Nat} {r : Registry} {action : Step} {outcome : Outcome Reply}
    (done : step bound r action = some outcome) (own : action.Confined) (confined : r.Confined) :
    ∃ type, action.type? = some type ∧ outcome.Confined type := by
  cases action with
  | register id provider =>
    cases done
    have here := confined.register id provider own
    exact ⟨provider.takes, rfl, here.within, here.after⟩
  | has type id =>
    cases done
    have here := confined.query type id
    exact ⟨type, rfl, here.within, here.after⟩
  | unregister type id =>
    cases done
    have here := confined.unregister type id
    exact ⟨type, rfl, here.within, here.after⟩
  | resolve subject id =>
    rcases step_resolve_eq_some.mp done with ⟨view, built, found, ran, rfl⟩ | ⟨fault, _, rfl⟩
    · have here := resolve_confined bound ran confined
      have kind : view.type = subject.type := Subject.type_of_build built
      exact ⟨view.type, congrArg some kind.symm, here.within, here.after⟩
    · exact ⟨subject.type, rfl, Journal.within_nil, confined⟩
  | clear => exact own.elim

/-- A run of steps with confined providers keeps to the types of its steps. -/
theorem run_ownTypes {bound : Nat} {steps : List Step} {r : Registry}
    {outcomes : List (Outcome Reply)} (done : run bound r steps = some outcomes)
    (own : ∀ action ∈ steps, action.Confined) (confined : r.Confined) : OwnTypes steps outcomes := by
  induction steps generalizing r outcomes with
  | nil =>
    cases done
    exact .nil
  | cons action rest ih =>
    obtain ⟨first, begun, others, ran, rfl⟩ := run_cons_eq_some.mp done
    obtain ⟨mine, ownRest⟩ := List.forall_mem_cons.mp own
    obtain ⟨type, isFor, here⟩ := step_confined begun mine confined
    exact .cons ⟨type, isFor, here.within⟩ (ih ran ownRest here.after)

end Session
end Diagnostics.Capability
