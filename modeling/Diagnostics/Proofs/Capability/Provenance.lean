import Diagnostics.Capability.Rule
import Diagnostics.Proofs.Capability.Bound

/-!
# Where requests come from

In a lookup among rules, every request to the registry is made by a rule that was called and
applied, and the effect of this rule is the one that makes such requests. So what was not done in a
lookup can be told from which rules applied in it. Rules register rules only, so this holds at any
depth.
-/
namespace Diagnostics.Capability

/-- The effect makes requests of this kind to the registry, apart from lookups. -/
def Effect.makes : Effect → Act → Bool
  | .counter, .kept .. => true
  | .has _, .asked .. => true
  | .unregister _, .unregistered .. => true
  | .clear, .cleared => true
  | .register .., .registered .. => true
  | _, _ => false

/-- The first thing that the script does is a request of this kind. -/
def Script.makes {gives : ValueType} : Script gives → Act → Bool
  | .keep .., .kept .. => true
  | .has .., .asked .. => true
  | .unregister .., .unregistered .. => true
  | .clear _, .cleared => true
  | .register .., .registered .. => true
  | _, _ => false

theorem Effect.script_makes (effect : Effect) (type : ValueType) (value : type.Carrier)
    (act : Act) : (effect.script type value).makes act = effect.makes act := by
  cases effect <;> cases act <;> rfl

theorem Rule.provider_makes (rule : Rule) (type : ValueType) (value : type.Carrier) (act : Act) :
    ((rule.provider type).run value).makes act =
      (rule.condition.holds type value && rule.effect.makes act) := by
  by_cases applies : rule.condition.holds type value
  · rw [applies, Bool.true_and, ← rule.effect.script_makes type value]
    exact congrArg (Script.makes · act) (run_of_holds applies)
  · have declined := congrArg (Script.makes · act) (run_of_not_holds applies)
    rw [Bool.not_eq_true] at applies
    rw [applies, Bool.false_and]
    exact declined

/-- Which requests a rule makes can be told from its provider. -/
theorem Rule.makes_congr {rule other : Rule} {type : ValueType}
    (same : rule.provider type = other.provider type) (value : type.Carrier) (act : Act) :
    (rule.condition.holds type value && rule.effect.makes act) =
      (other.condition.holds type value && other.effect.makes act) := by
  have told (provider : Provider) (same : provider = other.provider type)
      (takes : type = provider.takes) :
      (provider.run (takes ▸ value)).makes act = ((other.provider type).run value).makes act := by
    subst same
    rfl
  rw [← Rule.provider_makes, ← Rule.provider_makes]
  exact told _ same rfl

/-- Every provider follows a rule for the type that it is held for. -/
def Registry.FollowsRules : Registry → Prop :=
  Registry.Holds fun type _ provider => ∃ rule : Rule, provider = rule.provider type

/-- The providers that were called, in lookups inside lookups too. -/
def Journal.called (journal : Journal) : List Registration :=
  journal.filterMap fun entry =>
    match entry.act with
    | .called registration => some registration
    | _ => none

/-- In a lookup for the value the rule was called, and it applies to the value. -/
structure Rule.Applied (rule : Rule) {type : ValueType} (value : type.Carrier) (journal : Journal) :
    Prop where
  applies : rule.condition.holds type value
  called : ∃ registration ∈ journal.called, registration.provider = rule.provider type

/-- Some rule that applied makes requests like this one. -/
def Journal.Explains (journal : Journal) {type : ValueType} (value : type.Carrier) (act : Act) :
    Prop :=
  ∃ rule : Rule, rule.Applied value journal ∧ rule.effect.makes act

/-- Requests were made by rules that applied, and there are only rules afterwards. -/
structure Outcome.Explained {α : Type} {type : ValueType} (value : type.Carrier)
    (outcome : Outcome α) : Prop where
  follows : outcome.after.FollowsRules
  explained : ∀ entry ∈ outcome.journal, entry.act.isRequest →
    outcome.journal.Explains value entry.act

/-- A way to look up among rules in which every request is explained. -/
def Lookup.Explained (lookup : Lookup) : Prop :=
  ∀ ⦃type value id r outcome⦄, lookup type value id r = some outcome → r.FollowsRules →
    outcome.Explained value

section Explains

variable {type : ValueType} {value : type.Carrier} {act : Act} {past future : Journal}

theorem Journal.called_append (past future : Journal) :
    called (past ++ future) = past.called ++ future.called :=
  List.filterMap_append

theorem Journal.called_deepen (journal : Journal) :
    called (journal.map Entry.deepen) = journal.called :=
  List.filterMap_map

theorem Journal.Explains.mono (explains : past.Explains value act)
    (part : past.called ⊆ future.called) : future.Explains value act := by
  obtain ⟨rule, ⟨applies, registration, called, follows⟩, makes⟩ := explains
  exact ⟨rule, ⟨applies, registration, part called, follows⟩, makes⟩

theorem Journal.Explains.append_left (explains : past.Explains value act) :
    Journal.Explains (past ++ future) value act := by
  refine explains.mono ?_
  rw [Journal.called_append]
  exact List.subset_append_left _ _

theorem Journal.Explains.append_right (explains : future.Explains value act) :
    Journal.Explains (past ++ future) value act := by
  refine explains.mono ?_
  rw [Journal.called_append]
  exact List.subset_append_right _ _

theorem Journal.Explains.cons (explains : future.Explains value act) (first : Entry) :
    Journal.Explains (first :: future) value act := by
  have behind : Journal.Explains ([first] ++ future) value act := explains.append_right
  exact behind

theorem Journal.Explains.deepen (explains : past.Explains value act) :
    Journal.Explains (past.map Entry.deepen) value act := by
  refine explains.mono ?_
  rw [Journal.called_deepen]
  exact List.Subset.refl _

end Explains

section Explained

variable {lookup : Lookup} (explained : lookup.Explained)
include explained

/-- What happens while an effect takes place is explained by lookups inside, or is its own
request. -/
theorem Effect.run_explained {effect : Effect} {type : ValueType} {value : type.Carrier}
    {keeper : ValueType} {serial : Nat} {r : Registry}
    {outcome : Outcome (Option (effect.gives type).Carrier)}
    (done : (effect.script type value).run lookup keeper serial r = some outcome)
    (follows : r.FollowsRules) :
    outcome.after.FollowsRules ∧ ∀ entry ∈ outcome.journal, entry.act.isRequest →
      effect.makes entry.act ∨ outcome.journal.Explains value entry.act := by
  have lookedUp {id : String} {inner : Outcome Resolution}
      (found : lookup type value id r = some inner) : inner.after.FollowsRules ∧
        ∀ entry ∈ inner.journal.map Entry.deepen ++ [], entry.act.isRequest →
          Journal.Explains (inner.journal.map Entry.deepen ++ []) value entry.act := by
    obtain ⟨after, requests⟩ := explained found follows
    refine ⟨after, ?_⟩
    rw [List.append_nil]
    intro entry member request
    obtain ⟨recorded, mem, rfl⟩ := List.mem_map.mp member
    exact (requests recorded mem request).deepen
  cases effect with
  | resolveNumber id =>
    obtain ⟨inner, found, onward⟩ := Option.bind_eq_some_iff.mp done
    cases onward
    obtain ⟨after, requests⟩ := lookedUp found
    exact ⟨after, fun entry member request => .inr (requests entry member request)⟩
  | resolveText id =>
    obtain ⟨inner, found, onward⟩ := Option.bind_eq_some_iff.mp done
    cases onward
    obtain ⟨after, requests⟩ := lookedUp found
    exact ⟨after, fun entry member request => .inr (requests entry member request)⟩
  | register id name condition effect =>
    cases done
    have new : ∃ rule : Rule, (Rule.mk name condition effect).provider type = rule.provider type :=
      ⟨_, rfl⟩
    refine ⟨follows.register new, ?_⟩
    simp [Outcome.behind, Registry.register, makes]
  | unregister id =>
    cases done
    refine ⟨follows.unregister type id, ?_⟩
    simp [Outcome.behind, Registry.unregister_journal, makes]
  | clear =>
    cases done
    exact ⟨.clear, by simp [Outcome.behind, Registry.clear, makes]⟩
  | counter =>
    cases done
    exact ⟨follows.keep keeper serial _, by simp [Outcome.behind, Registry.keep, makes]⟩
  | has id =>
    cases done
    exact ⟨follows, by simp [Outcome.behind, Registry.query, makes]⟩
  | number | text | self | const _ | unit =>
    cases done
    exact ⟨follows, by simp⟩

theorem Registration.ask_explained {type : ValueType} {value : type.Carrier} {rule : Rule}
    {serial : Nat} {r : Registry} {outcome : Outcome Resolution}
    (done : Registration.ask lookup type value ⟨rule.provider type, serial⟩ r = some outcome)
    (follows : r.FollowsRules) : outcome.Explained value := by
  have takes : type = (rule.provider type).takes := rfl
  obtain ⟨own, ran, rfl⟩ := (Registration.ask_eq_some takes).mp done
  by_cases applies : rule.condition.holds type value
  · rw [Rule.run_of_holds applies] at ran
    obtain ⟨after, requests⟩ := Effect.run_explained explained ran follows
    refine ⟨after, fun entry member request => ?_⟩
    rcases List.mem_cons.mp member with rfl | inside
    · cases request
    · -- Either this rule made the request itself, or a lookup of its own has explained it.
      rcases requests entry inside request with makes | explains
      · exact ⟨rule, ⟨applies, _, List.mem_cons_self, rfl⟩, makes⟩
      · exact explains.cons _
  · rw [Rule.run_of_not_holds applies] at ran
    cases ran
    refine ⟨follows, fun entry member request => ?_⟩
    cases List.mem_singleton.mp member
    cases request

theorem askInTurn_explained {type : ValueType} {value : type.Carrier}
    (candidates : List Registration) {r : Registry} {outcome : Outcome Resolution}
    (rules : ∀ candidate ∈ candidates, ∃ rule : Rule, candidate.provider = rule.provider type)
    (done : askInTurn lookup type value candidates r = some outcome) (follows : r.FollowsRules) :
    outcome.Explained value := by
  induction candidates generalizing r outcome with
  | nil =>
    cases done
    exact ⟨follows, List.forall_mem_nil _⟩
  | cons candidate others ih =>
    obtain ⟨first, asked, goes⟩ := askInTurn_cons_eq_some.mp done
    obtain ⟨⟨rule, same⟩, others⟩ := List.forall_mem_cons.mp rules
    obtain ⟨provider, serial⟩ := candidate
    subst same
    have turn := Registration.ask_explained explained asked follows
    rcases goes with ⟨_, rfl⟩ | ⟨_, rest, ran, rfl⟩
    · exact turn
    · have later := ih others ran turn.follows
      refine ⟨later.follows, fun entry member request => ?_⟩
      rcases List.mem_append.mp member with before | after
      · exact (turn.explained entry before request).append_left
      · exact (later.explained entry after request).append_right

end Explained

theorem closing_isRequest (type : ValueType) (id : String) (candidates : Nat)
    (resolution : Resolution) : (closing type id candidates resolution).isRequest = false := by
  cases resolution <;> rfl

/-- Among rules, only rules that apply make requests, in lookups inside lookups too. -/
theorem resolve_explained (bound : Nat) : (resolve bound).Explained := by
  induction bound with
  | zero =>
    intro type value id r outcome done
    cases done
  | succ bound ih =>
    intro type value id r outcome done follows
    obtain ⟨inTurn, ran, rfl⟩ := resolve_succ_eq_some.mp done
    have turns := askInTurn_explained ih _ (follows type id) ran follows
    refine ⟨turns.follows, fun entry member request => ?_⟩
    rcases List.mem_append.mp member with before | closed
    · rcases List.mem_cons.mp before with rfl | inside
      · cases request
      · exact ((turns.explained entry inside request).cons _).append_left
    · rw [List.mem_singleton.mp closed, closing_isRequest] at request
      cases request

end Diagnostics.Capability
