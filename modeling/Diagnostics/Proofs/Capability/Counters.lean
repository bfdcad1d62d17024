import Diagnostics.Proofs.Capability.Provenance
import Diagnostics.Proofs.Capability.Simulation

/-!
# What can be told by the numbers that providers keep

Two registries with the same table may differ in what their providers keep. A run in which none of
these providers changes its number again goes the same way in both. Rules do more than that: a
number that a rule keeps only ever becomes an integer that is given, and no rule asks for the
integer that another has given, only for whether there is one. So among rules the same providers
are called and the log is told the same, and only such integers differ.
-/
namespace Diagnostics.Capability

/-- The same providers in both, and outside a set of them, told apart by value type and serial
number, they keep the same numbers. -/
structure Registry.AgreeOutside (keepers : ValueType → Nat → Prop) (r s : Registry) : Prop where
  table : r.table = s.table
  enrolled : ∀ type, (r.memories type).length = (s.memories type).length
  memories : ∀ type serial, ¬ keepers type serial →
    (r.memories type)[serial]? = (s.memories type)[serial]?

/-- The act does not change the number of any of these providers. -/
def Act.Spares (keepers : ValueType → Nat → Prop) : Act → Prop
  | .kept type serial _ => ¬ keepers type serial
  | _ => True

namespace Registry.AgreeOutside

variable {keepers : ValueType → Nat → Prop} {r s : Registry}

theorem refl (keepers : ValueType → Nat → Prop) (r : Registry) : r.AgreeOutside keepers r :=
  ⟨rfl, fun _ => rfl, fun _ _ _ => rfl⟩

theorem trans {t : Registry} (first : r.AgreeOutside keepers s)
    (second : s.AgreeOutside keepers t) : r.AgreeOutside keepers t where
  table := first.table.trans second.table
  enrolled type := (first.enrolled type).trans (second.enrolled type)
  memories type serial outside :=
    (first.memories type serial outside).trans (second.memories type serial outside)

/-- Who keeps one more number differs in no more than that number. -/
theorem of_keep {type : ValueType} {serial : Nat} (keeps : keepers type serial)
    (change : Nat → Nat) : r.AgreeOutside keepers (r.keep type serial change).after where
  table := rfl
  enrolled other := by
    unfold keep
    dsimp only
    split
    · next same => rw [List.length_set, same]
    · rfl
  memories other place outside := by
    unfold keep
    dsimp only
    split
    · next same =>
      subst same
      have differs : serial ≠ place := fun same => outside (same ▸ keeps)
      rw [List.getElem?_set_ne differs]
    · rfl

variable (agree : r.AgreeOutside keepers s)
include agree

theorem symm : s.AgreeOutside keepers r where
  table := agree.table.symm
  enrolled type := (agree.enrolled type).symm
  memories type serial outside := (agree.memories type serial outside).symm

theorem mono {more : ValueType → Nat → Prop}
    (within : ∀ type serial, keepers type serial → more type serial) : r.AgreeOutside more s where
  table := agree.table
  enrolled := agree.enrolled
  memories type serial outside := agree.memories type serial fun keeps =>
    outside (within type serial keeps)

theorem held (type : ValueType) (id : String) : r.held type id = s.held type id :=
  congrArg (Table.held · type id) agree.table

theorem has (type : ValueType) (id : String) : r.has type id = s.has type id := by
  rw [Registry.has, Registry.has, agree.held]

theorem query (type : ValueType) (id : String) :
    (r.query type id).Matches (AgreeOutside keepers) (s.query type id) := by
  refine ⟨agree.has type id, ?_, agree⟩
  rw [Registry.query, Registry.query, agree.has]

theorem register (id : String) (provider : Provider) :
    (r.register id provider).Matches (AgreeOutside keepers) (s.register id provider) := by
  have enrol : r.enrol provider = s.enrol provider := by
    rw [Registry.enrol, Registry.enrol, agree.enrolled]
  refine ⟨rfl, by rw [Registry.register, Registry.register, enrol], ?_, ?_, ?_⟩
  · rw [Registry.register, Registry.register, enrol, agree.table]
  · intro type
    unfold Registry.register
    dsimp only
    split <;> simp [agree.enrolled]
  · intro type serial outside
    unfold Registry.register
    dsimp only
    split
    · rw [List.getElem?_append, List.getElem?_append, agree.enrolled,
        agree.memories type serial outside]
    · exact agree.memories type serial outside

theorem unregister (type : ValueType) (id : String) :
    (r.unregister type id).Matches (AgreeOutside keepers) (s.unregister type id) := by
  unfold Registry.unregister
  rw [agree.table, agree.held]
  split
  · exact ⟨rfl, rfl, rfl, agree.enrolled, agree.memories⟩
  · exact ⟨rfl, rfl, agree⟩

theorem clear : r.clear.Matches (AgreeOutside keepers) s.clear :=
  ⟨rfl, rfl, rfl, agree.enrolled, agree.memories⟩

/-- If the provider is one of those that differ, the new number may differ, and no other. -/
theorem keep_after (type : ValueType) (serial : Nat) (change : Nat → Nat)
    (same : ¬ keepers type serial →
      (r.keep type serial change).value = (s.keep type serial change).value) :
    (r.keep type serial change).after.AgreeOutside keepers
      (s.keep type serial change).after where
  table := agree.table
  enrolled other := by
    unfold Registry.keep
    dsimp only
    split <;> simp [agree.enrolled]
  memories other place outside := by
    unfold Registry.keep at same ⊢
    dsimp only at same ⊢
    split
    · next kind =>
      subst kind
      rw [List.getElem?_set, List.getElem?_set]
      split
      · next here =>
        subst here
        rw [same outside, agree.enrolled]
      · exact agree.memories other place outside
    · exact agree.memories other place outside

theorem keep_value {type : ValueType} {serial : Nat} (outside : ¬ keepers type serial)
    (change : Nat → Nat) :
    (r.keep type serial change).value = (s.keep type serial change).value := by
  unfold Registry.keep
  dsimp only
  rw [List.getD_eq_getElem?_getD, List.getD_eq_getElem?_getD, agree.memories type serial outside]

theorem keep {type : ValueType} {serial : Nat} (outside : ¬ keepers type serial)
    (change : Nat → Nat) :
    (r.keep type serial change).Matches (AgreeOutside keepers) (s.keep type serial change) where
  value := agree.keep_value outside change
  journal := congrArg (fun content => [Entry.mk 0 (.kept type serial content)])
    (agree.keep_value outside change)
  after := agree.keep_after type serial change fun _ => agree.keep_value outside change

end Registry.AgreeOutside

/-- Acts that leave the numbers in question alone do not tell the registries apart. -/
theorem Registry.agreeOutside_simulation (keepers : ValueType → Nat → Prop) :
    Simulation (AgreeOutside keepers) (Act.Spares keepers) where
  held agree _ := agree.held _ _
  query agree _ := agree.query _ _
  register agree _ := agree.register _ _
  unregister agree _ := agree.unregister _ _
  clear agree _ := agree.clear
  keep agree all := agree.keep (Journal.all_cons.mp all).1 _

/-- The same providers in both, whatever numbers they keep. -/
def Registry.Akin : Registry → Registry → Prop := AgreeOutside fun _ _ => True

/-- The act without the number that is kept. -/
def Act.uncounted : Act → Act
  | .kept type serial _ => .kept type serial 0
  | act => act

namespace Journal

def uncounted (journal : Journal) : Journal :=
  journal.map fun entry => ⟨entry.depth, entry.act.uncounted⟩

variable {past future before later : Journal}

theorem uncounted_append (same : past.uncounted = before.uncounted)
    (onward : future.uncounted = later.uncounted) :
    uncounted (past ++ future) = uncounted (before ++ later) := by
  unfold uncounted at same onward ⊢
  rw [List.map_append, List.map_append, same, onward]

theorem uncounted_cons (first : Entry) (onward : future.uncounted = later.uncounted) :
    uncounted (first :: future) = uncounted (first :: later) := by
  have behind : uncounted ([first] ++ future) = uncounted ([first] ++ later) :=
    uncounted_append rfl onward
  exact behind

theorem uncounted_deepen (same : past.uncounted = before.uncounted) :
    uncounted (past.map Entry.deepen) = uncounted (before.map Entry.deepen) := by
  have swap (journal : Journal) :
      uncounted (journal.map Entry.deepen) = journal.uncounted.map Entry.deepen := by
    simp [uncounted, Entry.deepen]
  rw [swap, swap, same]

/-- The providers that were called can be told without the numbers. -/
theorem calls_uncounted (journal : Journal) : journal.uncounted.calls = journal.calls := by
  unfold calls uncounted
  rw [List.filterMap_map]
  refine List.filterMap_congr fun entry _ => ?_
  obtain ⟨depth, act⟩ := entry
  cases act <;> rfl

theorem events_uncounted (journal : Journal) : journal.uncounted.events = journal.events := by
  unfold events uncounted
  rw [List.filterMap_map]
  refine List.filterMap_congr fun entry _ => ?_
  obtain ⟨depth, act⟩ := entry
  cases act <;> rfl

end Journal

/-- The same up to the integer that is given. -/
inductive Resolution.Akin : Resolution → Resolution → Prop where
  | same (found : Resolution) : Akin found found
  | integers (m n : Int32) : Akin (some ⟨.integer, m⟩) (some ⟨.integer, n⟩)

namespace Resolution.Akin

variable {found other : Resolution}

theorem isSome (akin : found.Akin other) : found.isSome = other.isSome := by
  cases akin <;> rfl

theorem closing (akin : found.Akin other) (type : ValueType) (id : String) (candidates : Nat) :
    closing type id candidates found = closing type id candidates other := by
  cases akin <;> rfl

theorem text (akin : found.Akin other) : found.as? .text = other.as? .text := by
  cases akin <;> rfl

theorem integer (akin : found.Akin other) :
    Resolution.Akin ((found.as? .integer).map (View.mk .integer))
      ((other.as? .integer).map (View.mk .integer)) := by
  cases akin with
  | same => exact .same _
  | integers m n => exact .integers m n

end Resolution.Akin

/-- Results that correspond, journals that differ in kept numbers only, and so do the registries
afterwards. -/
structure Outcome.Akin {α : Type} (corresponds : α → α → Prop) (o p : Outcome α) : Prop where
  value : corresponds o.value p.value
  journal : o.journal.uncounted = p.journal.uncounted
  after : o.after.Akin p.after

theorem Outcome.Akin.behind {α : Type} {corresponds : α → α → Prop} {past before : Journal}
    {o p : Outcome α} (akin : o.Akin corresponds p) (same : past.uncounted = before.uncounted) :
    (o.behind past).Akin corresponds (p.behind before) :=
  ⟨akin.value, Journal.uncounted_append same akin.journal, akin.after⟩

/-- A way to look up that, among rules, does not depend on the numbers they keep. -/
def Lookup.Akin (lookup : Lookup) : Prop :=
  ∀ ⦃type value id r s outcome⦄, lookup type value id r = some outcome → r.FollowsRules →
    r.Akin s → ∃ other, lookup type value id s = some other ∧ outcome.Akin Resolution.Akin other

section Akin

variable {lookup : Lookup} (akinLookup : lookup.Akin)
include akinLookup

theorem Effect.run_akin {effect : Effect} {type : ValueType} {value : type.Carrier}
    {keeper : ValueType} {serial : Nat} {r s : Registry}
    {outcome : Outcome (Option (effect.gives type).Carrier)}
    (done : (effect.script type value).run lookup keeper serial r = some outcome)
    (follows : r.FollowsRules) (akin : r.Akin s) :
    ∃ other, (effect.script type value).run lookup keeper serial s = some other ∧
      outcome.Akin (fun given again => Resolution.Akin (given.map (View.mk (effect.gives type)))
        (again.map (View.mk (effect.gives type)))) other := by
  have journalsEqual {past before : Journal} (same : past = before) :
      Journal.uncounted (past ++ []) = Journal.uncounted (before ++ []) := by rw [same]
  cases effect with
  | resolveNumber id =>
    obtain ⟨inner, found, onward⟩ := Option.bind_eq_some_iff.mp done
    cases onward
    obtain ⟨other, again, same⟩ := akinLookup found follows akin
    exact ⟨_, Option.bind_eq_some_iff.mpr ⟨other, again, rfl⟩, same.value.integer,
      Journal.uncounted_append (Journal.uncounted_deepen same.journal) rfl, same.after⟩
  | resolveText id =>
    obtain ⟨inner, found, onward⟩ := Option.bind_eq_some_iff.mp done
    cases onward
    obtain ⟨other, again, same⟩ := akinLookup found follows akin
    refine ⟨_, Option.bind_eq_some_iff.mpr ⟨other, again, rfl⟩, ?_,
      Journal.uncounted_append (Journal.uncounted_deepen same.journal) rfl, same.after⟩
    rw [same.value.text]
    exact .same _
  | register id name condition effect =>
    cases done
    have same := Registry.AgreeOutside.register akin id
      ((Rule.mk name condition effect).provider type)
    exact ⟨_, rfl, .same _, journalsEqual same.journal, same.after⟩
  | unregister id =>
    cases done
    have same := Registry.AgreeOutside.unregister akin type id
    refine ⟨_, rfl, ?_, journalsEqual same.journal, same.after⟩
    rw [same.value]
    exact .same _
  | clear =>
    cases done
    have same := Registry.AgreeOutside.clear akin
    exact ⟨_, rfl, .same _, rfl, same.after⟩
  | counter =>
    -- The only request whose answer depends on a kept number, and it is given away at once.
    cases done
    have after := Registry.AgreeOutside.keep_after akin keeper serial (· + 1)
      fun outside => absurd trivial outside
    exact ⟨_, rfl, .integers _ _, rfl, after⟩
  | has id =>
    cases done
    have same := Registry.AgreeOutside.query akin type id
    refine ⟨_, rfl, ?_, journalsEqual same.journal, same.after⟩
    rw [same.value]
    exact .same _
  | number | text | self | const _ | unit =>
    cases done
    exact ⟨_, rfl, .same _, rfl, akin⟩

theorem Registration.ask_akin {type : ValueType} {value : type.Carrier} {rule : Rule}
    {serial : Nat} {r s : Registry} {outcome : Outcome Resolution}
    (done : Registration.ask lookup type value ⟨rule.provider type, serial⟩ r = some outcome)
    (follows : r.FollowsRules) (akin : r.Akin s) :
    ∃ other, Registration.ask lookup type value ⟨rule.provider type, serial⟩ s = some other ∧
      outcome.Akin Resolution.Akin other := by
  have takes : type = (rule.provider type).takes := rfl
  obtain ⟨own, ran, rfl⟩ := (Registration.ask_eq_some takes).mp done
  by_cases applies : rule.condition.holds type value
  · rw [Rule.run_of_holds applies] at ran
    obtain ⟨other, again, same⟩ := Effect.run_akin akinLookup ran follows akin
    refine ⟨_, (Registration.ask_eq_some takes).mpr ⟨other, ?_, rfl⟩, same.value,
      Journal.uncounted_cons _ same.journal, same.after⟩
    rw [Rule.run_of_holds applies]
    exact again
  · rw [Rule.run_of_not_holds applies] at ran
    cases ran
    refine ⟨_, (Registration.ask_eq_some takes).mpr ⟨⟨none, s, []⟩, ?_, rfl⟩, .same _, rfl, akin⟩
    rw [Rule.run_of_not_holds applies]
    rfl

theorem askInTurn_akin (explained : lookup.Explained) {type : ValueType} {value : type.Carrier}
    (candidates : List Registration) {r s : Registry} {outcome : Outcome Resolution}
    (rules : ∀ candidate ∈ candidates, ∃ rule : Rule, candidate.provider = rule.provider type)
    (done : askInTurn lookup type value candidates r = some outcome) (follows : r.FollowsRules)
    (akin : r.Akin s) :
    ∃ other, askInTurn lookup type value candidates s = some other ∧
      outcome.Akin Resolution.Akin other := by
  induction candidates generalizing r s outcome with
  | nil =>
    cases done
    exact ⟨_, rfl, .same _, rfl, akin⟩
  | cons candidate others ih =>
    obtain ⟨first, asked, goes⟩ := askInTurn_cons_eq_some.mp done
    obtain ⟨⟨rule, same⟩, others⟩ := List.forall_mem_cons.mp rules
    obtain ⟨provider, serial⟩ := candidate
    subst same
    obtain ⟨second, again, turn⟩ := Registration.ask_akin akinLookup asked follows akin
    rcases goes with ⟨answered, rfl⟩ | ⟨declined, rest, ran, rfl⟩
    · have answers : second.value.isSome := turn.value.isSome ▸ answered
      exact ⟨second, askInTurn_cons_eq_some.mpr ⟨second, again, .inl ⟨answers, rfl⟩⟩, turn⟩
    · have declines : second.value = none := by
        have nothing := turn.value.isSome
        rw [declined] at nothing
        simpa using nothing.symm
      have after := (Registration.ask_explained explained asked follows).follows
      obtain ⟨other, further, onward⟩ := ih others ran after turn.after
      exact ⟨_, askInTurn_cons_eq_some.mpr ⟨second, again, .inr ⟨declines, other, further, rfl⟩⟩,
        onward.behind turn.journal⟩

end Akin

/-- Among rules a lookup does not depend on the numbers they keep, except for an integer that it
gives. -/
theorem resolve_akin (bound : Nat) : (resolve bound).Akin := by
  induction bound with
  | zero =>
    intro type value id r s outcome done
    cases done
  | succ bound ih =>
    intro type value id r s outcome done follows akin
    obtain ⟨inTurn, ran, rfl⟩ := resolve_succ_eq_some.mp done
    have rules := follows type id
    have candidates := Registry.AgreeOutside.held akin type id
    obtain ⟨other, again, same⟩ :=
      askInTurn_akin ih (resolve_explained bound) _ rules ran follows akin
    have closed := same.value.closing type id (r.held type id).length
    rw [candidates] at again
    refine ⟨_, resolve_succ_eq_some.mpr ⟨other, again, rfl⟩, same.value, ?_, same.after⟩
    dsimp only
    rw [closed, candidates]
    exact Journal.uncounted_append (Journal.uncounted_cons _ same.journal) rfl

namespace Session

/-- If the step files a provider, the provider follows a rule. -/
def Step.FollowsRules : Step → Prop
  | .register _ provider => ∃ rule : Rule, provider = rule.provider provider.takes
  | _ => True

/-- The same up to an integer that a lookup gives. -/
inductive Reply.Akin : Reply → Reply → Prop where
  | same (reply : Reply) : Akin reply reply
  | resolution {found other : Resolution} (akin : found.Akin other) :
      Akin (.resolution found) (.resolution other)

theorem step_akin {bound : Nat} {action : Step} {r s : Registry} {outcome : Outcome Reply}
    (rules : action.FollowsRules) (done : step bound r action = some outcome)
    (follows : r.FollowsRules) (akin : r.Akin s) :
    outcome.after.FollowsRules ∧
      ∃ other, step bound s action = some other ∧ outcome.Akin Reply.Akin other := by
  cases action with
  | register id provider =>
    cases done
    have same := Registry.AgreeOutside.register akin id provider
    exact ⟨follows.register rules, _, rfl, .same _, congrArg _ same.journal, same.after⟩
  | has type id =>
    cases done
    have same := Registry.AgreeOutside.query akin type id
    refine ⟨follows, _, rfl, ?_, congrArg _ same.journal, same.after⟩
    rw [same.value]
    exact .same _
  | unregister type id =>
    cases done
    have same := Registry.AgreeOutside.unregister akin type id
    refine ⟨follows.unregister type id, _, rfl, ?_, congrArg _ same.journal, same.after⟩
    rw [same.value]
    exact .same _
  | resolve subject id =>
    rcases step_resolve_eq_some.mp done with ⟨view, built, found, ran, rfl⟩ | ⟨fault, built, rfl⟩
    · obtain ⟨other, again, same⟩ := resolve_akin bound ran follows akin
      exact ⟨(resolve_explained bound ran follows).follows, _,
        step_resolve_eq_some.mpr (.inl ⟨view, built, other, again, rfl⟩),
        .resolution same.value, same.journal, same.after⟩
    · exact ⟨follows, _, step_resolve_eq_some.mpr (.inr ⟨fault, built, rfl⟩), .same _, rfl, akin⟩
  | clear =>
    cases done
    have same := Registry.AgreeOutside.clear akin
    exact ⟨.clear, _, rfl, .same _, rfl, same.after⟩

/-- Among rules a run does not depend on the numbers they keep, except for integers that lookups
give. -/
theorem run_akin {bound : Nat} {steps : List Step} {r s : Registry}
    {outcomes : List (Outcome Reply)} (rules : ∀ action ∈ steps, action.FollowsRules)
    (done : run bound r steps = some outcomes) (follows : r.FollowsRules) (akin : r.Akin s) :
    ∃ others, run bound s steps = some others ∧
      List.Forall₂ (Outcome.Akin Reply.Akin) outcomes others := by
  induction steps generalizing r s outcomes with
  | nil =>
    cases done
    exact ⟨[], rfl, .nil⟩
  | cons action rest ih =>
    obtain ⟨first, begun, remaining, ran, rfl⟩ := run_cons_eq_some.mp done
    obtain ⟨here, later⟩ := List.forall_mem_cons.mp rules
    obtain ⟨onward, second, again, same⟩ := step_akin here begun follows akin
    obtain ⟨others, further, alike⟩ := ih later ran onward same.after
    exact ⟨second :: others, run_cons_eq_some.mpr ⟨second, again, others, further, rfl⟩,
      .cons same alike⟩

end Session
end Diagnostics.Capability
