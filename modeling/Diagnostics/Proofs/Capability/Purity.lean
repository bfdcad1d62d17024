import Diagnostics.Proofs.Capability.Counters

/-!
# Lookups as queries

A lookup runs whatever its providers do. If none of them, at any depth, files or removes a provider,
the lookup is a query: the table is the one there was before, and all that can have changed are
numbers that providers keep. This also covers lookups whose view is thrown away because it has
another type than was wanted. If moreover no number changed, the lookup can be repeated.
-/
namespace Diagnostics.Capability

/-- By this act a provider is filed or removed. -/
def Act.isMutation : Act → Bool
  | .registered .. | .unregistered .. | .cleared => true
  | .called _ | .kept .. | .asked .. | .began .. | .resolved .. | .unsupported .. => false

/-- By this effect a provider is filed or removed. -/
def Effect.mutates : Effect → Bool
  | .register .. | .unregister _ | .clear => true
  | .number | .text | .self | .const _ | .unit | .counter | .has _ | .resolveNumber _
  | .resolveText _ => false

/-- No provider was filed or removed, nor was it tried. -/
def Journal.Quiet (journal : Journal) : Prop := journal.All fun act => act.isMutation = false

/-- The provider with this type and serial number changed the number that it keeps. -/
def Journal.Counts (journal : Journal) (type : ValueType) (serial : Nat) : Prop :=
  ∃ entry ∈ journal, ∃ content, entry.act = .kept type serial content

theorem Effect.mutates_iff {effect : Effect} :
    effect.mutates ↔ ∃ act : Act, act.isMutation ∧ effect.makes act := by
  constructor
  · intro mutates
    cases effect with
    | register id name condition effect =>
      exact ⟨.registered id ⟨(Rule.mk name condition effect).provider .unit, 0⟩, rfl, rfl⟩
    | unregister id => exact ⟨.unregistered .unit id none, rfl, rfl⟩
    | clear => exact ⟨.cleared, rfl, rfl⟩
    | _ => cases mutates
  · rintro ⟨act, mutation, makes⟩
    cases act <;> cases mutation <;> cases effect <;> first | rfl | cases makes

theorem Effect.eq_counter_iff {effect : Effect} {type : ValueType} {serial content : Nat} :
    effect = .counter ↔ effect.makes (.kept type serial content) := by
  cases effect <;> simp [makes]

theorem Happens.agreeOutside {r next : Registry} {act : Act} {keepers : ValueType → Nat → Prop}
    (happens : Happens r act next) (quiet : act.isMutation = false)
    (counted : ∀ type serial content, act = .kept type serial content → keepers type serial) :
    r.AgreeOutside keepers next := by
  cases happens with
  | kept type serial change => exact .of_keep (counted type serial _ rfl) change
  | registered id provider => cases quiet
  | unregistered type id => cases quiet
  | cleared => cases quiet
  | called _ => exact .refl keepers r
  | asked _ _ => exact .refl keepers r
  | began _ _ => exact .refl keepers r
  | resolved _ _ => exact .refl keepers r
  | unsupported _ _ _ => exact .refl keepers r

/-- Quiet acts change nothing but the numbers that are counted in the journal. -/
theorem Chronicle.agreeOutside {r next : Registry} {journal : Journal}
    (chronicle : Chronicle r journal next) (quiet : journal.Quiet) :
    r.AgreeOutside journal.Counts next := by
  induction chronicle with
  | nil r => exact .refl _ r
  | @cons r next final entry journal happens rest ih =>
    obtain ⟨first, later⟩ := Journal.all_cons.mp quiet
    -- Both parts differ in what the whole journal counts at most, so they can be put together.
    have here : r.AgreeOutside (Journal.Counts (entry :: journal)) next :=
      happens.agreeOutside first fun type serial content same =>
        ⟨entry, List.mem_cons_self, content, same⟩
    refine here.trans ((ih later).mono ?_)
    rintro type serial ⟨other, member, kept⟩
    exact ⟨other, List.mem_cons_of_mem entry member, kept⟩

theorem Registry.AgreeOutside.eq_of_none {keepers : ValueType → Nat → Prop} {r s : Registry}
    (agree : r.AgreeOutside keepers s) (nobody : ∀ type serial, ¬ keepers type serial) : r = s := by
  obtain ⟨table, memories⟩ := r
  obtain ⟨other, others⟩ := s
  have tables : table = other := agree.table
  have numbers : memories = others := by
    funext type
    exact List.ext_getElem? fun serial => agree.memories type serial (nobody type serial)
  rw [tables, numbers]

/-- What can be done later goes the same way in both registries as far as these providers do not
count, and among rules it always does, except for integers that are given. -/
structure Registry.ServesLike (keepers : ValueType → Nat → Prop) (r s : Registry) : Prop where
  spared : ∀ ⦃bound steps outcomes⦄, Session.run bound r steps = some outcomes →
    (∀ outcome ∈ outcomes, outcome.journal.All (Act.Spares keepers)) →
    ∃ others, Session.run bound s steps = some others ∧
      List.Forall₂ (Outcome.Matches (AgreeOutside keepers)) outcomes others
  rules : r.FollowsRules → ∀ ⦃bound steps outcomes⦄, Session.run bound r steps = some outcomes →
    (∀ action ∈ steps, action.FollowsRules) →
    ∃ others, Session.run bound s steps = some others ∧
      List.Forall₂ (fun o p => Session.Reply.Akin o.value p.value ∧
        o.journal.calls = p.journal.calls ∧ o.journal.events = p.journal.events) outcomes others

theorem Registry.AgreeOutside.servesLike {keepers : ValueType → Nat → Prop} {r s : Registry}
    (agree : r.AgreeOutside keepers s) : r.ServesLike keepers s where
  spared bound steps outcomes done spared :=
    Session.run_simulated (agreeOutside_simulation keepers) done spared agree
  rules follows bound steps outcomes done rules := by
    have akin : r.Akin s := agree.mono fun _ _ _ => trivial
    obtain ⟨others, ran, matching⟩ := Session.run_akin rules done follows akin
    refine ⟨others, ran, matching.imp fun o p same => ⟨same.value, ?_, ?_⟩⟩
    · rw [← o.journal.calls_uncounted, same.journal, p.journal.calls_uncounted]
    · rw [← o.journal.events_uncounted, same.journal, p.journal.events_uncounted]

/-- The registry afterwards is the one before, up to numbers that these providers keep. -/
structure Registry.Unchanged (keepers : ValueType → Nat → Prop) (r after : Registry) : Prop where
  table : after.table = r.table
  text : after.text = r.text
  has : ∀ type id, after.has type id = r.has type id
  unregister : ∀ type id, (after.unregister type id).value = (r.unregister type id).value
  onward : r.ServesLike keepers after
  back : after.ServesLike keepers r

theorem Registry.AgreeOutside.unchanged {keepers : ValueType → Nat → Prop} {r after : Registry}
    (agree : r.AgreeOutside keepers after) : r.Unchanged keepers after where
  table := agree.table.symm
  text := congrArg (fun table => Registry.text ⟨table, fun _ => []⟩) agree.table.symm
  has type id := (agree.has type id).symm
  unregister type id := (agree.unregister type id).value.symm
  onward := agree.servesLike
  back := agree.symm.servesLike

section Rules

variable {type : ValueType} {value : type.Carrier} {id : String} {r : Registry}
  {outcome : Outcome Resolution}

/-- If no rule that applied files or removes providers, nothing did. -/
theorem Resolves.quiet (found : Resolves type value id r outcome) (follows : r.FollowsRules)
    (harmless : ∀ rule : Rule, rule.Applied value outcome.journal → rule.effect.mutates = false) :
    outcome.journal.Quiet := by
  obtain ⟨bound, done⟩ := found
  intro entry member
  by_contra mutation
  rw [Bool.not_eq_false] at mutation
  have request : entry.act.isRequest := by
    cases act : entry.act <;> rw [act] at mutation <;> first | rfl | cases mutation
  obtain ⟨rule, applied, makes⟩ :=
    (resolve_explained bound done follows).explained entry member request
  have mutates := Effect.mutates_iff.mpr ⟨entry.act, mutation, makes⟩
  rw [harmless rule applied] at mutates
  cases mutates

/-- If no rule that applied counts, nothing did. -/
theorem Resolves.not_counts (found : Resolves type value id r outcome) (follows : r.FollowsRules)
    (stateless : ∀ rule : Rule, rule.Applied value outcome.journal → rule.effect ≠ .counter)
    (keeper : ValueType) (serial : Nat) : ¬ outcome.journal.Counts keeper serial := by
  rintro ⟨entry, member, content, kept⟩
  obtain ⟨bound, done⟩ := found
  have request : entry.act.isRequest := by
    rw [kept]
    rfl
  obtain ⟨rule, applied, makes⟩ :=
    (resolve_explained bound done follows).explained entry member request
  rw [kept] at makes
  exact stateless rule applied (Effect.eq_counter_iff.mpr makes)

/-- A lookup in which no provider was filed or removed, among rules because no rule that applied
does so, at whatever depth, leaves the table as it was, provider by provider and in their order. So
later requests are answered as if there had been no lookup, up to the numbers that providers count
in it. If nothing was counted the lookup can be repeated: it has the same result, calls the same
providers and tells the log the same. -/
theorem lookup_is_query (found : Resolves type value id r outcome)
    (harmless : outcome.journal.Quiet ∨ r.FollowsRules ∧
      ∀ rule : Rule, rule.Applied value outcome.journal → rule.effect.mutates = false) :
    r.Unchanged outcome.journal.Counts outcome.after ∧
      ((∀ keeper serial, ¬ outcome.journal.Counts keeper serial) ∨ r.FollowsRules ∧
          (∀ rule : Rule, rule.Applied value outcome.journal → rule.effect ≠ .counter) →
        outcome.after = r ∧
          ∀ again, Resolves type value id outcome.after again ↔ again = outcome) := by
  have quiet : outcome.journal.Quiet := by
    rcases harmless with quiet | ⟨follows, harmless⟩
    · exact quiet
    · exact found.quiet follows harmless
  obtain ⟨bound, done⟩ := found
  have agree : r.AgreeOutside outcome.journal.Counts outcome.after :=
    (resolve_told bound done).agreeOutside quiet
  refine ⟨agree.unchanged, fun stateless => ?_⟩
  have nobody : ∀ keeper serial, ¬ outcome.journal.Counts keeper serial := by
    rcases stateless with nobody | ⟨follows, stateless⟩
    · exact nobody
    · exact Resolves.not_counts ⟨bound, done⟩ follows stateless
  have same : outcome.after = r := (agree.eq_of_none nobody).symm
  refine ⟨same, fun again => ?_⟩
  rw [same]
  constructor
  · intro repeated
    exact repeated.unique ⟨bound, done⟩
  · intro identical
    rw [identical]
    exact ⟨bound, done⟩

end Rules

/-- Looks for a text where only a number is to be found. -/
def quoting : Rule := ⟨"quote", .always, .resolveText "size"⟩

def weighing : Rule := ⟨"weigh", .always, .resolveNumber "size"⟩

def measuring : Rule := ⟨"measure", .always, .number⟩

/-- The first view of the size is thrown away since it is no text. -/
theorem lookup_is_query_nested :
    let r := (((Registry.register ∅ "size" (measuring.provider .integer)).after.register "label"
      (quoting.provider .integer)).after.register "label" (weighing.provider .integer)).after
    let value : ValueType.Carrier .integer := (7 : Int32)
    r.FollowsRules ∧ ∃ outcome, Resolves .integer value "label" r outcome ∧
      (∀ rule : Rule, rule.Applied value outcome.journal → rule.effect.mutates = false) ∧
      (∀ rule : Rule, rule.Applied value outcome.journal → rule.effect ≠ .counter) ∧
      outcome.value.as? .integer = some (7 : Int32) ∧
      outcome.journal.calls = ["quote", "measure", "weigh", "measure"] ∧
      outcome.after = r ∧
      ∀ again, Resolves .integer value "label" outcome.after again ↔ again = outcome := by
  intro r value
  have follows : r.FollowsRules :=
    ((Registry.Holds.empty.register ⟨measuring, rfl⟩).register ⟨quoting, rfl⟩).register
      ⟨weighing, rfl⟩
  obtain ⟨outcome, done, number, calls, called⟩ : ∃ outcome,
      resolve 2 .integer value "label" r = some outcome ∧
      outcome.value.as? .integer = some (7 : Int32) ∧
      outcome.journal.calls = ["quote", "measure", "weigh", "measure"] ∧
      outcome.journal.called.map Registration.provider =
        [quoting, measuring, weighing, measuring].map (Rule.provider · .integer) :=
    ⟨_, rfl, rfl, rfl, rfl⟩
  have plain : ∀ known ∈ [quoting, measuring, weighing, measuring],
      known.condition = .always ∧ known.effect.mutates = false ∧ known.effect ≠ .counter := by
    decide
  have known (rule : Rule) (applied : rule.Applied value outcome.journal) (act : Act)
      (makes : rule.effect.makes act) :
      ∃ known ∈ [quoting, measuring, weighing, measuring], known.effect.makes act := by
    obtain ⟨applies, registration, member, follows⟩ := applied
    have among := List.mem_map_of_mem (f := Registration.provider) member
    rw [called, follows] at among
    obtain ⟨known, listed, same⟩ := List.mem_map.mp among
    have congr := Rule.makes_congr same value act
    rw [applies, makes, (plain known listed).1] at congr
    exact ⟨known, listed, congr⟩
  have harmless (rule : Rule) (applied : rule.Applied value outcome.journal) :
      rule.effect.mutates = false := by
    rw [← Bool.not_eq_true, Effect.mutates_iff]
    rintro ⟨act, mutation, makes⟩
    obtain ⟨known, listed, alsoMakes⟩ := known rule applied act makes
    have mutates := Effect.mutates_iff.mpr ⟨act, mutation, alsoMakes⟩
    rw [(plain known listed).2.1] at mutates
    cases mutates
  have stateless (rule : Rule) (applied : rule.Applied value outcome.journal) :
      rule.effect ≠ .counter := by
    intro counter
    have makes : rule.effect.makes (.kept .integer 0 0) := Effect.eq_counter_iff.mp counter
    obtain ⟨known, listed, alsoMakes⟩ := known rule applied _ makes
    exact (plain known listed).2.2 (Effect.eq_counter_iff.mpr alsoMakes)
  obtain ⟨_, repeats⟩ := lookup_is_query ⟨2, done⟩ (.inr ⟨follows, harmless⟩)
  obtain ⟨same, again⟩ := repeats (.inr ⟨follows, stateless⟩)
  exact ⟨follows, outcome, ⟨2, done⟩, harmless, stateless, number, calls, same, again⟩

end Diagnostics.Capability
