import Diagnostics.Proofs.Capability.FirstMatch

/-!
# Type tags

A provider tests the type of the value before anything else, and a value that fails the test makes
it decline. Such a decline never happens: whoever is asked was filed for values of the type that is
asked for. This holds for what is held at any moment and for what a lookup has taken down to ask,
since that was held when the lookup began.
-/
namespace Diagnostics.Capability

/-- The provider's own function, run on a value in some registry. -/
def Registration.runOwn (registration : Registration) (lookup : Lookup)
    (value : registration.provider.takes.Carrier) (now : Registry) :
    Option (Outcome (Option registration.provider.gives.Carrier)) :=
  (registration.provider.run value).run lookup registration.provider.takes registration.serial now

/-- The turn of a provider, from what its own function comes to. -/
def Registration.report (registration : Registration)
    (own : Outcome (Option registration.provider.gives.Carrier)) : Outcome Resolution :=
  ⟨own.value.map (View.mk registration.provider.gives), own.after,
    ⟨0, .called registration⟩ :: own.journal⟩

/-- The journal records that the provider was filed under the id. -/
def Journal.Files (journal : Journal) (id : String) (registration : Registration) : Prop :=
  ∃ entry ∈ journal, entry.act = .registered id registration

/-- The provider was filed for values of this type. Whenever it is asked for one, in whatever
registry, its own function is run on that value, and it declines only if its function does. -/
structure Registration.Sound (registration : Registration) (past : Journal) (type : ValueType)
    (id : String) : Prop where
  filed : past.Files id registration
  takes : type = registration.provider.takes
  asked : ∀ (lookup : Lookup) (value : type.Carrier) (now : Registry),
    registration.ask lookup type value now =
      (registration.runOwn lookup (takes ▸ value) now).map registration.report
  declines : ∀ (lookup : Lookup) (value : type.Carrier) (now : Registry) (outcome),
    registration.ask lookup type value now = some outcome → outcome.value = none →
    ∃ own, registration.runOwn lookup (takes ▸ value) now = some own ∧ own.value = none

/-- The view has the type that the provider was filed with, and no other, and it is what the
provider's own function produced. -/
def Turn.Produces (turn : Turn) (resolution : Resolution) : Prop :=
  ∃ produced, turn.own.value = some produced ∧ resolution.isSome ∧
    ∀ (wanted : ValueType) (view : wanted.Carrier), resolution.as? wanted = some view ↔
      ∃ same : turn.registration.provider.gives = wanted, same ▸ produced = view

theorem Registration.ask_of_eq {registration : Registration} {type : ValueType}
    (takes : type = registration.provider.takes) (lookup : Lookup) (value : type.Carrier)
    (now : Registry) : registration.ask lookup type value now =
      (registration.runOwn lookup (takes ▸ value) now).map registration.report := by
  ext outcome
  rw [Registration.ask_eq_some takes, Option.map_eq_some_iff]
  rfl

theorem Registration.sound {registration : Registration} {past : Journal} {type : ValueType}
    {id : String} (filed : past.Files id registration)
    (takes : type = registration.provider.takes) : registration.Sound past type id where
  filed := filed
  takes := takes
  asked := Registration.ask_of_eq takes
  declines lookup value now outcome asked nothing := by
    rw [Registration.ask_of_eq takes, Option.map_eq_some_iff] at asked
    obtain ⟨own, ran, rfl⟩ := asked
    exact ⟨own, ran, Option.map_eq_none_iff.mp nothing⟩

/-- Nothing comes to be held but by being filed there. -/
theorem Happens.mem_held {r next : Registry} {act : Act} (happens : Happens r act next)
    {type : ValueType} {id : String} {registration : Registration}
    (held : registration ∈ next.held type id) :
    registration ∈ r.held type id ∨ act = .registered id registration := by
  cases happens with
  | registered name provider =>
    rw [Registry.held_register] at held
    split at held
    · next same =>
      obtain ⟨rfl, rfl⟩ := same
      rcases List.mem_append.mp held with old | new
      · exact .inl old
      · rw [List.mem_singleton.mp new]
        exact .inr rfl
    · exact .inl held
  | unregistered other name =>
    rw [Registry.held_unregister] at held
    split at held
    · cases held
    · exact .inl held
  | cleared => cases held
  | kept _ _ _ => exact .inl held
  | called _ => exact .inl held
  | asked _ _ => exact .inl held
  | began _ _ => exact .inl held
  | resolved _ _ => exact .inl held
  | unsupported _ _ _ => exact .inl held

theorem Chronicle.mem_held {r next : Registry} {journal : Journal}
    (chronicle : Chronicle r journal next) {type : ValueType} {id : String}
    {registration : Registration} (held : registration ∈ next.held type id) :
    registration ∈ r.held type id ∨ journal.Files id registration := by
  induction chronicle with
  | nil => exact .inl held
  | @cons r next final entry journal happens _ ih =>
    rcases ih held with before | ⟨later, member, filed⟩
    · rcases happens.mem_held before with old | new
      · exact .inl old
      · exact .inr ⟨entry, List.mem_cons_self, new⟩
    · exact .inr ⟨later, List.mem_cons_of_mem entry member, filed⟩

theorem Chronicle.sound {r : Registry} {journal : Journal} (chronicle : Chronicle ∅ journal r)
    {type : ValueType} {id : String} {registration : Registration}
    (held : registration ∈ r.held type id) : registration.Sound journal type id := by
  have typed : r.WellTyped := Registry.Reachable.wellTyped ⟨journal, chronicle⟩
  rcases chronicle.mem_held held with nowhere | filed
  · cases nowhere
  · exact Registration.sound filed (typed type id registration held).symm

/-- What a lookup takes down to ask is what is held at that moment. -/
theorem Chronicle.began {r : Registry} {past future : Journal} {depth : Nat} {type : ValueType}
    {id : String} {candidates : List Registration}
    (chronicle : Chronicle ∅ (past ++ ⟨depth, .began type id candidates⟩ :: future) r) :
    ∃ moment, Chronicle ∅ past moment ∧ candidates = moment.held type id := by
  obtain ⟨moment, before, after⟩ := chronicle.split
  cases after with
  | cons happens _ =>
    cases happens
    exact ⟨moment, before, rfl⟩

theorem Turn.produces {turn : Turn} (answers : turn.own.value.isSome) :
    turn.Produces turn.view := by
  obtain ⟨produced, given⟩ := Option.isSome_iff_exists.mp answers
  refine ⟨produced, given, turn.view_isSome.trans answers, fun wanted view => ?_⟩
  rw [turn.view_as?, viewAs]
  constructor
  · intro found
    split at found
    · next same =>
      subst same
      exact ⟨rfl, Option.some.inj (given.symm.trans found)⟩
    · cases found
  · rintro ⟨rfl, rfl⟩
    rw [dif_pos rfl]
    exact given

/-- Wherever a history of acts leads, a provider that is held for a type of values was filed for
that type, and so was each that a lookup has taken down, nested ones included and even if it has
been removed since. So the type test never makes a provider decline, and a lookup has the value
looked at by the providers' own functions alone. The view that is found has the type that the
provider who answered was filed with, and it is the one which that provider produced. -/
theorem type_tags_sound {journal : Journal} {r : Registry} (chronicle : Chronicle ∅ journal r) :
    (∀ type id, ∀ registration ∈ r.held type id, registration.Sound journal type id) ∧
    (∀ past depth type id candidates future,
      journal = past ++ ⟨depth, .began type id candidates⟩ :: future →
        (∀ candidate ∈ candidates, candidate.Sound past type id) ∧
          ∃ moment, Chronicle ∅ past moment ∧ moment.held type id = candidates) ∧
    ∀ (type : ValueType) (value : type.Carrier) id outcome, Resolves type value id r outcome →
      ∃ declined answer, FirstMatch value (r.held type id) r declined answer outcome.after ∧
        (∀ turn ∈ declined ++ answer.toList, turn.registration.Sound journal type id) ∧
        (outcome.value.isSome ↔ answer.isSome) ∧
        ∀ turn ∈ answer, turn.Produces outcome.value := by
  refine ⟨fun type id registration held => chronicle.sound held, ?_, ?_⟩
  · rintro past depth type id candidates future rfl
    obtain ⟨moment, before, rfl⟩ := chronicle.began
    exact ⟨fun candidate member => before.sound member, moment, before, rfl⟩
  · intro type value id outcome found
    have reachable : r.Reachable := ⟨journal, chronicle⟩
    obtain ⟨declined, answer, firstMatch, given, _⟩ :=
      (resolves_iff_firstMatch reachable.wellTyped value id outcome).mp found
    refine ⟨declined, answer, firstMatch, ?_, ?_, ?_⟩
    · intro turn member
      have listed := firstMatch.in_order.subset (List.mem_map_of_mem member)
      exact chronicle.sound listed
    · rw [given]
      cases answer with
      | none => rfl
      | some turn => simp [turn.view_isSome, firstMatch.answers turn rfl]
    · rintro turn rfl
      rw [given]
      exact turn.produces (firstMatch.answers turn rfl)

/-- The first provider removes itself and the second one, which is asked all the same: it was filed
for integers before the lookup began. -/
theorem type_tags_sound_usurped :
    let r := ((Registry.register ∅ "label" usurper).after.register "label" census).after
    let past : Journal :=
      [⟨0, .registered "label" ⟨usurper, 0⟩⟩, ⟨0, .registered "label" ⟨census, 1⟩⟩]
    ∃ outcome, Chronicle ∅ past r ∧ Resolves .integer (7 : Int32) "label" r outcome ∧
      Chronicle ∅ (past ++ outcome.journal) outcome.after ∧
      outcome.after.held .integer "label" = [] ∧
      (∀ candidate ∈ [⟨usurper, 0⟩, ⟨census, 1⟩],
        Registration.Sound candidate past .integer "label") ∧
      ∃ turn : Turn, turn.registration.Sound past .integer "label" ∧
        turn.Produces outcome.value ∧ outcome.value.as? .integer = some (1 : Int32) ∧
        outcome.value.as? .text = none := by
  intro r past
  have chronicle : Chronicle ∅ past r :=
    (Registry.register_told ∅ "label" usurper).append
      (Registry.register_told _ "label" census)
  obtain ⟨outcome, done, left, number, text, rest, journal⟩ : ∃ outcome,
      resolve 1 .integer (7 : Int32) "label" r = some outcome ∧
      outcome.after.held .integer "label" = [] ∧
      outcome.value.as? .integer = some (1 : Int32) ∧ outcome.value.as? .text = none ∧
      ∃ rest, outcome.journal =
        ⟨0, .began .integer "label" [⟨usurper, 0⟩, ⟨census, 1⟩]⟩ :: rest :=
    ⟨_, rfl, rfl, rfl, rfl, _, rfl⟩
  have whole := chronicle.append (resolve_told 1 done)
  have snapshots := (type_tags_sound whole).2.1
  have taken := (snapshots past 0 .integer "label" _ rest (congrArg (past ++ ·) journal)).1
  obtain ⟨declined, answer, _, sound, answered, produces⟩ :=
    (type_tags_sound chronicle).2.2 .integer _ "label" outcome ⟨1, done⟩
  obtain ⟨turn, rfl⟩ : ∃ turn, answer = some turn := by
    refine Option.isSome_iff_exists.mp (answered.mp ?_)
    cases value : outcome.value with
    | none => rw [value] at number; cases number
    | some view => rfl
  exact ⟨outcome, chronicle, ⟨1, done⟩, whole, left, taken, turn, sound turn (by simp),
    produces turn rfl, number, text⟩

end Diagnostics.Capability
