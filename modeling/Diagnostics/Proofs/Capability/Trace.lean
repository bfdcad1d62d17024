import Diagnostics.Proofs.Capability.Course
import Diagnostics.Proofs.Capability.Provenance

/-!
# The trace of lookups

Each lookup tells the log of itself once, at its end: after all that the providers it called have
told, so a lookup inside another one is told of first. What is told is what the lookup gave, and how
many providers there were when it began. Rules look up at most once in a call, so among rules the
number of lookups can be told from the calls.
-/
namespace Diagnostics.Capability

open Text (decimal)

/-- The act ends a lookup. -/
def Act.isClosing : Act → Bool
  | .resolved .. | .unsupported .. => true
  | _ => false

/-- The act begins a lookup. -/
def Act.isBeginning : Act → Bool
  | .began .. => true
  | _ => false

/-- What a lookup tells of itself: what it was for, and how many providers there were if none of
them answered. -/
def lookupEvent (type : ValueType) (id : String) (candidates : Nat) : Resolution → Event
  | some _ =>
      ⟨.trace, [("message", "capability resolved"), ("capability", id), ("value_type", type.name)]⟩
  | none =>
      ⟨.trace, [("message", "capability unsupported"), ("capability", id),
        ("value_type", type.name), ("providers", decimal candidates)]⟩

def Effect.looksUp : Effect → Bool
  | .resolveNumber _ | .resolveText _ => true
  | _ => false

/-- The first thing that the script does is to look a capability up. -/
def Script.looksUp {gives : ValueType} : Script gives → Bool
  | .resolve .. => true
  | _ => false

/-- Called for the value, the provider begins with a lookup. -/
def Provider.looksUp (provider : Provider) {type : ValueType} (value : type.Carrier) : Bool :=
  if takes : type = provider.takes then (provider.run (takes ▸ value)).looksUp else false

/-- The events of the lowest level. -/
def Journal.traces (journal : Journal) : List Event := journal.events.filter (·.level = .trace)

/-- A lookup with its outcome. Between its beginning and its end come the turns of the providers
that it called, and after all that these have told it tells of itself; none of its other records is
at its own depth and tells anything at this level. -/
structure Logged {type : ValueType} (value : type.Carrier) (id : String) (before : Registry)
    (outcome : Outcome Resolution) (turns : List Turn) : Prop where
  ends : Resolves type value id before outcome
  on_value : ∀ turn ∈ turns, turn.On value
  records : outcome.journal = ⟨0, .began type id (before.held type id)⟩ ::
    turns.flatMap Turn.journal ++
      [⟨0, closing type id (before.held type id).length outcome.value⟩]
  last : outcome.journal.events = Journal.events (turns.flatMap Turn.journal) ++
    [lookupEvent type id (before.held type id).length outcome.value]
  alone : ∀ entry ∈ turns.flatMap Turn.journal, entry.depth = 0 →
    ∀ event ∈ entry.act.event?, event.level ≠ .trace

/-- In a journal of lookups for the value only rules are called. As many lookups end as there are
calls that look up, apart from `own`. -/
structure Journal.Tallied (journal : Journal) {type : ValueType} (value : type.Carrier)
    (own : Nat) : Prop where
  rules : ∀ registration ∈ journal.called, ∃ rule : Rule, registration.provider = rule.provider type
  closed : journal.acts.countP Act.isClosing =
    own + journal.called.countP (·.provider.looksUp value)

/-- A way to look up among rules in which every lookup but the outermost belongs to a call. -/
def Lookup.Tallied (lookup : Lookup) : Prop :=
  ∀ ⦃type⦄ ⦃value : type.Carrier⦄ ⦃id r outcome⦄, lookup type value id r = some outcome →
    r.FollowsRules → outcome.journal.Tallied value 1

section Events

theorem closing_event? (type : ValueType) (id : String) (candidates : Nat) (found : Resolution) :
    (closing type id candidates found).event? = some (lookupEvent type id candidates found) := by
  cases found <;> rfl

theorem Journal.events_closing (type : ValueType) (id : String) (candidates : Nat)
    (found : Resolution) :
    events [⟨0, closing type id candidates found⟩] = [lookupEvent type id candidates found] := by
  simp [events, closing_event?]

theorem Journal.events_append (past future : Journal) :
    events (past ++ future) = past.events ++ future.events :=
  List.filterMap_append

/-- Only the ends of lookups are told at the lowest level. -/
theorem Act.event?_level (act : Act) :
    (act.event?.map fun event => decide (event.level = .trace)).getD false = act.isClosing := by
  rcases act with _ | _ | _ | _ | ⟨_, _, _ | _⟩ | _ | _ | _ | _ <;> simp [event?, isClosing]

theorem Journal.length_traces (journal : Journal) :
    journal.traces.length = journal.acts.countP Act.isClosing := by
  rw [traces, ← List.countP_eq_length_filter, events, List.countP_filterMap, acts,
    List.countP_map]
  simp only [Act.event?_level]
  rfl

theorem closing_isClosing (type : ValueType) (id : String) (candidates : Nat)
    (found : Resolution) : (closing type id candidates found).isClosing = true := by
  cases found <;> rfl

theorem closing_isBeginning (type : ValueType) (id : String) (candidates : Nat)
    (found : Resolution) : (closing type id candidates found).isBeginning = false := by
  cases found <;> rfl

theorem Act.isClosing_of_isRequest {act : Act} (request : act.isRequest) :
    act.isClosing = false := by
  cases act <;> first | rfl | cases request

theorem Act.isBeginning_of_isRequest {act : Act} (request : act.isRequest) :
    act.isBeginning = false := by
  cases act <;> first | rfl | cases request

/-- In a course as many lookups end as begin. -/
theorem Course.countP_isClosing {party : Party} {r final : Registry} {acts : List Act}
    {calls : List Call} (course : Course party r acts calls final) :
    acts.countP Act.isClosing = acts.countP Act.isBeginning := by
  induction course with
  | nil => rfl
  | request request _ _ _ ih =>
    rw [List.countP_cons, List.countP_cons, Act.isClosing_of_isRequest request,
      Act.isBeginning_of_isRequest request, ih]
  | @lookup party r final type value id inner turns acts inside calls _ _ records _ _ nested ih =>
    have begins : (Act.began type id (r.held type id)).isClosing = false := rfl
    have counts : (Act.began type id (r.held type id)).isBeginning = true := rfl
    simp only [List.countP_append, ih, records, List.countP_cons, List.countP_nil, nested,
      closing_isClosing, closing_isBeginning, begins, counts]
    rfl
  | call call _ _ _ nested ih =>
    simp [nested, ih, Act.isClosing, Act.isBeginning]

end Events

section Positions

/-- A place in a list that is put together is a place in the first part or in the second. -/
theorem append_eq_append_cons {α : Type} {first second past future : List α} {a : α}
    (same : first ++ second = past ++ a :: future) :
    (∃ mid, first = past ++ a :: mid ∧ future = mid ++ second) ∨
      ∃ rest, past = first ++ rest ∧ second = rest ++ a :: future := by
  rcases List.append_eq_append_iff.mp same with ⟨rest, later, earlier⟩ | ⟨mid, earlier, later⟩
  · exact .inr ⟨rest, later, earlier⟩
  · cases mid with
    | nil => exact .inr ⟨[], by simpa using earlier.symm, by simpa using later.symm⟩
    | cons b mid =>
      obtain ⟨rfl, rfl⟩ := List.cons.inj later
      exact .inl ⟨mid, earlier, rfl⟩

/-- Where a lookup is recorded to begin, all its records follow, up to its end. -/
theorem Course.began {party : Party} {r final : Registry} {acts : List Act} {calls : List Call}
    (course : Course party r acts calls final) {past future : List Act} {type : ValueType}
    {id : String} {candidates : List Registration}
    (place : acts = past ++ .began type id candidates :: future) :
    ∃ (value : type.Carrier) (moment : Registry) (inner : Outcome Resolution) (later : List Act),
      Passes r past moment ∧ Resolves type value id moment inner ∧
        candidates = moment.held type id ∧
        .began type id candidates :: future = inner.journal.acts ++ later := by
  induction course generalizing past future with
  | nil => simp at place
  | @request party r next final act acts calls request _ happens _ ih =>
    rcases List.cons_eq_append_iff.mp place with ⟨rfl, here⟩ | ⟨past, rfl, inside⟩
    · cases (List.cons.inj here).1
      cases request
    · obtain ⟨value, moment, inner, later, passes, found⟩ := ih inside
      exact ⟨value, moment, inner, later, .cons happens passes, found⟩
  | @lookup party r final asked given name outcome turns acts inside calls _ found records nested _
      ihNested ih =>
    rcases append_eq_append_cons place with ⟨mid, within, rfl⟩ | ⟨past, rfl, behind⟩
    · rw [records, List.cons_append] at within
      rcases List.cons_eq_append_iff.mp within with ⟨rfl, here⟩ | ⟨past, rfl, between⟩
      · -- The lookup itself begins here.
        obtain ⟨same, rest⟩ := List.cons.inj here
        cases same
        refine ⟨given, r, outcome, acts, .nil r, found, rfl, ?_⟩
        rw [records, List.cons_append, ← rest, List.cons_append]
      · rcases append_eq_append_cons between with ⟨left, inTurn, rfl⟩ | ⟨rest, _, closes⟩
        · obtain ⟨value, moment, inner, later, passes, found, same, records⟩ := ihNested inTurn
          refine ⟨value, moment, inner,
            later ++ [closing asked name (r.held asked name).length outcome.value] ++ acts,
            .cons (.began r asked name) passes, found, same, ?_⟩
          rw [← List.cons_append, ← List.cons_append, records]
          simp
        · have member : Act.began type id candidates ∈
              [closing asked name (r.held asked name).length outcome.value] :=
            closes ▸ by simp
          have begins := closing_isBeginning asked name (r.held asked name).length outcome.value
          rw [← List.mem_singleton.mp member] at begins
          cases begins
    · obtain ⟨value, moment, inner, later, passes, onward⟩ := ih behind
      exact ⟨value, moment, inner, later, found.passes.append passes, onward⟩
  | @call candidates final call acts inside calls _ nested _ ihNested ih =>
    rcases List.cons_eq_append_iff.mp place with ⟨rfl, here⟩ | ⟨past, rfl, onward⟩
    · cases (List.cons.inj here).1
    · rcases append_eq_append_cons onward with ⟨left, inTurn, rfl⟩ | ⟨past, rfl, behind⟩
      · obtain ⟨value, moment, inner, later, passes, found, same, records⟩ := ihNested inTurn
        refine ⟨value, moment, inner, later ++ acts, .cons (.called _ _) passes, found, same, ?_⟩
        rw [← List.cons_append, records, List.append_assoc]
      · obtain ⟨value, moment, inner, later, passes, onward⟩ := ih behind
        exact ⟨value, moment, inner, later,
          .cons (.called _ _) (nested.passes.append passes), onward⟩

end Positions

section Own

theorem Act.not_trace {act : Act} (silent : act.isClosing = false) :
    ∀ event ∈ act.event?, event.level ≠ .trace := by
  intro event told
  have level := act.event?_level
  rw [silent, Option.mem_def.mp told] at level
  simpa using level

/-- A running provider records nothing but its requests at its own depth. -/
theorem Dealings.isRequest {lookup : Lookup} {r final : Registry} {journal : Journal}
    (dealings : Dealings lookup r journal final) :
    ∀ entry ∈ journal, entry.depth = 0 → entry.act.isRequest := by
  induction dealings with
  | nil => exact List.forall_mem_nil _
  | request request _ _ ih => exact List.forall_mem_cons.mpr ⟨fun _ => request, ih⟩
  | resolve _ _ ih =>
    refine List.forall_mem_append.mpr ⟨fun entry member own => ?_, ih⟩
    obtain ⟨inner, _, rfl⟩ := List.mem_map.mp member
    cases own

theorem Turn.not_closing {type : ValueType} {value : type.Carrier} {turn : Turn}
    (on : turn.On value) :
    ∀ entry ∈ turn.journal, entry.depth = 0 → entry.act.isClosing = false := by
  obtain ⟨same, bound, ran⟩ := on
  have own := (Script.run_dealings _ ran).isRequest
  refine List.forall_mem_cons.mpr ⟨fun _ => rfl, fun entry member depth => ?_⟩
  exact Act.isClosing_of_isRequest (own entry member depth)

theorem Resolves.logged {r : Registry} (typed : r.WellTyped) {type : ValueType}
    {value : type.Carrier} {id : String} {outcome : Outcome Resolution}
    (found : Resolves type value id r outcome) : ∃ turns, Logged value id r outcome turns := by
  obtain ⟨declined, answer, firstMatch, given, journal⟩ :=
    (resolves_iff_firstMatch typed value id outcome).mp found
  refine ⟨declined ++ answer.toList, found, firstMatch.on_value, ?_, ?_, ?_⟩
  · rw [journal, given]
    rfl
  · rw [journal, given, lookupJournal, Journal.events_append,
      Journal.events_closing]
    rfl
  · intro entry member own
    obtain ⟨turn, had, inside⟩ := List.mem_flatMap.mp member
    exact Act.not_trace (Turn.not_closing (firstMatch.on_value turn had) entry inside own)

end Own

section Rules

theorem Effect.script_looksUp (effect : Effect) (type : ValueType) (value : type.Carrier) :
    (effect.script type value).looksUp = effect.looksUp := by
  cases effect <;> rfl

theorem Rule.provider_looksUp (rule : Rule) (type : ValueType) (value : type.Carrier) :
    (rule.provider type).looksUp value =
      (rule.condition.holds type value && rule.effect.looksUp) := by
  have called : (rule.provider type).looksUp value = ((rule.provider type).run value).looksUp :=
    dif_pos rfl
  rw [called]
  by_cases applies : rule.condition.holds type value
  · rw [applies, Bool.true_and, ← rule.effect.script_looksUp type value]
    exact congrArg Script.looksUp (run_of_holds applies)
  · have declined := congrArg Script.looksUp (run_of_not_holds applies)
    rw [Bool.not_eq_true] at applies
    rw [applies, Bool.false_and]
    exact declined

namespace Journal.Tallied

variable {type : ValueType} {value : type.Carrier} {past future : Journal} {own more : Nat}

theorem nil : Tallied [] value 0 := ⟨List.forall_mem_nil _, rfl⟩

theorem append (first : past.Tallied value own) (second : future.Tallied value more) :
    Tallied (past ++ future) value (own + more) where
  rules := by
    rw [called_append]
    exact List.forall_mem_append.mpr ⟨first.rules, second.rules⟩
  closed := by
    have before := first.closed
    have after := second.closed
    rw [acts_append, called_append, List.countP_append, List.countP_append]
    omega

theorem deepen (tallied : past.Tallied value own) :
    Tallied (past.map Entry.deepen) value own := by
  refine ⟨?_, ?_⟩
  · rw [called_deepen]
    exact tallied.rules
  · rw [acts_deepen, called_deepen]
    exact tallied.closed

theorem request {act : Act} (request : act.isRequest) : Tallied [⟨0, act⟩] value 0 := by
  cases act <;> first | exact ⟨List.forall_mem_nil _, rfl⟩ | cases request

theorem call {registration : Registration}
    (follows : ∃ rule : Rule, registration.provider = rule.provider type)
    (tallied : past.Tallied value (if registration.provider.looksUp value then 1 else 0)) :
    Tallied (⟨0, .called registration⟩ :: past) value 0 where
  rules := List.forall_mem_cons.mpr ⟨follows, tallied.rules⟩
  closed := by
    have before := tallied.closed
    have ends : (acts (⟨0, .called registration⟩ :: past)).countP Act.isClosing =
        past.acts.countP Act.isClosing := rfl
    have calls : called (⟨0, .called registration⟩ :: past) = registration :: past.called := rfl
    rw [ends, calls, List.countP_cons, before]
    omega

end Journal.Tallied

section Tallied

variable {lookup : Lookup} (tallied : lookup.Tallied)
include tallied

theorem Effect.run_tallied {effect : Effect} {type : ValueType} {value : type.Carrier}
    {keeper : ValueType} {serial : Nat} {r : Registry}
    {outcome : Outcome (Option (effect.gives type).Carrier)}
    (done : (effect.script type value).run lookup keeper serial r = some outcome)
    (follows : r.FollowsRules) :
    outcome.journal.Tallied value (if effect.looksUp then 1 else 0) := by
  cases effect with
  | resolveNumber id =>
    obtain ⟨inner, found, onward⟩ := Option.bind_eq_some_iff.mp done
    cases onward
    exact (tallied found follows).deepen.append .nil
  | resolveText id =>
    obtain ⟨inner, found, onward⟩ := Option.bind_eq_some_iff.mp done
    cases onward
    exact (tallied found follows).deepen.append .nil
  | unregister id =>
    cases done
    rw [Outcome.behind, r.unregister_journal type id]
    exact .request rfl
  | counter | has _ | clear | register _ _ _ _ =>
    cases done
    exact .request rfl
  | number | text | self | const _ | unit =>
    cases done
    exact .nil

theorem Registration.ask_tallied {type : ValueType} {value : type.Carrier} {rule : Rule}
    {serial : Nat} {r : Registry} {outcome : Outcome Resolution}
    (done : Registration.ask lookup type value ⟨rule.provider type, serial⟩ r = some outcome)
    (follows : r.FollowsRules) : outcome.journal.Tallied value 0 := by
  have takes : type = (rule.provider type).takes := rfl
  obtain ⟨own, ran, rfl⟩ := (Registration.ask_eq_some takes).mp done
  refine .call ⟨rule, rfl⟩ ?_
  rw [rule.provider_looksUp type value]
  by_cases applies : rule.condition.holds type value
  · rw [Rule.run_of_holds applies] at ran
    rw [applies, Bool.true_and]
    exact Effect.run_tallied tallied ran follows
  · rw [Rule.run_of_not_holds applies] at ran
    cases ran
    rw [Bool.not_eq_true] at applies
    rw [applies, Bool.false_and]
    exact .nil

theorem askInTurn_tallied (explained : lookup.Explained) {type : ValueType}
    {value : type.Carrier} (candidates : List Registration) {r : Registry}
    {outcome : Outcome Resolution}
    (rules : ∀ candidate ∈ candidates, ∃ rule : Rule, candidate.provider = rule.provider type)
    (done : askInTurn lookup type value candidates r = some outcome) (follows : r.FollowsRules) :
    outcome.journal.Tallied value 0 := by
  induction candidates generalizing r outcome with
  | nil =>
    cases done
    exact .nil
  | cons candidate others ih =>
    obtain ⟨first, asked, goes⟩ := askInTurn_cons_eq_some.mp done
    obtain ⟨⟨rule, same⟩, others⟩ := List.forall_mem_cons.mp rules
    obtain ⟨provider, serial⟩ := candidate
    subst same
    have turn := Registration.ask_tallied tallied asked follows
    rcases goes with ⟨_, rfl⟩ | ⟨_, rest, ran, rfl⟩
    · exact turn
    · have after := (Registration.ask_explained explained asked follows).follows
      exact turn.append (ih others ran after)

end Tallied

/-- Among rules every lookup but the outermost belongs to the call of a rule that looks up. -/
theorem resolve_tallied (bound : Nat) : (resolve bound).Tallied := by
  induction bound with
  | zero =>
    intro type value id r outcome done
    cases done
  | succ bound ih =>
    intro type value id r outcome done follows
    obtain ⟨inTurn, ran, rfl⟩ := resolve_succ_eq_some.mp done
    have turns := askInTurn_tallied ih (resolve_explained bound) _ (follows type id) ran follows
    have begins : Journal.Tallied [⟨0, .began type id (r.held type id)⟩] value 0 :=
      ⟨List.forall_mem_nil _, rfl⟩
    have ends : Journal.Tallied [⟨0, closing type id (r.held type id).length inTurn.value⟩]
        value 1 := by
      cases inTurn.value <;> exact ⟨List.forall_mem_nil _, rfl⟩
    exact (begins.append turns).append ends

end Rules

/-- Every lookup tells the log of itself once, whatever the providers do, and it does so at the end.
Wherever the records say that a lookup begins, inside other lookups too, its records follow. In them
come the turns of the providers that it called with all that these have told, and then its own
event, which says what came of it and, if nothing did, how many providers were held when it began.
There are no other events of this level. Among rules this makes one event for the whole and one for
each call of a rule that looks up and applies to the value. -/
theorem lookup_traced {r : Registry} (reachable : r.Reachable) {type : ValueType}
    {value : type.Carrier} {id : String} {outcome : Outcome Resolution}
    (found : Resolves type value id r outcome) :
    (∃ turns, Logged value id r outcome turns) ∧
    (∀ past depth asked name candidates future,
      outcome.journal = past ++ ⟨depth, .began asked name candidates⟩ :: future →
        ∃ (given : asked.Carrier) (moment : Registry) (inner : Outcome Resolution)
          (turns : List Turn) (later : List Act),
          Chronicle r past moment ∧ candidates = moment.held asked name ∧
            Logged given name moment inner turns ∧
            .began asked name candidates :: Journal.acts future = inner.journal.acts ++ later) ∧
    outcome.journal.traces.length = outcome.journal.acts.countP Act.isBeginning ∧
    (r.FollowsRules →
      (∀ registration ∈ outcome.journal.called,
        ∃ rule : Rule, registration.provider = rule.provider type) ∧
      ∀ rules : List Rule,
        outcome.journal.called.map Registration.provider = rules.map (·.provider type) →
          outcome.journal.traces.length = 1 + rules.countP fun rule =>
            rule.condition.holds type value && rule.effect.looksUp) := by
  refine ⟨found.logged reachable.wellTyped, ?_, ?_, fun follows => ?_⟩
  · intro past depth asked name candidates future place
    obtain ⟨bound, done⟩ := found
    have acts : outcome.journal.acts =
        Journal.acts past ++ .began asked name candidates :: Journal.acts future := by
      rw [place, Journal.acts_append]
      rfl
    obtain ⟨given, moment, inner, later, passes, inside, same, records⟩ :=
      (resolve_course done).began acts
    have typed := (passes.chronicle.reachable reachable).wellTyped
    obtain ⟨turns, logged⟩ := inside.logged typed
    exact ⟨given, moment, inner, turns, later, passes.chronicle, same, logged, records⟩
  · obtain ⟨bound, done⟩ := found
    rw [Journal.length_traces, (resolve_course done).countP_isClosing]
  · obtain ⟨bound, done⟩ := found
    have tallied := resolve_tallied bound done follows
    refine ⟨tallied.rules, fun rules same => ?_⟩
    have applied : outcome.journal.called.countP (·.provider.looksUp value) =
        (outcome.journal.called.map Registration.provider).countP (·.looksUp value) := by
      rw [List.countP_map]
      rfl
    rw [Journal.length_traces, tallied.closed, applied, same, List.countP_map]
    simp only [Function.comp_def, Rule.provider_looksUp]

def forwarder : Rule := ⟨"forward", .always, .resolveText "inner"⟩

def wiper : Rule := ⟨"wipe", .always, .clear⟩

/-- The first inner lookup finds a provider, which removes all providers. The second one finds none,
and the outer lookup still tells of the two that it began with. -/
theorem lookup_traced_wiped :
    let first := (Registry.register ∅ "outer" (forwarder.provider .integer)).after
    let r := ((first.register "outer" (forwarder.provider .integer)).after.register "inner"
      (wiper.provider .integer)).after
    r.Reachable ∧ r.FollowsRules ∧ ∃ outcome turns,
      Logged (show ValueType.Carrier .integer from (7 : Int32)) "outer" r outcome turns ∧
      outcome.after.held .integer "outer" = [] ∧
      outcome.journal.events = [lookupEvent .integer "inner" 1 (some ⟨.unit, ()⟩),
        lookupEvent .integer "inner" 0 none, lookupEvent .integer "outer" 2 none] ∧
      outcome.journal.traces.length = 1 + 2 ∧
      ∃ (given : ValueType.Carrier .integer) (moment : Registry) (inner : Outcome Resolution)
        (within : List Turn),
        moment.held .integer "inner" = [] ∧ Logged given "inner" moment inner within := by
  intro first r
  have reachable : r.Reachable :=
    (Registry.register_told _ "inner" _).reachable
      ((Registry.register_told _ "outer" _).reachable
        ((Registry.register_told _ "outer" _).reachable Registry.reachable_empty))
  have follows : r.FollowsRules :=
    .register (.register (.register .empty ⟨forwarder, rfl⟩) ⟨forwarder, rfl⟩) ⟨wiper, rfl⟩
  obtain ⟨outcome, done, left, events, called, past, future, journal⟩ : ∃ outcome,
      resolve 2 .integer (7 : Int32) "outer" r = some outcome ∧
      outcome.after.held .integer "outer" = [] ∧
      outcome.journal.events = [lookupEvent .integer "inner" 1 (some ⟨.unit, ()⟩),
        lookupEvent .integer "inner" 0 none, lookupEvent .integer "outer" 2 none] ∧
      outcome.journal.called.map Registration.provider =
        [forwarder, wiper, forwarder].map (·.provider .integer) ∧
      ∃ past future, outcome.journal = past ++ ⟨1, .began .integer "inner" []⟩ :: future :=
    ⟨_, rfl, rfl, rfl, rfl, [_, _, _, _, _, _, _], _, rfl⟩
  obtain ⟨⟨turns, logged⟩, inside, _, tallied⟩ := lookup_traced reachable ⟨2, done⟩
  obtain ⟨given, moment, inner, within, _, _, same, nested, _⟩ :=
    inside past 1 .integer "inner" [] future journal
  exact ⟨reachable, follows, outcome, turns, logged, left, events,
    (tallied follows).2 [forwarder, wiper, forwarder] called, given, moment, inner, within,
    same.symm, nested⟩

end Diagnostics.Capability
