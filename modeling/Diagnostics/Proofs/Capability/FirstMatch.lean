import Diagnostics.Proofs.Capability.Steps

/-!
# The first match

A lookup is described without its loop: which providers have a turn, in which registry each of them
runs, and what the lookup makes of it. The description and the lookup agree in both directions, so
it also says when a lookup comes to an end: if every provider that has a turn does. What a provider
does in its turn is described by the replies to its requests.
-/
namespace Diagnostics.Capability

/-- The turn of one provider in a lookup. -/
structure Turn where
  registration : Registration
  /-- The registry in which the provider runs. -/
  before : Registry
  /-- What the provider's own function comes to. -/
  own : Outcome (Option registration.provider.gives.Carrier)

namespace Turn

/-- The provider's own function runs on the value. -/
def On {type : ValueType} (value : type.Carrier) (turn : Turn) : Prop :=
  ∃ same : type = turn.registration.provider.takes,
    turn.registration.Runs (same ▸ value) turn.before turn.own

/-- The provider's own function goes on from reply to reply: each of its requests is served, and
each of its lookups comes to its outcome, in the registry as it is at that moment. -/
def Deals {type : ValueType} (value : type.Carrier) (turn : Turn) : Prop :=
  ∃ same : type = turn.registration.provider.takes,
    (turn.registration.provider.run (same ▸ value)).Goes Resolves
      turn.registration.provider.takes turn.registration.serial turn.before turn.own

theorem deals_iff_on {type : ValueType} {value : type.Carrier} {turn : Turn} :
    turn.Deals value ↔ turn.On value :=
  exists_congr fun _ => Script.runs_iff_goes.symm

def view (turn : Turn) : Resolution :=
  turn.own.value.map (View.mk turn.registration.provider.gives)

/-- What the provider gave, if it gives views of the type that is wanted. -/
def viewAs (wanted : ValueType) (turn : Turn) : Option wanted.Carrier :=
  if same : turn.registration.provider.gives = wanted then same ▸ turn.own.value else none

def journal (turn : Turn) : Journal := ⟨0, .called turn.registration⟩ :: turn.own.journal

def outcome (turn : Turn) : Outcome Resolution := ⟨turn.view, turn.own.after, turn.journal⟩

theorem view_isSome (turn : Turn) : turn.view.isSome = turn.own.value.isSome :=
  Option.isSome_map

theorem view_eq_none (turn : Turn) : turn.view = none ↔ turn.own.value = none :=
  Option.map_eq_none_iff

theorem view_as? (turn : Turn) (wanted : ValueType) :
    turn.view.as? wanted = turn.viewAs wanted := by
  obtain ⟨registration, before, own⟩ := turn
  unfold view viewAs Resolution.as? View.as?
  by_cases same : registration.provider.gives = wanted
  · subst same
    cases given : own.value <;> simp
  · cases given : own.value <;> simp [same]

end Turn

/-- Each turn begins in the registry that the turn before it left. -/
def Threaded : Registry → List Turn → Registry → Prop
  | r, [], after => after = r
  | r, turn :: rest, after => turn.before = r ∧ Threaded turn.own.after rest after

/-- How a lookup goes: some providers decline in turn, and then one answers, or there are no more.
The providers are those held when the lookup begins, whatever happens to the registry later. -/
structure FirstMatch {type : ValueType} (value : type.Carrier) (candidates : List Registration)
    (r : Registry) (declined : List Turn) (answer : Option Turn) (after : Registry) : Prop where
  in_order : (declined ++ answer.toList).map Turn.registration <+: candidates
  on_value : ∀ turn ∈ declined ++ answer.toList, turn.On value
  threaded : Threaded r (declined ++ answer.toList) after
  declines : ∀ turn ∈ declined, turn.own.value = none
  answers : ∀ turn ∈ answer, turn.own.value.isSome
  exhausted : answer = none → declined.map Turn.registration = candidates

/-- The providers that a lookup called itself: their calls are recorded at its own depth. -/
def Journal.ownCalls (journal : Journal) : List Registration :=
  journal.filterMap fun
    | ⟨0, .called registration⟩ => some registration
    | _ => none

namespace Journal

theorem ownCalls_append (past future : Journal) :
    (past ++ future : Journal).ownCalls = past.ownCalls ++ future.ownCalls :=
  List.filterMap_append

theorem ownCalls_deepen (journal : Journal) : ownCalls (journal.map Entry.deepen) = [] := by
  simp [ownCalls, Entry.deepen]

end Journal

/-- While a provider runs, only lookups of its own make calls. -/
theorem Dealings.ownCalls {lookup : Lookup} {r final : Registry} {journal : Journal}
    (dealings : Dealings lookup r journal final) : journal.ownCalls = [] := by
  induction dealings with
  | nil => rfl
  | @request r next final act journal request happens rest ih =>
    cases act with
    | called _ => cases request
    | _ => exact ih
  | resolve found rest ih => rw [Journal.ownCalls_append, Journal.ownCalls_deepen, ih]; rfl

theorem Turn.ownCalls {type : ValueType} {value : type.Carrier} {turn : Turn}
    (on : turn.On value) : turn.journal.ownCalls = [turn.registration] := by
  obtain ⟨same, bound, ran⟩ := on
  change turn.registration :: Journal.ownCalls turn.own.journal = _
  rw [(Script.run_dealings _ ran).ownCalls]

theorem ownCalls_turns {type : ValueType} {value : type.Carrier} (turns : List Turn)
    (on : ∀ turn ∈ turns, turn.On value) :
    Journal.ownCalls (turns.flatMap Turn.journal) = turns.map Turn.registration := by
  induction turns with
  | nil => rfl
  | cons turn rest ih =>
    rw [List.flatMap_cons, Journal.ownCalls_append, Turn.ownCalls (on turn (by simp)),
      ih fun turn mem => on turn (by simp [mem])]
    rfl

theorem Registration.ask_of_runs {lookup : Lookup} {type : ValueType} {value : type.Carrier}
    {turn : Turn} (same : type = turn.registration.provider.takes)
    (ran : (turn.registration.provider.run (same ▸ value)).run lookup
      turn.registration.provider.takes turn.registration.serial turn.before = some turn.own) :
    turn.registration.ask lookup type value turn.before = some turn.outcome :=
  (Registration.ask_eq_some same).mpr ⟨turn.own, ran, rfl⟩

/-- A provider for values of the type is asked by a turn. -/
theorem Registration.turn_of_ask {bound : Nat} {type : ValueType} {value : type.Carrier}
    {registration : Registration} {r : Registry} {outcome : Outcome Resolution}
    (takes : registration.provider.takes = type)
    (asked : registration.ask (resolve bound) type value r = some outcome) :
    ∃ turn : Turn, turn.registration = registration ∧ turn.before = r ∧ turn.On value ∧
      turn.outcome = outcome := by
  obtain ⟨own, ran, rfl⟩ := (Registration.ask_eq_some takes.symm).mp asked
  exact ⟨⟨registration, r, own⟩, rfl, rfl, ⟨takes.symm, bound, ran⟩, rfl⟩

section InTurn

variable {type : ValueType} {value : type.Carrier} {candidates : List Registration} {r : Registry}

theorem FirstMatch.none : FirstMatch value [] r [] none r :=
  ⟨List.prefix_rfl, by simp, rfl, by simp, by simp, fun _ => rfl⟩

theorem FirstMatch.answered {turn : Turn} (on : turn.On value) (answers : turn.own.value.isSome) :
    FirstMatch value (turn.registration :: candidates) turn.before [] (some turn) turn.own.after :=
  ⟨by simp, by simpa using on, ⟨rfl, rfl⟩, by simp, by simpa using answers, by simp⟩

theorem FirstMatch.declined {turn : Turn} {declined : List Turn} {answer : Option Turn}
    {after : Registry} (on : turn.On value) (declines : turn.own.value = .none)
    (rest : FirstMatch value candidates turn.own.after declined answer after) :
    FirstMatch value (turn.registration :: candidates) turn.before (turn :: declined) answer
      after where
  in_order := by simpa using rest.in_order
  on_value other mem := by
    rcases List.mem_cons.mp mem with rfl | later
    · exact on
    · exact rest.on_value other later
  threaded := ⟨rfl, rest.threaded⟩
  declines other mem := by
    rcases List.mem_cons.mp mem with rfl | later
    · exact declines
    · exact rest.declines other later
  answers := rest.answers
  exhausted absent := by rw [List.map_cons, rest.exhausted absent]

theorem firstMatch_of_askInTurn {bound : Nat} {outcome : Outcome Resolution}
    (typed : ∀ registration ∈ candidates, registration.provider.takes = type)
    (done : askInTurn (resolve bound) type value candidates r = some outcome) :
    ∃ declined answer, FirstMatch value candidates r declined answer outcome.after ∧
      outcome.value = answer.bind Turn.view ∧
      outcome.journal = (declined ++ answer.toList).flatMap Turn.journal := by
  induction candidates generalizing r outcome with
  | nil =>
    cases done
    exact ⟨[], none, .none, rfl, rfl⟩
  | cons candidate others ih =>
    obtain ⟨first, asked, goes⟩ := askInTurn_cons_eq_some.mp done
    obtain ⟨turn, rfl, rfl, on, rfl⟩ :=
      Registration.turn_of_ask (typed candidate (by simp)) asked
    rcases goes with ⟨answered, rfl⟩ | ⟨declined, rest, ran, rfl⟩
    · have answers := turn.view_isSome.symm.trans answered
      exact ⟨[], some turn, .answered on answers, rfl, by simp [Turn.outcome]⟩
    · have declines := turn.view_eq_none.mp declined
      obtain ⟨later, answer, firstMatch, value, journal⟩ :=
        ih (fun registration mem => typed registration (by simp [mem])) ran
      refine ⟨turn :: later, answer, .declined on declines firstMatch, value, ?_⟩
      change turn.journal ++ rest.journal = _
      rw [journal, List.cons_append, List.flatMap_cons]

theorem askInTurn_answered {lookup : Lookup} {turn : Turn}
    (asked : turn.registration.ask lookup type value turn.before = some turn.outcome)
    (answers : turn.own.value.isSome) :
    askInTurn lookup type value (turn.registration :: candidates) turn.before =
      some turn.outcome :=
  askInTurn_cons_eq_some.mpr ⟨turn.outcome, asked, .inl ⟨turn.view_isSome.trans answers, rfl⟩⟩

theorem askInTurn_declined {lookup : Lookup} {turn : Turn} {rest : Outcome Resolution}
    (asked : turn.registration.ask lookup type value turn.before = some turn.outcome)
    (declines : turn.own.value = none)
    (ran : askInTurn lookup type value candidates turn.own.after = some rest) :
    askInTurn lookup type value (turn.registration :: candidates) turn.before =
      some (rest.behind turn.journal) :=
  askInTurn_cons_eq_some.mpr
    ⟨turn.outcome, asked, .inr ⟨turn.view_eq_none.mpr declines, rest, ran, rfl⟩⟩

theorem askInTurn_of_firstMatch {declined : List Turn} {answer : Option Turn} {after : Registry}
    (firstMatch : FirstMatch value candidates r declined answer after) :
    ∃ bound, askInTurn (resolve bound) type value candidates r =
      some ⟨answer.bind Turn.view, after, (declined ++ answer.toList).flatMap Turn.journal⟩ := by
  induction declined generalizing candidates r with
  | nil =>
    cases answer with
    | none =>
      have ends : after = r := firstMatch.threaded
      have nobody : [] = candidates := firstMatch.exhausted rfl
      subst ends
      subst nobody
      exact ⟨0, rfl⟩
    | some turn =>
      obtain ⟨others, whole⟩ := firstMatch.in_order
      obtain ⟨same, bound, ran⟩ := firstMatch.on_value turn (by simp)
      obtain ⟨begins, ends⟩ := firstMatch.threaded
      have ends : after = turn.own.after := ends
      subst begins
      subst ends
      rw [← whole]
      refine ⟨bound, (askInTurn_answered (Registration.ask_of_runs same ran)
        (firstMatch.answers turn rfl)).trans ?_⟩
      simp [Turn.outcome]
  | cons turn declined ih =>
    obtain ⟨others, whole⟩ := firstMatch.in_order
    have whole : turn.registration ::
        ((declined ++ answer.toList).map Turn.registration ++ others) = candidates := whole
    subst whole
    obtain ⟨same, bound, ran⟩ := firstMatch.on_value turn (by simp)
    obtain ⟨begins, threaded⟩ := firstMatch.threaded
    subst begins
    have rest : FirstMatch value ((declined ++ answer.toList).map Turn.registration ++ others)
        turn.own.after declined answer after :=
      ⟨⟨others, rfl⟩, fun other mem => firstMatch.on_value other (by simp_all), threaded,
        fun other mem => firstMatch.declines other (by simp [mem]), firstMatch.answers,
        fun absent => (List.cons.inj (firstMatch.exhausted absent)).2⟩
    obtain ⟨further, onward⟩ := ih rest
    -- One bound for this turn and all later ones.
    have asked := Registration.ask_mono (resolve_mono (Nat.le_max_left bound further))
      (Registration.ask_of_runs same ran)
    have onward := askInTurn_mono (resolve_mono (Nat.le_max_right bound further)) _ onward
    exact ⟨max bound further,
      askInTurn_declined asked (firstMatch.declines turn (by simp)) onward⟩

end InTurn

/-- What a lookup with these turns records at its own depth and below. -/
def lookupJournal (type : ValueType) (id : String) (candidates : List Registration)
    (declined : List Turn) (answer : Option Turn) : Journal :=
  ⟨0, .began type id candidates⟩ :: (declined ++ answer.toList).flatMap Turn.journal ++
    [⟨0, closing type id candidates.length (answer.bind Turn.view)⟩]

theorem ownCalls_lookupJournal {type : ValueType} {value : type.Carrier} {id : String}
    {candidates : List Registration} {declined : List Turn} {answer : Option Turn}
    (on : ∀ turn ∈ declined ++ answer.toList, turn.On value) :
    (lookupJournal type id candidates declined answer).ownCalls =
      (declined ++ answer.toList).map Turn.registration := by
  have begun : Journal.ownCalls [⟨0, .began type id candidates⟩] = [] := rfl
  have closed : Journal.ownCalls
      [⟨0, closing type id candidates.length (answer.bind Turn.view)⟩] = [] := by
    cases answer.bind Turn.view <;> rfl
  rw [lookupJournal, ← List.singleton_append, Journal.ownCalls_append, Journal.ownCalls_append,
    begun, closed, ownCalls_turns _ on, List.append_nil, List.nil_append]

theorem resolves_iff_firstMatch {r : Registry} (typed : r.WellTyped) {type : ValueType}
    (value : type.Carrier) (id : String) (outcome : Outcome Resolution) :
    Resolves type value id r outcome ↔
      ∃ declined answer, FirstMatch value (r.held type id) r declined answer outcome.after ∧
        outcome.value = answer.bind Turn.view ∧
        outcome.journal = lookupJournal type id (r.held type id) declined answer := by
  constructor
  · rintro ⟨bound, done⟩
    cases bound with
    | zero => cases done
    | succ bound =>
      obtain ⟨inTurn, ran, rfl⟩ := resolve_succ_eq_some.mp done
      obtain ⟨declined, answer, firstMatch, value, journal⟩ :=
        firstMatch_of_askInTurn (typed type id) ran
      refine ⟨declined, answer, firstMatch, value, ?_⟩
      simp only [value, journal]
      rfl
  · rintro ⟨declined, answer, firstMatch, value, journal⟩
    obtain ⟨bound, ran⟩ := askInTurn_of_firstMatch firstMatch
    refine ⟨bound + 1, resolve_succ_eq_some.mpr ⟨_, ran, ?_⟩⟩
    obtain ⟨found, after, recorded⟩ := outcome
    simp only at value journal
    subst value
    subst journal
    rfl

/-- Runs, running providers and lookups come to what can be told from the registry itself: each step
answers what it is served, a script goes on from reply to reply, and a lookup asks the providers
that are held, up to the first match. -/
structure Registry.Accurate (r : Registry) : Prop where
  runs : ∀ steps outcomes, (∃ bound, Session.run bound r steps = some outcomes) ↔
    Session.Proceeds r steps outcomes
  steps : ∀ action outcome, (∃ bound, Session.step bound r action = some outcome) ↔
    Session.Answers r action outcome
  scripts : ∀ {gives : ValueType} (script : Script gives) type serial outcome,
    (∃ bound, script.run (resolve bound) type serial r = some outcome) ↔
      script.Goes Resolves type serial r outcome
  lookups : ∀ {type : ValueType} (value : type.Carrier) id outcome,
    Resolves type value id r outcome ↔
      ∃ declined answer, FirstMatch value (r.held type id) r declined answer outcome.after ∧
        outcome.value = answer.bind Turn.view ∧
        outcome.journal = lookupJournal type id (r.held type id) declined answer

theorem Registry.WellTyped.accurate {r : Registry} (typed : r.WellTyped) : r.Accurate where
  runs _ _ := Session.runs_iff_proceeds
  steps _ _ := Session.steps_iff_answers
  scripts _ _ _ _ := Script.runs_iff_goes
  lookups value id outcome := resolves_iff_firstMatch typed value id outcome

/-- A lookup asks the providers that the capability has when the lookup begins, in their order and
each by its own function, up to the first that does not decline; the answer is what that one gave,
and downcasting it to another type than that one's gives nothing. It has this outcome if, and only
if, these providers come to an end so. Neither the providers nor what they do to the registry
meanwhile change whom it asks. But whatever a provider asks of the registry in its turn, the reply,
the record of it and what it changes are those of the registry as the acts before, at whatever
depth, have left it. -/
theorem lookup_first_match {r : Registry} (reachable : r.Reachable) {type : ValueType}
    (value : type.Carrier) (id : String) (outcome : Outcome Resolution) :
    Resolves type value id r outcome ↔
      ∃ declined answer, FirstMatch value (r.held type id) r declined answer outcome.after ∧
        outcome.value = answer.bind Turn.view ∧
        (∀ wanted, outcome.value.as? wanted = answer.bind (Turn.viewAs wanted)) ∧
        outcome.journal = lookupJournal type id (r.held type id) declined answer ∧
        outcome.journal.ownCalls = (declined ++ answer.toList).map Turn.registration ∧
        (∀ turn ∈ declined ++ answer.toList, turn.Deals value) ∧
        outcome.Told r := by
  rw [resolves_iff_firstMatch reachable.wellTyped value id outcome]
  constructor
  · rintro ⟨declined, answer, firstMatch, given, journal⟩
    have resolves := (resolves_iff_firstMatch reachable.wellTyped value id outcome).mpr
      ⟨declined, answer, firstMatch, given, journal⟩
    obtain ⟨bound, done⟩ := resolves
    refine ⟨declined, answer, firstMatch, given, ?_, journal, ?_, ?_, resolve_told bound done⟩
    · intro wanted
      rw [given]
      cases answer with
      | none => rfl
      | some turn => exact turn.view_as? wanted
    · rw [journal, ownCalls_lookupJournal firstMatch.on_value]
    · exact fun turn took => Turn.deals_iff_on.mpr (firstMatch.on_value turn took)
  · rintro ⟨declined, answer, firstMatch, given, _, journal, _, _, _⟩
    exact ⟨declined, answer, firstMatch, given, journal⟩

/-- Removes all providers, itself included, puts another one in their place and declines. -/
def usurper : Provider where
  takes := .integer
  gives := .text
  name := "usurper"
  run _ := .clear <|
    .register .integer .text "label" "heir" (fun _ => .give .text "late") (.answer none)

/-- Removes the providers under its id and gives their number. -/
def census : Provider where
  takes := .integer
  gives := .integer
  name := "census"
  run _ := .unregister .integer "label" fun removed => .give .integer (Int32.ofNat removed)

/-- The provider that the usurper puts in. -/
def heir : Provider where
  takes := .integer
  gives := .text
  name := "heir"
  run _ := .give .text "late"

/-- Declines if the capability that there was is gone and the heir is found under its own id. -/
def inspector : Provider where
  takes := .integer
  gives := .text
  name := "inspector"
  run _ := .has .integer "spare" fun spare => .has .integer "label" fun found =>
    .resolve .integer (7 : Int32) "label" fun label =>
      let words : Option String := label.as? .text
      if !spare && found && words = some "late" then .answer none else .give .text "stale"

/-- The other providers have their turns although the first has removed them. The second one finds
the capability under the other id gone and the provider that the first has put in, which has no turn
in this lookup but answers the lookup of the second. The third removes that one and tells so. -/
theorem lookup_first_match_usurped :
    let spare := (Registry.register ∅ "spare" heir).after
    let r := [usurper, inspector, census].foldl (fun r p => (r.register "label" p).after) spare
    let snapshot := [⟨usurper, 1⟩, ⟨inspector, 2⟩, ⟨census, 3⟩]
    let records : Journal :=
      [⟨0, .began .integer "label" snapshot⟩,
        ⟨0, .called ⟨usurper, 1⟩⟩, ⟨0, .cleared⟩, ⟨0, .registered "label" ⟨heir, 4⟩⟩,
        ⟨0, .called ⟨inspector, 2⟩⟩, ⟨0, .asked .integer "spare" false⟩,
        ⟨0, .asked .integer "label" true⟩, ⟨1, .began .integer "label" [⟨heir, 4⟩]⟩,
        ⟨1, .called ⟨heir, 4⟩⟩, ⟨1, .resolved .integer "label"⟩,
        ⟨0, .called ⟨census, 3⟩⟩, ⟨0, .unregistered .integer "label" (some 1)⟩,
        ⟨0, .resolved .integer "label"⟩]
    let seven : ValueType.Carrier .integer := (7 : Int32)
    r.Reachable ∧ r.has .integer "spare" = true ∧ ∃ outcome declined answer,
      Resolves .integer seven "label" r outcome ∧
      FirstMatch seven (r.held .integer "label") r declined answer outcome.after ∧
      (∀ turn ∈ declined ++ answer.toList, turn.Deals seven) ∧
      outcome.value.as? .integer = some (1 : Int32) ∧ outcome.value.as? .text = none ∧
      (declined ++ answer.toList).map Turn.registration = snapshot ∧
      outcome.journal = records ∧ outcome.after.held .integer "label" = [] := by
  intro spare r snapshot records seven
  have reachable : r.Reachable :=
    (Registry.register_told _ "label" census).reachable
      ((Registry.register_told _ "label" inspector).reachable
        ((Registry.register_told _ "label" usurper).reachable
          ((Registry.register_told _ "spare" heir).reachable Registry.reachable_empty)))
  obtain ⟨outcome, done, number, text, journal, left⟩ : ∃ outcome,
      resolve 2 .integer seven "label" r = some outcome ∧
      outcome.value.as? .integer = some (1 : Int32) ∧ outcome.value.as? .text = none ∧
      outcome.journal = records ∧ outcome.after.held .integer "label" = [] :=
    ⟨_, rfl, rfl, rfl, rfl, rfl⟩
  obtain ⟨declined, answer, firstMatch, _, _, _, own, deals, _⟩ :=
    (lookup_first_match reachable seven "label" outcome).mp ⟨2, done⟩
  have calls : outcome.journal.ownCalls = snapshot := by
    rw [journal]
    rfl
  exact ⟨reachable, rfl, outcome, declined, answer, ⟨2, done⟩, firstMatch, deals, number, text,
    own.symm.trans calls, journal, left⟩

end Diagnostics.Capability
