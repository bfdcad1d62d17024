import Diagnostics.Proofs.Capability.FirstMatch

/-!
# The course of events

A journal is flat, but what it records is a tree: clients and running providers make requests and
lookups, a lookup calls providers, and while one of these runs it acts in turn. A course is the tree
that belongs to a journal. Of the journal it uses only which acts there were, since the tree tells
how deep they were.

The calls of a course say more than the journal does: for which value a provider was called and what
it came to. They stand in the order in which they began, a call before the calls made inside it, and
for a run they are those that the run itself makes.
-/
namespace Diagnostics.Capability

/-- Who acts: a client, a provider that runs, known by its type and serial number, or a lookup with
the providers that it may ask. -/
inductive Party where
  | client
  | provider (type : ValueType) (serial : Nat)
  | lookup (candidates : List Registration)

/-- What a party does itself besides calls. A provider keeps no number but its own. -/
def Party.Makes : Party → Act → Prop
  | .lookup _, _ => False
  | .client, .kept .. => False
  | .provider type serial, .kept keeper place _ => keeper = type ∧ place = serial
  | _, act => act.isRequest ∨ ∃ type id candidates, act = .began type id candidates

/-- A provider's turn with the value that it was called for. -/
structure Call extends Turn where
  value : registration.provider.takes.Carrier
  runs : registration.Runs value before own

def Journal.acts (journal : Journal) : List Act := journal.map Entry.act

/-- In this order a party does these acts and, directly or through others, makes these calls. -/
inductive Course : Party → Registry → List Act → List Call → Registry → Prop where
  | nil (party : Party) (r : Registry) : Course party r [] [] r
  | request {party : Party} {r next final : Registry} {act : Act} {acts : List Act}
      {calls : List Call} (request : act.isRequest) (makes : party.Makes act)
      (happens : Happens r act next) (rest : Course party next acts calls final) :
      Course party r (act :: acts) calls final
  /-- All that a lookup records lies between its beginning and its end. -/
  | lookup {party : Party} {r final : Registry} {type : ValueType} {value : type.Carrier}
      {id : String} {inner : Outcome Resolution} {turns acts : List Act}
      {inside calls : List Call} (makes : party.Makes (.began type id (r.held type id)))
      (found : Resolves type value id r inner)
      (records : inner.journal.acts = .began type id (r.held type id) :: turns ++
        [closing type id (r.held type id).length inner.value])
      (nested : Course (.lookup (r.held type id)) r turns inside inner.after)
      (rest : Course party inner.after acts calls final) :
      Course party r (inner.journal.acts ++ acts) (inside ++ calls) final
  | call {candidates : List Registration} {final : Registry} (call : Call) {acts : List Act}
      {inside calls : List Call} (listed : call.registration ∈ candidates)
      (nested : Course (.provider call.registration.provider.takes call.registration.serial)
        call.before call.own.journal.acts inside call.own.after)
      (rest : Course (.lookup candidates) call.own.after acts calls final) :
      Course (.lookup candidates) call.before
        (.called call.registration :: call.own.journal.acts ++ acts) (call :: inside ++ calls) final

/-- For each lookup the calls made in it. -/
abbrev Roll := (type : ValueType) → type.Carrier → String → Registry → List Call

section Rolls

variable (bound : Nat) (inside : Roll)

/-- The calls made while a script is carried out, if it comes to an end. -/
def Script.calls (type : ValueType) (serial : Nat) {gives : ValueType} :
    Script gives → Registry → List Call
  | .answer _, _ => []
  | .has asked id next, r => (next (r.query asked id).value).calls type serial r
  | .resolve asked value id next, r =>
      match Capability.resolve bound asked value id r with
      | some inner => inside asked value id r ++ (next inner.value).calls type serial inner.after
      | none => []
  | .register takes gives id name run next, r =>
      next.calls type serial (r.register id ⟨takes, gives, name, run⟩).after
  | .unregister asked id next, r =>
      (next (r.unregister asked id).value).calls type serial (r.unregister asked id).after
  | .clear next, r => next.calls type serial r.clear.after
  | .keep change next, r =>
      (next (r.keep type serial change).value).calls type serial (r.keep type serial change).after

/-- The call of a provider, if it is called, and those that it makes. -/
def Registration.calls (type : ValueType) (value : type.Carrier) (registration : Registration)
    (r : Registry) : List Call :=
  let provider := registration.provider
  if takes : type = provider.takes then
    let script := provider.run (takes ▸ value)
    match ran : script.run (resolve bound) provider.takes registration.serial r with
    | some own =>
        ⟨⟨registration, r, own⟩, takes ▸ value, bound, ran⟩ ::
          script.calls bound inside provider.takes registration.serial r
    | none => []
  else []

/-- The calls made while candidates are asked in turn. -/
def callsInTurn (type : ValueType) (value : type.Carrier) :
    List Registration → Registry → List Call
  | [], _ => []
  | candidate :: others, r =>
      match candidate.ask (resolve bound) type value r with
      | some first =>
          candidate.calls bound inside type value r ++
            if first.value.isSome then [] else callsInTurn type value others first.after
      | none => []

end Rolls

/-- The calls made in a lookup with this bound. -/
def lookupCalls : (bound : Nat) → Roll
  | 0 => fun _ _ _ _ => []
  | bound + 1 => fun type value id r =>
      callsInTurn bound (lookupCalls bound) type value (r.held type id) r

namespace Session

def stepCalls (bound : Nat) (r : Registry) : Step → List Call
  | .resolve subject id =>
      match subject.build with
      | .ok view => lookupCalls bound view.type view.value id r
      | .error _ => []
  | _ => []

/-- The calls made in a run, in their order, those inside others included. -/
def calls (bound : Nat) (r : Registry) : List Step → List Call
  | [] => []
  | action :: rest =>
      match step bound r action with
      | some first => stepCalls bound r action ++ calls bound first.after rest
      | none => []

end Session

section Acts

variable {past future : Journal}

theorem Journal.acts_append : acts (past ++ future) = past.acts ++ future.acts := List.map_append

theorem Journal.acts_deepen (journal : Journal) :
    acts (journal.map Entry.deepen) = journal.acts :=
  List.map_map

/-- The depths in a chronicle do not matter. -/
theorem Chronicle.of_acts {r final : Registry} {journal other : Journal}
    (chronicle : Chronicle r journal final) (same : journal.acts = other.acts) :
    Chronicle r other final := by
  induction chronicle generalizing other with
  | nil r =>
    rw [List.map_eq_nil_iff.mp same.symm]
    exact .nil r
  | cons first _ ih =>
    obtain ⟨entry, rest, rfl, act, acts⟩ := List.map_eq_cons_iff.mp same.symm
    exact .cons (act ▸ first) (ih acts.symm)

end Acts

/-- These acts, one after the other and at whatever depth, lead from one registry to the other. -/
def Passes (r : Registry) (acts : List Act) (final : Registry) : Prop :=
  Chronicle r (acts.map (Entry.mk 0)) final

namespace Passes

variable {r next final : Registry} {past future : List Act}

theorem of_chronicle {journal : Journal} (chronicle : Chronicle r journal final) :
    Passes r journal.acts final :=
  chronicle.of_acts (by simp [Journal.acts])

theorem chronicle {journal : Journal} (passes : Passes r journal.acts final) :
    Chronicle r journal final :=
  passes.of_acts (by simp [Journal.acts])

theorem single {act : Act} (happens : Happens r act next) : Passes r [act] next :=
  Chronicle.single 0 happens

theorem cons {act : Act} (happens : Happens r act next) (rest : Passes next future final) :
    Passes r (act :: future) final :=
  Chronicle.cons happens rest

theorem uncons {act : Act} (passes : Passes r (act :: future) final) :
    ∃ next, Happens r act next ∧ Passes next future final := by
  cases passes with
  | cons happens rest => exact ⟨_, happens, rest⟩

theorem append (first : Passes r past next) (second : Passes next future final) :
    Passes r (past ++ future) final := by
  rw [Passes, List.map_append]
  exact Chronicle.append first second

end Passes

theorem Resolves.passes {type : ValueType} {value : type.Carrier} {id : String} {r : Registry}
    {outcome : Outcome Resolution} (found : Resolves type value id r outcome) :
    Passes r outcome.journal.acts outcome.after := by
  obtain ⟨bound, done⟩ := found
  exact .of_chronicle (resolve_told bound done)

theorem Course.passes {party : Party} {r final : Registry} {acts : List Act} {calls : List Call}
    (course : Course party r acts calls final) : Passes r acts final := by
  induction course with
  | nil party r => exact .nil r
  | request _ _ happens _ ih => exact .cons happens ih
  | lookup _ found _ _ _ _ ih => exact found.passes.append ih
  | call call _ _ _ nested ih => exact .cons (.called _ _) (nested.append ih)

/-- The calls that a roll tells of each have their course. -/
def Roll.Charted (bound : Nat) (roll : Roll) : Prop :=
  ∀ ⦃type value id r outcome⦄, resolve bound type value id r = some outcome →
    ∃ turns, outcome.journal.acts = .began type id (r.held type id) :: turns ++
        [closing type id (r.held type id).length outcome.value] ∧
      Course (.lookup (r.held type id)) r turns (roll type value id r) outcome.after

section Charted

variable {bound : Nat} {inside : Roll} (charted : inside.Charted bound)
include charted

theorem Script.run_course {type : ValueType} {serial : Nat} {gives : ValueType}
    (script : Script gives) {r : Registry} {outcome : Outcome (Option gives.Carrier)}
    (done : script.run (Capability.resolve bound) type serial r = some outcome) :
    Course (.provider type serial) r outcome.journal.acts
      (script.calls bound inside type serial r) outcome.after := by
  induction script generalizing r with
  | answer view =>
    cases done
    exact .nil _ r
  | has asked id next ih =>
    obtain ⟨rest, ran, rfl⟩ := behind_eq_some.mp done
    exact .request rfl (.inl rfl) (.asked r asked id) (ih _ ran)
  | resolve asked value id next ih =>
    obtain ⟨inner, found, onward⟩ := Option.bind_eq_some_iff.mp done
    obtain ⟨rest, ran, rfl⟩ := behind_eq_some.mp onward
    obtain ⟨turns, records, nested⟩ := charted found
    rw [Outcome.behind, Journal.acts_append, Journal.acts_deepen, calls, found]
    exact .lookup (.inr ⟨_, _, _, rfl⟩) ⟨bound, found⟩ records nested (ih _ ran)
  | register takes result id name run next _ ih =>
    obtain ⟨rest, ran, rfl⟩ := behind_eq_some.mp done
    exact .request rfl (.inl rfl) (.registered r id _) (ih ran)
  | unregister asked id next ih =>
    obtain ⟨rest, ran, rfl⟩ := behind_eq_some.mp done
    rw [Outcome.behind, r.unregister_journal asked id]
    exact .request rfl (.inl rfl) (.unregistered r asked id) (ih _ ran)
  | clear next ih =>
    obtain ⟨rest, ran, rfl⟩ := behind_eq_some.mp done
    exact .request rfl (.inl rfl) (.cleared r) (ih ran)
  | keep change next ih =>
    obtain ⟨rest, ran, rfl⟩ := behind_eq_some.mp done
    exact .request rfl ⟨rfl, rfl⟩ (.kept r type serial change) (ih _ ran)

/-- Whoever is called is one of the candidates, of which some may have had their turns already. -/
theorem Registration.ask_course {type : ValueType} {value : type.Carrier}
    {registration : Registration} {candidates : List Registration}
    (listed : registration ∈ candidates) {r final : Registry} {outcome : Outcome Resolution}
    (done : registration.ask (resolve bound) type value r = some outcome) {acts : List Act}
    {calls : List Call} (rest : Course (.lookup candidates) outcome.after acts calls final) :
    Course (.lookup candidates) r (outcome.journal.acts ++ acts)
      (registration.calls bound inside type value r ++ calls) final := by
  by_cases takes : type = registration.provider.takes
  · obtain ⟨own, ran, rfl⟩ := (Registration.ask_eq_some takes).mp done
    have called : registration.calls bound inside type value r =
        ⟨⟨registration, r, own⟩, takes ▸ value, bound, ran⟩ ::
          (registration.provider.run (takes ▸ value)).calls bound inside
            registration.provider.takes registration.serial r := by
      simp only [Registration.calls, dif_pos takes]
      split
      · next other again =>
        cases ran.symm.trans again
        rfl
      · next nothing =>
        cases ran.symm.trans nothing
    rw [called]
    have nested := Script.run_course charted _ ran
    exact .call ⟨⟨registration, r, own⟩, _, bound, ran⟩ listed nested rest
  · have nobody : registration.calls bound inside type value r = [] := dif_neg takes
    rw [Registration.ask_of_ne takes] at done
    cases done
    rw [nobody]
    exact rest

theorem askInTurn_course {type : ValueType} {value : type.Carrier}
    {candidates others : List Registration} (part : others ⊆ candidates) {r : Registry}
    {outcome : Outcome Resolution}
    (done : askInTurn (resolve bound) type value others r = some outcome) :
    Course (.lookup candidates) r outcome.journal.acts
      (callsInTurn bound inside type value others r) outcome.after := by
  induction others generalizing r outcome with
  | nil =>
    cases done
    exact .nil _ r
  | cons candidate others ih =>
    obtain ⟨listed, part⟩ := List.cons_subset.mp part
    obtain ⟨first, asked, goes⟩ := askInTurn_cons_eq_some.mp done
    rw [callsInTurn, asked]
    dsimp only
    rcases goes with ⟨answered, rfl⟩ | ⟨declined, rest, onward, rfl⟩
    · have last := Registration.ask_course charted listed asked (.nil _ first.after)
      rw [List.append_nil] at last
      rw [if_pos answered]
      exact last
    · have turn := Registration.ask_course charted listed asked (ih part onward)
      rw [Outcome.behind, Journal.acts_append, declined]
      exact turn

end Charted

theorem lookupCalls_charted (bound : Nat) : (lookupCalls bound).Charted bound := by
  induction bound with
  | zero =>
    intro type value id r outcome done
    cases done
  | succ bound ih =>
    intro type value id r outcome done
    obtain ⟨inTurn, ran, rfl⟩ := resolve_succ_eq_some.mp done
    refine ⟨inTurn.journal.acts, ?_, askInTurn_course ih (List.Subset.refl _) ran⟩
    simp [Journal.acts]

/-- A lookup that a client makes is a course of its own. -/
theorem resolve_course {bound : Nat} {type : ValueType} {value : type.Carrier} {id : String}
    {r : Registry} {outcome : Outcome Resolution}
    (done : resolve bound type value id r = some outcome) :
    Course .client r outcome.journal.acts (lookupCalls bound type value id r) outcome.after := by
  obtain ⟨turns, records, nested⟩ := lookupCalls_charted bound done
  have whole : Course .client r (outcome.journal.acts ++ [])
      (lookupCalls bound type value id r ++ []) outcome.after :=
    .lookup (.inr ⟨_, _, _, rfl⟩) ⟨bound, done⟩ records nested (.nil _ outcome.after)
  rw [List.append_nil, List.append_nil] at whole
  exact whole

theorem Course.append {party : Party} {r next final : Registry} {acts more : List Act}
    {calls later : List Call} (first : Course party r acts calls next)
    (second : Course party next more later final) :
    Course party r (acts ++ more) (calls ++ later) final := by
  induction first with
  | nil => exact second
  | request request makes happens _ ih => exact .request request makes happens (ih second)
  | lookup makes found records nested _ _ ih =>
    rw [List.append_assoc, List.append_assoc]
    exact .lookup makes found records nested (ih second)
  | call call listed nested _ _ ih =>
    rw [List.append_assoc, List.append_assoc]
    exact .call call listed nested (ih second)

namespace Session

theorem step_course {bound : Nat} {r : Registry} {action : Step} {outcome : Outcome Reply}
    (done : step bound r action = some outcome) :
    Course .client r outcome.journal.acts (stepCalls bound r action) outcome.after := by
  cases action with
  | register id provider =>
    cases done
    exact .request rfl (.inl rfl) (.registered r id provider) (.nil _ _)
  | has type id =>
    cases done
    exact .request rfl (.inl rfl) (.asked r type id) (.nil _ _)
  | unregister type id =>
    cases done
    rw [r.unregister_journal type id]
    exact .request rfl (.inl rfl) (.unregistered r type id) (.nil _ _)
  | resolve subject id =>
    rw [stepCalls]
    rcases step_resolve_eq_some.mp done with ⟨view, built, found, ran, rfl⟩ | ⟨fault, built, rfl⟩
    · rw [built]
      exact resolve_course ran
    · rw [built]
      exact .nil _ r
  | clear =>
    cases done
    exact .request rfl (.inl rfl) (.cleared r) (.nil _ _)

/-- The journals of a run, one behind the other, have a course. -/
theorem run_course {bound : Nat} {steps : List Step} {r : Registry}
    {outcomes : List (Outcome Reply)} (done : run bound r steps = some outcomes) :
    ∃ final, Course .client r (Journal.acts (outcomes.flatMap Outcome.journal))
      (calls bound r steps) final := by
  induction steps generalizing r outcomes with
  | nil =>
    cases done
    exact ⟨r, .nil _ r⟩
  | cons action rest ih =>
    obtain ⟨first, begun, others, ran, rfl⟩ := run_cons_eq_some.mp done
    obtain ⟨final, onward⟩ := ih ran
    refine ⟨final, ?_⟩
    rw [List.flatMap_cons, Journal.acts_append, calls, begun]
    exact (step_course begun).append onward

end Session
end Diagnostics.Capability
