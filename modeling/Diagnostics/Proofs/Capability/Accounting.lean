import Mathlib.Data.List.DropRight
import Std.Data.String.ToNat
import Diagnostics.Proofs.Capability.RegistrationLog

/-!
# The providers that are accounted for

How many providers a registry has is told in three places: by the table, by what the calls answer,
and by the log. The three agree at every moment, whoever makes the calls. A removal is logged just
if some provider takes the type, and where none does there is nothing to answer either, so the log
misses no provider.
-/
namespace Diagnostics

open Text (decimal)

namespace Event

/-- The number in a field. -/
def number? (event : Event) (name : String) : Option Nat := (event.field? name).bind String.toNat?

def reports (event : Event) (level : Level) (message : String) : Bool :=
  event.level = level ∧ event.field? "message" = some message

/-- The sum of a field over all events, if it is a number in each of them. -/
def total? (name : String) : List Event → Option Nat
  | [] => some 0
  | event :: rest => return (← event.number? name) + (← total? name rest)

theorem total?_append {name : String} {past future : List Event} {m n : Nat}
    (first : total? name past = some m) (second : total? name future = some n) :
    total? name (past ++ future) = some (m + n) := by
  induction past generalizing m with
  | nil =>
    cases first
    simpa using second
  | cons event rest ih =>
    simp only [total?, Option.bind_eq_bind, Option.bind_eq_some_iff] at first
    obtain ⟨own, number, others, total, whole⟩ := first
    cases whole
    simp [total?, number, ih total, Nat.add_assoc]

end Event

namespace Capability

/-- The act is a call by which a provider was registered. -/
def Act.isRegistration : Act → Bool
  | .registered .. => true
  | _ => false

/-- The act is a call by which the registry was cleared. -/
def Act.isClearing : Act → Bool
  | .cleared => true
  | _ => false

/-- What a call to remove providers answered. -/
def Act.removed : Act → Nat
  | .unregistered _ _ removed => removed.getD 0
  | _ => 0

namespace Journal

def registrations (journal : Journal) : Nat := journal.countP (·.act.isRegistration)

/-- What all calls to remove providers answered together. -/
def removals : Journal → Nat
  | [] => 0
  | entry :: rest => entry.act.removed + removals rest

/-- What happened after the registry was last cleared. -/
def sinceCleared (journal : Journal) : Journal := journal.rtakeWhile (!·.act.isClearing)

def Uncleared (journal : Journal) : Prop := ∀ entry ∈ journal, entry.act.isClearing = false

/-- The events that tell of registrations. -/
def registrationEvents (journal : Journal) : List Event :=
  journal.events.filter (·.reports .debug "registering capability provider")

/-- The events that tell of removals. -/
def removalEvents (journal : Journal) : List Event :=
  journal.events.filter (·.reports .debug "unregistered capability providers")

end Journal

/-- The registry has as many providers as its journal and its log tell. -/
structure Accounted (r : Registry) (journal : Journal) : Prop where
  providers : (r.table.size : Int) =
    journal.sinceCleared.registrations - journal.sinceCleared.removals
  text : r.text = "CapabilityRegistry \x7b value_types: " ++ decimal r.table.length ++
    ", providers: " ++
      decimal (journal.sinceCleared.registrations - journal.sinceCleared.removals) ++ " \x7d"
  logged : journal.Uncleared →
    ∃ removed, Event.total? "removed" journal.removalEvents = some removed ∧
      (r.table.size : Int) = journal.registrationEvents.length - removed

/-- A call to remove providers records what it answers, and tells the log just if some provider
takes the type. -/
structure Announced (r : Registry) (type : ValueType) (id : String) : Prop where
  answers : ∀ removed next, Happens r (.unregistered type id removed) next →
    (r.unregister type id).journal = [⟨0, .unregistered type id removed⟩] ∧
      (r.unregister type id).after = next ∧ (r.unregister type id).value = removed.getD 0
  silent : (r.unregister type id).journal.events = [] ↔ ∀ name, r.held type name = []
  tells : (∃ name, r.held type name ≠ []) →
    (r.unregister type id).journal.events =
      [⟨.debug, [("message", "unregistered capability providers"), ("capability", id),
        ("removed", decimal (r.held type id).length)]⟩]

/-- A request counts in the journal for what it is: a registration as one, a removal as the number
that is replied, and a clearing as one. -/
structure CountsFor (action : Session.Step) (reply : Session.Reply) (act : Act) : Prop where
  registration : act.isRegistration = true ↔ ∃ id provider, action = .register id provider
  clearing : act.isClearing = true ↔ action = .clear
  removal : ∀ type id, action = .unregister type id → reply = .number act.removed
  no_removal : (∀ type id, action ≠ .unregister type id) → act.removed = 0

theorem Served.countsFor {r next : Registry} {action : Session.Step} {reply : Session.Reply}
    {act : Act} (served : Served r action reply act next) : CountsFor action reply act := by
  cases served with
  | unregister _ counts _ =>
    exact ⟨by simp [Act.isRegistration], by simp [Act.isClearing],
      fun _ _ _ => congrArg Session.Reply.number counts.symm, fun other => absurd rfl (other _ _)⟩
  | _ => exact ⟨by simp [Act.isRegistration], by simp [Act.isClearing], by simp, fun _ => rfl⟩

theorem Log.length_after {log : Log} {act : Act} (agrees : log.Agrees act)
    (uncleared : act.isClearing = false) :
    (log.after act).length + act.removed =
      log.length + if act.isRegistration then 1 else 0 := by
  cases act with
  | registered id registration => simp [Log.after, Act.removed, Act.isRegistration]
  | unregistered type id removed =>
    have left := log.length_filter type id
    have answered : removed.getD 0 = (log.lines type id).length := agrees
    simp only [Log.after, Act.removed, Act.isRegistration, answered]
    rw [← log.length_held]
    simpa using left
  | cleared => simp [Act.isClearing] at uncleared
  | _ => simp [Log.after, Act.removed, Act.isRegistration]

/-- While nothing is cleared, every provider that a call brought in is held or was answered for. -/
theorem Filed.balance {r final : Registry} {log : Log} {journal : Journal} (filed : Filed r log)
    (chronicle : Chronicle r journal final) (uncleared : journal.Uncleared) :
    final.table.size + journal.removals = log.length + journal.registrations := by
  induction chronicle generalizing log with
  | nil r => simp [Journal.removals, Journal.registrations, filed.providers]
  | @cons r next final entry journal first rest ih =>
    obtain ⟨here, later⟩ := List.forall_mem_cons.mp uncleared
    have step := Log.length_after (filed.agrees first) here
    have onward := ih (filed.step first) later
    simp only [Journal.registrations, List.countP_cons, Journal.removals] at onward ⊢
    omega

theorem Journal.uncleared_sinceCleared (journal : Journal) : journal.sinceCleared.Uncleared := by
  intro entry member
  simpa using List.mem_rtakeWhile_imp member

theorem Journal.Uncleared.sinceCleared_eq {journal : Journal} (uncleared : journal.Uncleared) :
    journal.sinceCleared = journal := by
  refine List.rtakeWhile_eq_self_iff.mpr fun entry member => ?_
  simp [uncleared entry member]

theorem Happens.filed_of_clearing {r next : Registry} {act : Act} (happens : Happens r act next)
    (clearing : act.isClearing) : Filed next [] := by
  cases happens with
  | cleared => exact ⟨fun _ _ => rfl, Table.tidy_empty, rfl⟩
  | _ => simp [Act.isClearing] at clearing

/-- What happened since a registry was last cleared began without providers. -/
theorem Chronicle.sinceCleared {r : Registry} {journal : Journal}
    (chronicle : Chronicle ∅ journal r) :
    ∃ moment, Filed moment [] ∧ Chronicle moment journal.sinceCleared r := by
  have whole : journal.rdropWhile (!·.act.isClearing) ++ journal.sinceCleared = journal :=
    List.rdropWhile_append_rtakeWhile
  rw [← whole] at chronicle
  obtain ⟨moment, past, since⟩ := chronicle.split
  refine ⟨moment, ?_, since⟩
  by_cases never : journal.rdropWhile (!·.act.isClearing) = []
  · rw [never] at past
    cases past
    exact .empty
  · -- The last act of the past is the one that cleared the registry.
    have clearing := List.rdropWhile_last_not _ _ never
    rw [← List.dropLast_append_getLast never] at past
    obtain ⟨before, _, last⟩ := past.split
    cases last with
    | cons happens rest =>
      cases rest
      exact happens.filed_of_clearing (by simpa using clearing)

theorem Chronicle.providers {r : Registry} {journal : Journal} (chronicle : Chronicle ∅ journal r) :
    (r.table.size : Int) = journal.sinceCleared.registrations - journal.sinceCleared.removals := by
  obtain ⟨moment, filed, since⟩ := chronicle.sinceCleared
  have balance := filed.balance since journal.uncleared_sinceCleared
  simp only [List.length_nil] at balance
  omega

section Log

theorem Act.reports_registration (act : Act) :
    (act.event?.map (·.reports .debug "registering capability provider")).getD false =
      act.isRegistration := by
  rcases act with _ | _ | _ | _ | ⟨_, _, _ | _⟩ | _ | _ | _ | _ <;>
    simp [event?, isRegistration, Event.reports, Event.field?]

theorem Journal.length_registrationEvents (journal : Journal) :
    journal.registrationEvents.length = journal.registrations := by
  rw [registrationEvents, ← List.countP_eq_length_filter, events, List.countP_filterMap]
  simp only [Act.reports_registration]
  rfl

theorem toNat?_decimal (n : Nat) : (decimal n).toNat? = some n := Nat.toNat?_repr n

/-- The event of a removal tells what was answered; without an event nothing was removed. -/
theorem Act.total_removal (act : Act) :
    Event.total? "removed"
      (act.event?.toList.filter (·.reports .debug "unregistered capability providers")) =
        some act.removed := by
  rcases act with _ | _ | _ | _ | ⟨_, _, _ | _⟩ | _ | _ | _ | _ <;>
    simp [event?, removed, Event.reports, Event.field?, Event.number?, Event.total?,
      List.lookup_cons, toNat?_decimal]

theorem Journal.total_removalEvents (journal : Journal) :
    Event.total? "removed" journal.removalEvents = some journal.removals := by
  induction journal with
  | nil => rfl
  | cons entry rest ih =>
    have whole : removalEvents (entry :: rest) =
        entry.act.event?.toList.filter (·.reports .debug "unregistered capability providers") ++
          removalEvents rest := by
      simp only [removalEvents, events, List.filterMap_eq_flatMap_toList, List.flatMap_cons,
        List.filter_append]
    rw [whole, removals, Event.total?_append entry.act.total_removal ih]

end Log

theorem Chronicle.accounted {r : Registry} {journal : Journal} (chronicle : Chronicle ∅ journal r) :
    Accounted r journal where
  providers := chronicle.providers
  text := by
    have printed := congrArg decimal chronicle.providers
    unfold Registry.text
    simp only [printed]
  logged uncleared := by
    have providers := chronicle.providers
    rw [uncleared.sinceCleared_eq, ← journal.length_registrationEvents] at providers
    exact ⟨journal.removals, journal.total_removalEvents, providers⟩

/-- A type has an entry just if a provider takes it, since no entry is left without providers. -/
theorem Table.Tidy.hasType_iff {table : Table} (tidy : table.Tidy) (type : ValueType) :
    table.hasType type ↔ ∃ id, table.held type id ≠ [] := by
  rw [← tidy.mem_types]
  constructor
  · intro present
    obtain ⟨entries, found⟩ := Option.isSome_iff_exists.mp present
    exact List.mem_map_of_mem (Keyed.mem_of_get? found)
  · intro listed
    obtain ⟨entry, stored, rfl⟩ := List.mem_map.mp listed
    simp [Table.hasType, Keyed.get?_of_mem tidy.distinct stored]

theorem Registry.announced {r : Registry} (tidy : r.table.Tidy) (type : ValueType) (id : String) :
    Announced r type id := by
  have present := tidy.hasType_iff type
  have journal := r.unregister_journal type id
  refine ⟨?_, ?_, ?_⟩
  · intro removed next happens
    cases happens
    exact ⟨journal, rfl, by rw [r.unregister_value, r.removed_getD]⟩
  · rw [journal]
    by_cases takes : r.table.hasType type
    · have someone : ¬ ∀ name, r.held type name = [] := by
        simpa [Registry.held] using present.mp takes
      simp [Journal.events, Act.event?, takes, someone]
    · have nobody : ∀ name, r.held type name = [] := Table.held_absent takes
      simp [Journal.events, Act.event?, takes, nobody]
  · intro someone
    rw [journal, if_pos (present.mpr someone)]
    rfl

/-- At every moment the table has as many providers as were registered since the registry was last
cleared, less those that the calls to remove some have answered for since. All such calls count,
those made by steps and those made by providers while they run: each is recorded once, for what it
is and with what it answered. If nothing was cleared the log tells the same number. A call to remove
providers is logged just if some provider takes the type, under whatever id. Each step of a run
leaves a registry of which this holds, by the records of the run so far. -/
theorem providers_accounted :
    (∀ journal r, Chronicle ∅ journal r →
      Accounted r journal ∧ (∀ type id, Announced r type id) ∧ r.Accurate) ∧
    (∀ r action reply act next, Served r action reply act next → CountsFor action reply act) ∧
    ∀ bound steps outcomes, Session.run bound ∅ steps = some outcomes →
      ∀ n action, steps[n]? = some action →
        let earlier := (outcomes.take n).flatMap Outcome.journal
        ∃ before outcome, outcomes[n]? = some outcome ∧
          Chronicle ∅ earlier before ∧ Session.Answers before action outcome ∧
          Chronicle ∅ (earlier ++ outcome.journal) outcome.after ∧
          Accounted outcome.after (earlier ++ outcome.journal) := by
  refine ⟨?_, fun _ _ _ _ _ served => served.countsFor, ?_⟩
  · intro journal r chronicle
    have filed := Filed.empty.ofJournal chronicle
    have typed : r.WellTyped := Registry.Reachable.wellTyped ⟨journal, chronicle⟩
    exact ⟨chronicle.accounted, Registry.announced filed.tidy, typed.accurate⟩
  · intro bound steps outcomes done n action here
    obtain ⟨before, outcome, found, stepped, earlier⟩ := Session.run_told done here
    have answers := Session.answers_of_step stepped
    have told := earlier.append answers.told
    exact ⟨before, outcome, found, earlier, answers, told, told.accounted⟩

end Capability
end Diagnostics
