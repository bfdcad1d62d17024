import Mathlib.Data.List.Dedup
import Diagnostics.Proofs.Capability.Filing
import Diagnostics.Proofs.Capability.FirstMatch

/-!
# The registration log

The table of a registry is a flat log of registrations, filed. A registration is appended to the
log, a removal deletes the lines of its capability, clearing empties the log, and nothing else
changes it. The log is kept by whoever acts, a provider deep inside a lookup included, so it is read
off the journal.
-/
namespace Diagnostics.Capability

/-- A registration with the capability that it is for. -/
structure Line where
  type : ValueType
  id : String
  registration : Registration

abbrev Log := List Line

def Line.isFor (line : Line) (type : ValueType) (id : String) : Bool :=
  line.type = type ∧ line.id = id

namespace Log

def lines (log : Log) (type : ValueType) (id : String) : Log := log.filter (·.isFor type id)

def held (log : Log) (type : ValueType) (id : String) : List Registration :=
  (log.lines type id).map Line.registration

def after (log : Log) : Act → Log
  | .registered id registration => log ++ [⟨registration.provider.takes, id, registration⟩]
  | .unregistered type id _ => log.filter fun line => !line.isFor type id
  | .cleared => []
  | _ => log

def ofJournal (journal : Journal) : Log := journal.foldl (fun log entry => log.after entry.act) []

/-- The value types in the log, each once. -/
def types (log : Log) : List ValueType := (log.map Line.type).dedup

/-- The act reports what the log has. -/
def Agrees (log : Log) : Act → Prop
  | .asked type id found => found = true ↔ ∃ line ∈ log, line.type = type ∧ line.id = id
  | .unregistered type id removed => removed.getD 0 = (log.lines type id).length
  | .began type id candidates => candidates = log.held type id
  | _ => True

end Log

/-- What a request is answered if the log is asked. -/
inductive Log.Replies (log : Log) : Session.Step → Session.Reply → Prop where
  | has {type : ValueType} {id : String} {found : Bool}
      (listed : found = true ↔ ∃ line ∈ log, line.type = type ∧ line.id = id) :
      Replies log (.has type id) (.flag found)
  | register (id : String) (provider : Provider) : Replies log (.register id provider) .done
  | unregister (type : ValueType) (id : String) :
      Replies log (.unregister type id) (.number (log.lines type id).length)
  | clear : Replies log .clear .done

/-- What can be seen of a registry is what the log has. -/
structure Refines (r : Registry) (log : Log) : Prop where
  held : ∀ type id, r.held type id = log.held type id
  has : ∀ type id, r.has type id = true ↔ ∃ line ∈ log, line.type = type ∧ line.id = id
  queried : ∀ type id,
    (r.query type id).value = true ↔ ∃ line ∈ log, line.type = type ∧ line.id = id
  removed : ∀ type id, (r.unregister type id).value = (log.lines type id).length
  tidy : r.table.Tidy
  types : r.table.length = log.types.length
  providers : r.table.size = log.length
  text : r.text = "CapabilityRegistry \x7b value_types: " ++ Text.decimal log.types.length ++
    ", providers: " ++ Text.decimal log.length ++ " \x7d"

/-- The registry holds the lines of the log, and no others. -/
structure Filed (r : Registry) (log : Log) : Prop where
  held : ∀ type id, r.held type id = log.held type id
  tidy : r.table.Tidy
  providers : r.table.size = log.length

namespace Log

variable (log : Log) (type : ValueType) (id : String)

theorem length_held : (log.held type id).length = (log.lines type id).length :=
  List.length_map _

theorem held_eq_nil : log.held type id = [] ↔ ¬ ∃ line ∈ log, line.type = type ∧ line.id = id := by
  simp [held, lines, Line.isFor]

theorem held_append (name : String) (registration : Registration) :
    held (log ++ [⟨registration.provider.takes, name, registration⟩]) type id =
      if registration.provider.takes = type ∧ name = id then log.held type id ++ [registration]
      else log.held type id := by
  by_cases same : registration.provider.takes = type ∧ name = id
  · rw [if_pos same]
    simp [held, lines, Line.isFor, List.filter_append, same]
  · rw [if_neg same]
    simp [held, lines, Line.isFor, List.filter_append, same]

theorem held_filter (other : ValueType) (name : String) :
    held (log.filter fun line => !line.isFor other name) type id =
      if other = type ∧ name = id then [] else log.held type id := by
  unfold held lines
  rw [List.filter_filter]
  split
  · next same =>
    obtain ⟨rfl, rfl⟩ := same
    simp
  · next different =>
    refine congrArg (List.map Line.registration) (List.filter_congr fun line _ => ?_)
    by_cases here : line.type = type ∧ line.id = id
    · have elsewhere : ¬ (line.type = other ∧ line.id = name) := fun there =>
        different ⟨there.1.symm.trans here.1, there.2.symm.trans here.2⟩
      simp [Line.isFor, elsewhere]
    · simp [Line.isFor, here]

theorem length_filter :
    (log.filter fun line => !line.isFor type id).length + (log.held type id).length =
      log.length := by
  have parts := List.length_eq_length_filter_add (l := log) (·.isFor type id)
  rw [length_held, lines]
  omega

end Log

namespace Filed

variable {r next : Registry} {log : Log} {act : Act} {action : Session.Step}
  {reply : Session.Reply}

theorem empty : Filed ∅ [] := ⟨fun _ _ => rfl, Table.tidy_empty, rfl⟩

theorem register (filed : Filed r log) (id : String) (provider : Provider) :
    Filed (r.register id provider).after (log.after (.registered id (r.enrol provider))) where
  held type name := by
    rw [Registry.held_register, filed.held type name]
    exact (log.held_append type name id (r.enrol provider)).symm
  tidy := filed.tidy.add provider.takes id (r.enrol provider)
  providers := by
    have grown := Table.size_add r.table provider.takes id (r.enrol provider)
    have same := filed.providers
    change (r.table.add provider.takes id (r.enrol provider)).size = (log ++ [_]).length
    rw [List.length_append, List.length_singleton]
    omega

theorem unregister (filed : Filed r log) (type : ValueType) (id : String) (removed : Option Nat) :
    Filed (r.unregister type id).after (log.after (.unregistered type id removed)) where
  held other name := by
    rw [Registry.held_unregister, filed.held other name]
    exact (log.held_filter other name type id).symm
  tidy := by
    rw [r.unregister_table type id]
    exact filed.tidy.remove type id
  providers := by
    have shrunk : _ + (r.held type id).length = _ := filed.tidy.size_remove type id
    have left := log.length_filter type id
    have same := filed.providers
    rw [r.unregister_table type id]
    change _ = (log.filter fun line => !line.isFor type id).length
    rw [filed.held] at shrunk
    omega

/-- What an act does to the registry it does to the log. -/
theorem step (filed : Filed r log) (happens : Happens r act next) : Filed next (log.after act) := by
  cases happens with
  | registered id provider => exact filed.register id provider
  | unregistered type id => exact filed.unregister type id _
  | cleared => exact ⟨fun _ _ => rfl, Table.tidy_empty, rfl⟩
  | kept _ _ _ => exact ⟨filed.held, filed.tidy, filed.providers⟩
  | called _ => exact filed
  | asked _ _ => exact filed
  | began _ _ => exact filed
  | resolved _ _ => exact filed
  | unsupported _ _ _ => exact filed

theorem held_ne_nil (filed : Filed r log) (type : ValueType) (id : String) :
    r.held type id ≠ [] ↔ ∃ line ∈ log, line.type = type ∧ line.id = id := by
  rw [filed.held, ne_eq, log.held_eq_nil, not_not]

theorem has_iff (filed : Filed r log) (type : ValueType) (id : String) :
    r.has type id = true ↔ ∃ line ∈ log, line.type = type ∧ line.id = id := by
  rw [← filed.held_ne_nil]
  simp [Registry.has]

theorem length_types (filed : Filed r log) : r.table.length = log.types.length := by
  -- Both lists have each type once, so it is enough that they have the same types.
  have same : (r.table.map Prod.fst).Perm log.types := by
    refine (List.perm_ext_iff_of_nodup filed.tidy.distinct (List.nodup_dedup _)).mpr fun type => ?_
    rw [filed.tidy.mem_types, List.mem_dedup, List.mem_map]
    constructor
    · rintro ⟨id, provider⟩
      obtain ⟨line, member, this, _⟩ := (filed.held_ne_nil type id).mp provider
      exact ⟨line, member, this⟩
    · rintro ⟨line, member, rfl⟩
      exact ⟨line.id, (filed.held_ne_nil line.type line.id).mpr ⟨line, member, rfl, rfl⟩⟩
  simpa using same.length_eq

theorem refines (filed : Filed r log) : Refines r log where
  held := filed.held
  has := filed.has_iff
  queried := filed.has_iff
  removed type id := by
    rw [r.unregister_value, filed.held, log.length_held]
  tidy := filed.tidy
  types := filed.length_types
  providers := filed.providers
  text := by
    unfold Registry.text
    rw [filed.length_types, filed.providers]

/-- An act reports what the log has of the moment before it. -/
theorem agrees (filed : Filed r log) (happens : Happens r act next) : log.Agrees act := by
  cases happens with
  | asked type id => exact filed.has_iff type id
  | unregistered type id =>
    change Option.getD (if _ then _ else _) 0 = _
    rw [r.removed_getD, filed.held, log.length_held]
  | began type id => exact filed.held type id
  | _ => trivial

/-- A request is answered as the log has it, too. -/
theorem replies (filed : Filed r log) (served : Served r action reply act next) :
    log.Replies action reply := by
  cases served with
  | has holds => exact .has (holds.trans (filed.held_ne_nil _ _))
  | register _ _ _ => exact .register _ _
  | @unregister type id _ _ _ _ _ =>
    rw [filed.held, log.length_held]
    exact .unregister type id
  | clear _ _ => exact .clear

theorem ofJournal {journal : Journal} (filed : Filed r log) (chronicle : Chronicle r journal next) :
    Filed next (journal.foldl (fun log entry => log.after entry.act) log) := by
  induction chronicle generalizing log with
  | nil => exact filed
  | cons first _ ih => exact ih (filed.step first)

end Filed

/-- At the end of every chronicle, and so at each of its moments, the registry is what the log of
the acts so far says. Whatever act comes next reports what that log has, and a request is answered
from it and leaves the registry that the log says afterwards; the requests are those of the steps
and of the providers that run. Each step of a run takes place in a registry that the records of the
steps before it tell of and answers what it is served there; its own records, nested lookups
included, are further moments, and the last of them is the registry that the step leaves. -/
theorem table_refines_log :
    (∀ (journal : Journal) (r : Registry), Chronicle ∅ journal r →
      let log := Log.ofJournal journal
      Refines r log ∧ r.Accurate ∧ (∀ act next, Happens r act next → log.Agrees act) ∧
        ∀ action reply act next, Served r action reply act next →
          log.Replies action reply ∧ log.Agrees act ∧ Refines next (log.after act)) ∧
    ∀ (bound : Nat) (past : List Session.Step) (action : Session.Step)
      (future : List Session.Step) (outcomes : List (Outcome Session.Reply)),
      Session.run bound ∅ (past ++ action :: future) = some outcomes →
        let earlier := (outcomes.take past.length).flatMap Outcome.journal
        ∃ before outcome, outcomes[past.length]? = some outcome ∧
          Session.step bound before action = some outcome ∧ Chronicle ∅ earlier before ∧
          Session.Answers before action outcome ∧
          ∀ done rest, outcome.journal = done ++ rest →
            ∃ moment, Chronicle ∅ (earlier ++ done) moment ∧
              Chronicle moment rest outcome.after := by
  constructor
  · intro journal r chronicle log
    have filed : Filed r log := Filed.empty.ofJournal chronicle
    have typed : r.WellTyped := Registry.Reachable.wellTyped ⟨journal, chronicle⟩
    refine ⟨filed.refines, typed.accurate, fun act next happens => filed.agrees happens, ?_⟩
    intro action reply act next served
    exact ⟨filed.replies served, filed.agrees served.happens, (filed.step served.happens).refines⟩
  · intro bound past action future outcomes ran
    have here : (past ++ action :: future)[past.length]? = some action := by simp
    obtain ⟨before, outcome, found, stepped, earlier⟩ := Session.run_told ran here
    have answers := Session.answers_of_step stepped
    refine ⟨before, outcome, found, stepped, earlier, answers, ?_⟩
    intro done rest parts
    have told : Chronicle before (done ++ rest) outcome.after := parts ▸ answers.told
    obtain ⟨moment, first, second⟩ := told.split
    exact ⟨moment, earlier.append first, second⟩

end Diagnostics.Capability
