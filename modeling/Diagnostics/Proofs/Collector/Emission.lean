import Diagnostics.Collector.Session
import Diagnostics.Proofs.Collector.Filtering
import Diagnostics.Proofs.Source.Wording

/-!
# What a log shows of a collector

A log has two levels for three severities. So the events of a collector count as its masks do, and
an event tells its problem but for two things: a message that is absent reads as an empty one, and
an abort reads as an error whose message has the word for an abort in front.
-/
namespace Diagnostics

/-- The level at which a problem is logged. -/
def Severity.level : Severity → Level
  | .abort => .error
  | .error => .error
  | .warning => .warn

namespace Problem

/-- The message of a problem in a log. -/
def logged (p : Problem) : String :=
  match p.severity with
  | .abort => "abort: " ++ p.message.getD ""
  | _ => p.message.getD ""

/-- The message of an error is the one that a log has for the abort. -/
def Mimics (error abort : Problem) : Prop :=
  error.severity = .error ∧ abort.severity = .abort ∧
    error.message = some ("abort: " ++ abort.message.getD "")

/-- Two problems of which a log tells no more than their places apart. -/
def LoggedAlike (p q : Problem) : Prop :=
  (p.severity = q.severity ∧ p.message.getD "" = q.message.getD "") ∨ p.Mimics q ∨ q.Mimics p

/-- The event is the problem's own and names its place. -/
structure ShownBy (p : Problem) (event : Event) : Prop where
  own : event = p.event
  moduleName : event.field? "module" = some p.location.moduleName
  location : event.field? "location" = some p.locationText

variable {p q : Problem}

theorem event_eq (p : Problem) :
    p.event = ⟨p.severity.level, [("message", p.logged), ("module", p.location.moduleName),
      ("location", p.locationText)]⟩ := by
  unfold event logged
  cases p.severity <;> rfl

theorem event_level (p : Problem) : p.event.level = p.severity.level := by rw [event_eq]

theorem shownBy_event (p : Problem) : p.ShownBy p.event where
  own := rfl
  moduleName := by
    rw [event_eq]
    rfl
  location := by
    rw [event_eq]
    rfl

/-- Only a message that is there reads like a text that is not empty. -/
theorem getD_eq_iff {message : Option String} {text : String} (nonempty : text ≠ "") :
    message.getD "" = text ↔ message = some text := by
  cases message with
  | none => simp [nonempty.symm]
  | some message => simp

theorem getD_eq_abort_iff {message : Option String} {text : String} :
    message.getD "" = "abort: " ++ text ↔ message = some ("abort: " ++ text) :=
  getD_eq_iff fun empty => by simp [String.append_eq_empty_iff] at empty

theorem loggedAlike_iff :
    p.LoggedAlike q ↔ p.severity.level = q.severity.level ∧ p.logged = q.logged := by
  obtain ⟨_, message, severity⟩ := p
  obtain ⟨_, message', severity'⟩ := q
  -- Besides equal severities, abort and error are the only two of one level.
  cases severity <;> cases severity' <;>
    simp [LoggedAlike, Mimics, logged, Severity.level, getD_eq_abort_iff]
  rw [← getD_eq_abort_iff, eq_comm]

theorem event_eq_iff : p.event = q.event ↔ p.location = q.location ∧ p.LoggedAlike q := by
  rw [event_eq, event_eq, loggedAlike_iff]
  constructor
  · intro same
    simp only [Event.mk.injEq, List.cons.injEq, Prod.mk.injEq, true_and, and_true] at same
    obtain ⟨level, logged, _, place⟩ := same
    exact ⟨Location.text_inj.mp place, level, logged⟩
  · rintro ⟨place, level, logged⟩
    rw [locationText, locationText, place, level, logged]

end Problem

namespace Collector

/-- What a log holds after the problems of a collector were written to it. -/
structure Logged (c : Collector) (events : List Event) : Prop where
  one_each : List.Forall₂ Problem.ShownBy c.problems events
  warnings : events.countP (·.level = .warn) = c.count {.warning}
  errors : events.countP (·.level = .error) = c.count ({.abort} ∪ {.error})
  no_other : ∀ event ∈ events, event.level = .warn ∨ event.level = .error
  hasErrors : c.hasErrors = true ↔ ∃ event ∈ events, event.level = .error

variable {c : Collector}

theorem forall₂_emit : List.Forall₂ Problem.ShownBy c.problems c.emit := by
  unfold emit
  induction c.problems with
  | nil => exact .nil
  | cons p rest ih => exact .cons p.shownBy_event ih

/-- The events of a level are counted by the mask of the severities that are logged at it. -/
theorem countP_emit {level : Level} {mask : Mask} (shown : ∀ s, s ∈ mask ↔ s.level = level) :
    c.emit.countP (·.level = level) = c.count mask := by
  rw [emit, List.countP_map, count, filter, ← List.countP_eq_length_filter]
  refine List.countP_congr fun p _ => ?_
  rw [Function.comp_apply, decide_eq_true_eq, Problem.event_level]
  exact (shown p.severity).symm

theorem countP_emit_warn : c.emit.countP (·.level = .warn) = c.count {.warning} :=
  countP_emit fun s => by cases s <;> decide

theorem countP_emit_error : c.emit.countP (·.level = .error) = c.count ({.abort} ∪ {.error}) :=
  countP_emit fun s => by cases s <;> decide

theorem logged_emit : c.Logged c.emit where
  one_each := forall₂_emit
  warnings := countP_emit_warn
  errors := countP_emit_error
  no_other event emitted := by
    obtain ⟨p, _, rfl⟩ := List.mem_map.mp emitted
    rw [Problem.event_level]
    cases p.severity <;> simp [Severity.level]
  hasErrors := by
    rw [Collector.hasErrors, decide_eq_true_eq, ← countP_emit_error, List.countP_pos_iff]
    simp only [decide_eq_true_eq]

/-- To log the problems of a collector leaves it as it was, and one event comes of each problem, in
the order of the problems. The events of two problems are the same just if the problems are in
one place and either they have one severity and one message, an absent message being as good as an
empty one, or one is an error whose message is what a log has for the other, an abort. -/
theorem emit_laws (s : Session) :
    (s.step .emit).1 = s ∧
    (∃ events, (s.step .emit).2.reply = .ok (.events events) ∧ s.collector.Logged events) ∧
    ∀ p q : Problem, p.event = q.event ↔ p.location = q.location ∧ p.LoggedAlike q :=
  ⟨rfl, ⟨s.collector.emit, rfl, logged_emit⟩, fun _ _ => Problem.event_eq_iff⟩

/-- An abort, and an error that a log does not tell from it. -/
example :
    (Problem.stated .abort .nil "m").event = (Problem.stated .error .nil "abort: m").event := by
  decide +kernel

end Collector
end Diagnostics
