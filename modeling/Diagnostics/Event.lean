/-!
# Log events

What the library tells a log: a level and named fields, all of them text. The formatted message of
an event is its field `message`.
-/
namespace Diagnostics

inductive Level where
  | error | warn | debug | trace
  deriving DecidableEq, Repr

def Level.name : Level → String
  | .error => "ERROR"
  | .warn => "WARN"
  | .debug => "DEBUG"
  | .trace => "TRACE"

structure Event where
  level : Level
  fields : List (String × String)
  deriving DecidableEq, Repr

/-- The text of a field, if the event has it. -/
def Event.field? (event : Event) (name : String) : Option String := event.fields.lookup name

end Diagnostics
