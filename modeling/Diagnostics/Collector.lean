import Diagnostics.Event
import Diagnostics.Problem
import Diagnostics.Severity.Mask

/-!
# Collectors

A collector holds the problems of an analysis in the order in which they were reported, each of
them once. Reporting a problem that is held already changes nothing, so a pass that runs again
does not repeat its output.
-/
namespace Diagnostics

structure Collector where
  problems : List Problem
  /-- No problem is held twice. -/
  nodup : problems.Nodup
  deriving DecidableEq

namespace Collector

def empty : Collector := ⟨[], .nil⟩

instance : EmptyCollection Collector := ⟨empty⟩
instance : Inhabited Collector := ⟨empty⟩
@[simp] theorem problems_empty : (∅ : Collector).problems = [] := rfl

instance : Membership Problem Collector := ⟨fun c p => p ∈ c.problems⟩
instance (p : Problem) (c : Collector) : Decidable (p ∈ c) :=
  inferInstanceAs (Decidable (p ∈ c.problems))

theorem nodup_concat {problems : List Problem} {p : Problem} (h : problems.Nodup)
    (fresh : p ∉ problems) : (problems ++ [p]).Nodup := by
  refine List.nodup_append.2 ⟨h, by simp, ?_⟩
  intro a ha b hb hab
  exact fresh (List.mem_singleton.1 hb ▸ hab ▸ ha)

/-- Adds a problem at the end unless it is held; tells whether it was added. -/
def report (c : Collector) (p : Problem) : Collector × Bool :=
  if h : p ∈ c.problems then (c, false) else (⟨c.problems ++ [p], nodup_concat c.nodup h⟩, true)

theorem problems_report (c : Collector) (p : Problem) :
    (c.report p).1.problems = if p ∈ c.problems then c.problems else c.problems ++ [p] := by
  unfold report
  split <;> rfl

theorem report_added (c : Collector) (p : Problem) : (c.report p).2 = decide (p ∉ c.problems) := by
  unfold report
  split <;> simp_all

@[simp] theorem mem_report (c : Collector) (p q : Problem) :
    q ∈ (c.report p).1.problems ↔ q ∈ c.problems ∨ q = p := by
  rw [problems_report]
  split
  · rename_i held
    exact ⟨.inl, fun h => h.elim id fun e => e ▸ held⟩
  · simp

/-- Reports the problems of a list one after the other. -/
def extend (c : Collector) (problems : List Problem) : Collector :=
  problems.foldl (fun c p => (c.report p).1) c

@[simp] theorem mem_extend (c : Collector) (problems : List Problem) (q : Problem) :
    q ∈ (c.extend problems).problems ↔ q ∈ c.problems ∨ q ∈ problems := by
  induction problems generalizing c with
  | nil => simp [extend]
  | cons p rest ih =>
      rw [extend, List.foldl_cons, ← extend, ih]
      simp [or_assoc]

def size (c : Collector) : Nat := c.problems.length

def isEmpty (c : Collector) : Bool := c.problems.isEmpty

/-- Drops the problems of a module, mostly because it is about to be analysed again; tells how
many there were. -/
def clearModule (c : Collector) (moduleName : String) : Collector × Nat :=
  let kept := c.problems.filter (·.location.moduleName ≠ moduleName)
  (⟨kept, c.nodup.filter _⟩, c.size - kept.length)

@[simp] theorem mem_clearModule (c : Collector) (moduleName : String) (q : Problem) :
    q ∈ (c.clearModule moduleName).1.problems ↔
      q ∈ c.problems ∧ q.location.moduleName ≠ moduleName := by
  simp [clearModule]

/-- The problems whose severity is in the mask, in the order of reporting. -/
def filter (c : Collector) (mask : Mask) : List Problem :=
  c.problems.filter (mask.contains ·.severity)

@[simp] theorem mem_filter (c : Collector) (mask : Mask) (q : Problem) :
    q ∈ c.filter mask ↔ q ∈ c.problems ∧ q.severity ∈ mask :=
  List.mem_filter

def count (c : Collector) (mask : Mask) : Nat := (c.filter mask).length

/-- Some problem is an error or an abort. -/
def hasErrors (c : Collector) : Bool := 0 < c.count ({Severity.abort} ∪ {Severity.error})

/-- Hands the problems over and starts again with none. -/
def take (c : Collector) : Collector × List Problem := (∅, c.problems)

end Collector

/-- The log event of a problem. An abort shows in the message, since a log has no level for it;
an absent message is written as an empty one. -/
def Problem.event (p : Problem) : Event :=
  let message := p.message.getD ""
  let fields message :=
    [("message", message), ("module", p.location.moduleName), ("location", p.locationText)]
  match p.severity with
  | .abort => ⟨.error, fields ("abort: " ++ message)⟩
  | .error => ⟨.error, fields message⟩
  | .warning => ⟨.warn, fields message⟩

/-- One event for each problem, in the order of reporting. -/
def Collector.emit (c : Collector) : List Event := c.problems.map Problem.event

end Diagnostics
