import Mathlib.Data.List.DropRight
import Diagnostics.Collector.Session

/-!
# The history of a collector

What a collector holds, and in which order, is read off the history of what was done to it: a
problem counts from its first report since it was last removed. A problem that is removed from the
middle and reported again comes last, so the order is not that of first reports in the whole
history. Readings leave no trace in a history, and neither does a step whose drafts have a fault.
-/
namespace Diagnostics.Collector

/-- What can change a collector. A list of problems is reported one by one. -/
inductive Deed where
  | report (p : Problem)
  | clear (moduleName : String)
  | take
  deriving DecidableEq

def Deed.perform (c : Collector) : Deed → Collector
  | .report p => (c.report p).1
  | .clear moduleName => (c.clearModule moduleName).1
  | .take => c.take.1

def Deed.removes (p : Problem) : Deed → Bool
  | .report _ => false
  | .clear moduleName => p.location.moduleName = moduleName
  | .take => true

/-- The part of a history after the last deed that removes the problem. -/
def since (p : Problem) (history : List Deed) : List Deed :=
  history.rtakeWhile fun deed => !deed.removes p

/-- The place of a problem's first report since its last removal. -/
def firstReport (history : List Deed) (p : Problem) : Nat :=
  history.length - (since p history).length + (since p history).idxOf (.report p)

/-- The problems that a history leaves, in their order. -/
structure Leaves (history : List Deed) (problems : List Problem) : Prop where
  held : ∀ p, p ∈ problems ↔ .report p ∈ since p history
  once : problems.Nodup
  in_order : problems.Pairwise fun p q => firstReport history p < firstReport history q

section Since

variable {history : List Deed} {deed : Deed} {p : Problem}

theorem since_kept (keeps : deed.removes p = false) :
    since p (history ++ [deed]) = since p history ++ [deed] :=
  List.rtakeWhile_concat_pos _ _ deed (by simp [keeps])

theorem since_removed (removes : deed.removes p = true) : since p (history ++ [deed]) = [] :=
  List.rtakeWhile_concat_neg _ _ deed (by simp [removes])

theorem length_since_le : (since p history).length ≤ history.length :=
  (List.rtakeWhile_suffix _ history).length_le

theorem firstReport_lt (reported : .report p ∈ since p history) :
    firstReport history p < history.length := by
  have inside := List.idxOf_lt_length_of_mem reported
  have bound := @length_since_le history p
  rw [firstReport]
  omega

theorem firstReport_kept (keeps : deed.removes p = false) (reported : .report p ∈ since p history) :
    firstReport (history ++ [deed]) p = firstReport history p := by
  rw [firstReport, firstReport, since_kept keeps, List.idxOf_append_of_mem reported]
  simp only [List.length_append, List.length_singleton]
  omega

theorem firstReport_new (absent : .report p ∉ since p history) :
    firstReport (history ++ [.report p]) p = history.length := by
  have bound := @length_since_le history p
  rw [firstReport, since_kept rfl, List.idxOf_append_of_notMem absent, List.idxOf_cons_self]
  simp only [List.length_append, List.length_singleton]
  omega

end Since

namespace Leaves

variable {history : List Deed}

theorem empty : Leaves [] (∅ : Collector).problems :=
  ⟨fun p => by simp [since], .nil, .nil⟩

/-- Problems that a deed does not remove stay in their order. -/
theorem stays {problems kept : List Problem} (deed : Deed) (leaves : Leaves history problems)
    (sublist : kept.Sublist problems) (keeps : ∀ p ∈ kept, deed.removes p = false) :
    kept.Pairwise fun p q =>
      firstReport (history ++ [deed]) p < firstReport (history ++ [deed]) q := by
  refine (leaves.in_order.sublist sublist).imp_of_mem ?_
  intro p q heldP heldQ before
  have reportedP := (leaves.held p).mp (sublist.subset heldP)
  have reportedQ := (leaves.held q).mp (sublist.subset heldQ)
  rw [firstReport_kept (keeps p heldP) reportedP, firstReport_kept (keeps q heldQ) reportedQ]
  exact before

variable {c : Collector} (leaves : Leaves history c.problems)
include leaves

theorem report (p : Problem) : Leaves (history ++ [.report p]) (c.report p).1.problems where
  held q := by
    rw [since_kept rfl, mem_report, leaves.held q]
    simp
  once := (c.report p).1.nodup
  in_order := by
    have old := leaves.stays (.report p) (List.Sublist.refl _) fun _ _ => rfl
    rw [problems_report]
    split
    · exact old
    · next outside =>
      -- The first reports of the held problems lie in the history, this one comes after it.
      refine List.pairwise_append.mpr ⟨old, List.pairwise_singleton _ _, ?_⟩
      intro q held new isNew
      have reported := (leaves.held q).mp held
      have absent : .report p ∉ since p history := fun again => outside ((leaves.held p).mpr again)
      rw [List.mem_singleton.mp isNew, firstReport_kept rfl reported, firstReport_new absent]
      exact firstReport_lt reported

theorem clear (moduleName : String) :
    Leaves (history ++ [.clear moduleName]) (c.clearModule moduleName).1.problems where
  held p := by
    rw [mem_clearModule, leaves.held p]
    by_cases inside : p.location.moduleName = moduleName
    · rw [since_removed (by simp [Deed.removes, inside])]
      simp [inside]
    · rw [since_kept (by simp [Deed.removes, inside])]
      simp [inside]
  once := (c.clearModule moduleName).1.nodup
  in_order := by
    refine leaves.stays (.clear moduleName) List.filter_sublist ?_
    intro p kept
    have outside := (c.mem_clearModule moduleName p).mp kept
    simp [Deed.removes, outside.2]

omit leaves in
theorem take : Leaves (history ++ [.take]) (∅ : Collector).problems where
  held p := by
    rw [since_removed rfl]
    simp
  once := .nil
  in_order := .nil

/-- What every deed preserves. -/
theorem perform (deed : Deed) : Leaves (history ++ [deed]) (deed.perform c).problems := by
  cases deed with
  | report p => exact leaves.report p
  | clear moduleName => exact leaves.clear moduleName
  | take => exact .take

theorem performAll (deeds : List Deed) :
    Leaves (history ++ deeds) (deeds.foldl Deed.perform c).problems := by
  induction deeds generalizing history c with
  | nil => simpa using leaves
  | cons deed rest ih => simpa using ih (leaves.perform deed)

end Leaves

namespace Session

/-- The problem of a step that reports a single one. -/
def Step.reported : Step → Option Problem
  | .report draft => draft.build.toOption
  | .state severity location message =>
      location.build.toOption.map fun place => .stated severity place message
  | _ => none

def Step.deeds : Step → List Deed
  | .extend drafts => ((Problem.Draft.buildAll drafts).toOption.getD []).map .report
  | .clearModule moduleName => [.clear moduleName]
  | .take => [.take]
  | action => action.reported.toList.map .report

/-- What has been done to a collector and to the saved copy. -/
structure Histories where
  collector : List Deed
  saved : List Deed

/-- A copy has the history of what it is a copy of. -/
def Histories.after (histories : Histories) : Step → Histories
  | .save => { histories with saved := histories.collector }
  | .swap => ⟨histories.saved, histories.collector⟩
  | action => { histories with collector := histories.collector ++ action.deeds }

/-- The history of the collector that a run ends with. -/
def history (steps : List Step) : List Deed :=
  (steps.foldl Histories.after ⟨[], []⟩).collector

/-- As long as no copy comes into play, a history is what the steps do one after the other. -/
theorem history_eq_flatMap (steps : List Step) (plain : ∀ action ∈ steps, action ≠ .swap) :
    history steps = steps.flatMap Step.deeds := by
  suffices general : ∀ histories : Histories, (steps.foldl Histories.after histories).collector =
      histories.collector ++ steps.flatMap Step.deeds from general _
  induction steps with
  | nil => simp
  | cons action rest ih =>
    intro histories
    have onward := ih (fun later mem => plain later (by simp [mem])) (histories.after action)
    rw [List.foldl_cons, onward, List.flatMap_cons, ← List.append_assoc]
    congr 1
    cases action with
    | swap => exact absurd rfl (plain .swap (by simp))
    | save => exact (List.append_nil _).symm
    | _ => rfl

/-- The session that a step leads to. -/
theorem step_session (s : Session) (action : Step) :
    (s.step action).1 = match action with
      | .save => ⟨s.collector, s.collector⟩
      | .swap => ⟨s.saved, s.collector⟩
      | action => s.onCollector (action.deeds.foldl Deed.perform s.collector) := by
  cases action with
  | report draft =>
    simp only [step, apply, Step.deeds, Step.reported]
    cases draft.build <;> rfl
  | state severity location message =>
    simp only [step, apply, Step.deeds, Step.reported]
    cases location.build <;> rfl
  | extend drafts =>
    simp only [step, apply, Step.deeds]
    cases Problem.Draft.buildAll drafts with
    | error fault => rfl
    | ok problems =>
      change s.onCollector (s.collector.extend problems) =
        s.onCollector ((problems.map .report).foldl Deed.perform s.collector)
      rw [List.foldl_map]
      rfl
  | filter mask =>
    simp only [step, apply, Step.deeds, Step.reported]
    cases mask.build <;> rfl
  | count mask =>
    simp only [step, apply, Step.deeds, Step.reported]
    cases mask.build <;> rfl
  | _ => rfl

/-- Both collectors are what their histories leave. -/
structure Traced (s : Session) (histories : Histories) : Prop where
  collector : Leaves histories.collector s.collector.problems
  saved : Leaves histories.saved s.saved.problems

theorem Traced.step {s : Session} {histories : Histories} (traced : s.Traced histories)
    (action : Step) : (s.step action).1.Traced (histories.after action) := by
  rw [step_session]
  cases action with
  | save => exact ⟨traced.collector, traced.collector⟩
  | swap => exact ⟨traced.saved, traced.collector⟩
  | _ => exact ⟨traced.collector.performAll _, traced.saved⟩

theorem Traced.finish {s : Session} {histories : Histories} (traced : s.Traced histories)
    (steps : List Step) : (s.finish steps).Traced (steps.foldl Histories.after histories) := by
  induction steps generalizing s histories with
  | nil => exact traced
  | cons action rest ih => exact ih (traced.step action)

/-- What a run answers to a step is what the step answers in the session it finds. -/
theorem run_getElem? (s : Session) (past : List Step) (action : Step) (future : List Step) :
    (s.run (past ++ action :: future))[past.length]? = some ((s.finish past).step action).2 := by
  induction past generalizing s with
  | nil => rfl
  | cons earlier rest ih => exact ih (s.step earlier).1

theorem answer_collector (s : Session) (action : Step) :
    (s.step action).2.collector = (s.step action).1.collector := by
  simp only [step]
  split <;> rfl

theorem apply_reported (s : Session) {action : Step} {p : Problem}
    (single : action.reported = some p) :
    s.apply action =
      .ok (s.onCollector (s.collector.report p).1, .flag (s.collector.report p).2) := by
  cases action with
  | report draft =>
    cases built : draft.build with
    | error fault => simp [Step.reported, built, Except.toOption] at single
    | ok q =>
      have same : q = p := by simpa [Step.reported, built, Except.toOption] using single
      rw [apply, built, ← same]
      rfl
  | state severity location message =>
    cases built : location.build with
    | error fault => simp [Step.reported, built, Except.toOption] at single
    | ok place =>
      have same : .stated severity place message = p := by
        simpa [Step.reported, built, Except.toOption] using single
      rw [apply, built, ← same]
      rfl
  | _ => cases single

theorem answer_reported (s : Session) {action : Step} {p : Problem}
    (single : action.reported = some p) :
    (s.step action).2.reply = .ok (.flag (decide (p ∉ s.collector))) := by
  have added : (s.collector.report p).2 = decide (p ∉ s.collector) := s.collector.report_added p
  rw [step, apply_reported s single, ← added]

/-- After any run the collector holds the problems that were reported after they were last removed,
each once, in the order of these first reports. At any step of the run, a single report tells
whether the problem was missing, and a list that is read or taken is the list held. -/
theorem problems_by_history (steps : List Step) :
    Leaves (history steps) (start.finish steps).collector.problems ∧
      ∀ past action future, steps = past ++ action :: future →
        ∃ answer, (start.run steps)[past.length]? = some answer ∧
          answer.collector = (start.finish (past ++ [action])).collector ∧
          (∀ p, action.reported = some p →
            answer.reply = .ok (.flag (decide (p ∉ (start.finish past).collector)))) ∧
          (action = .list ∨ action = .take →
            answer.reply = .ok (.problems (start.finish past).collector.problems)) := by
  constructor
  · have begun : start.Traced ⟨[], []⟩ := ⟨.empty, .empty⟩
    exact (begun.finish steps).collector
  · rintro past action future rfl
    refine ⟨((start.finish past).step action).2, run_getElem? start past action future, ?_, ?_, ?_⟩
    · rw [answer_collector, finish, finish, List.foldl_append]
      rfl
    · intro p single
      exact answer_reported _ single
    · rintro (rfl | rfl) <;> rfl

/-- The problem in module a is dropped and comes back behind the other one. -/
example :
    let a := Problem.Draft.spanned (some "a") none none .error
    let steps := [.report a, .report (.bare .error), .clearModule "a", .report a, .report a]
    ((start.finish steps).collector.problems.map (·.location.moduleName)) =
      [Location.unknownModule, "a"] := by
  decide

end Session
end Diagnostics.Collector
