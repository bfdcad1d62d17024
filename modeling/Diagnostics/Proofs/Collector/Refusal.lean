import Diagnostics.Proofs.Collector.Filtering
import Diagnostics.Proofs.Collector.History
import Diagnostics.Proofs.Draft.FirstFault

/-!
# Refused steps

A step with a fault in its inputs answers the first one and does nothing else, whatever good input
stands in front of it. So the refused steps of a run can be left out: what is held comes from the
others, and these neither notice nor answer otherwise.
-/
namespace Diagnostics.Collector

/-- Each problem has one of the three severities, so each is counted for one of them. -/
theorem count_each_severity (c : Collector) :
    c.count {.abort} + c.count {.error} + c.count {.warning} = c.size := by
  have apart : ({.abort} ∩ {.error} : Mask) = ∅ := rfl
  have parts := @count_union_add_count_inter c {.abort} {.error}
  rw [apart, count_empty] at parts
  rw [← parts, Nat.add_zero, count_faults_add_count_warnings]

theorem existsUnique_severity {c : Collector} {p : Problem} (held : p ∈ c) :
    ∃! s, s ∈ [Severity.abort, .error, .warning] ∧ p ∈ c.filter {s} := by
  have listed (s : Severity) : s ∈ [Severity.abort, .error, .warning] := by cases s <;> decide
  refine ⟨p.severity, ⟨listed _, (mem_filter _ _ _).mpr ⟨held, Mask.mem_singleton.mpr rfl⟩⟩, ?_⟩
  rintro s ⟨_, filtered⟩
  exact (Mask.mem_singleton.mp ((mem_filter _ _ _).mp filtered).2).symm

namespace Session

/-- These are the untyped inputs of a step, in the order in which they are looked at. -/
def Step.Inputs : Step → List Input → Prop
  | .report draft, inputs => inputs = draft.inputs
  | .state _ location _, inputs => inputs = location.inputs
  | .extend drafts, inputs => inputs = drafts.flatMap Problem.Draft.inputs
  | .filter mask, inputs => mask.Inputs inputs
  | .count mask, inputs => mask.Inputs inputs
  | _, inputs => inputs = []

def Step.inputs : Step → List Input
  | .report draft => draft.inputs
  | .state _ location _ => location.inputs
  | .extend drafts => drafts.flatMap Problem.Draft.inputs
  | .filter mask => mask.inputs
  | .count mask => mask.inputs
  | _ => []

variable {s : Session} {action : Step} {fault : Fault}

/-- A step has one list of inputs. -/
theorem Step.inputs_iff {list : List Input} : action.Inputs list ↔ list = action.inputs := by
  cases action with
  | filter mask => exact Mask.Draft.inputs_iff
  | count mask => exact Mask.Draft.inputs_iff
  | _ => exact Iff.rfl

theorem refusal?_apply (s : Session) (action : Step) :
    refusal? (s.apply action) = firstFault? action.inputs := by
  cases action with
  | report draft => exact (refusal?_map _ _).trans draft.refusal?_build
  | state severity location message => exact (refusal?_map _ _).trans location.refusal?_build
  | extend drafts => exact (refusal?_map _ _).trans (Problem.Draft.refusal?_buildAll drafts)
  | filter mask => exact (refusal?_map _ _).trans mask.refusal?_build
  | count mask => exact (refusal?_map _ _).trans mask.refusal?_build
  | _ => rfl

theorem step_of_fault (faulty : firstFault? action.inputs = some fault) :
    s.step action = (s, ⟨.error fault, s.collector⟩) := by
  rw [step, refusal?_eq_some.mp ((refusal?_apply s action).trans faulty)]

theorem step_of_sound (sound : firstFault? action.inputs = none) :
    ∃ after reply, s.step action = (after, ⟨.ok reply, after.collector⟩) := by
  obtain ⟨⟨after, reply⟩, done⟩ := refusal?_eq_none.mp ((refusal?_apply s action).trans sound)
  exact ⟨after, reply, by rw [step, done]⟩

theorem refusal?_reply (s : Session) (action : Step) :
    refusal? (s.step action).2.reply = firstFault? action.inputs := by
  cases found : firstFault? action.inputs with
  | some fault => rw [step_of_fault found, refusal?]
  | none =>
    obtain ⟨after, reply, done⟩ := step_of_sound (s := s) found
    rw [done, refusal?]

/-- The steps of a run that were not refused, each with its answer. -/
def carriedOut (s : Session) (steps : List Step) : List (Step × Answer) :=
  (steps.zip (s.run steps)).filter fun (_, answer) => answer.reply.isOk

section CarriedOut

variable {rest : List Step}

theorem carriedOut_of_fault (faulty : firstFault? action.inputs = some fault) :
    s.carriedOut (action :: rest) = s.carriedOut rest := by
  rw [carriedOut, run, step_of_fault faulty]
  rfl

theorem carriedOut_of_sound (sound : firstFault? action.inputs = none) :
    s.carriedOut (action :: rest) =
      (action, (s.step action).2) :: (s.step action).1.carriedOut rest := by
  obtain ⟨after, reply, done⟩ := step_of_sound (s := s) sound
  rw [carriedOut, run, done]
  rfl

/-- A refused step hands on the session that it found, so the run without it goes on as before. -/
theorem run_carriedOut (s : Session) (steps : List Step) :
    s.run ((s.carriedOut steps).map Prod.fst) = (s.carriedOut steps).map Prod.snd ∧
      s.finish ((s.carriedOut steps).map Prod.fst) = s.finish steps := by
  induction steps generalizing s with
  | nil => exact ⟨rfl, rfl⟩
  | cons action rest ih =>
    cases found : firstFault? action.inputs with
    | some fault =>
      have unmoved : (s.step action).1 = s := by rw [step_of_fault found]
      rw [carriedOut_of_fault found, finish, finish, List.foldl_cons, unmoved]
      exact ih s
    | none =>
      obtain ⟨answers, session⟩ := ih (s.step action).1
      rw [carriedOut_of_sound found]
      exact ⟨congrArg ((s.step action).2 :: ·) answers, session⟩

end CarriedOut

section Origin

variable {deed : Deed} {histories : Histories}

/-- The deed stands in the history of the collector or in that of the saved copy. -/
def Histories.Mention (histories : Histories) (deed : Deed) : Prop :=
  deed ∈ histories.collector ∨ deed ∈ histories.saved

theorem Histories.mention_after (mention : (histories.after action).Mention deed) :
    histories.Mention deed ∨ deed ∈ action.deeds := by
  cases action with
  | save => exact .inl (mention.elim .inl .inl)
  | swap => exact .inl mention.symm
  | _ =>
    rcases mention with mention | mention
    · exact (List.mem_append.mp mention).imp_left .inl
    · exact .inl (.inr mention)

theorem Histories.mention_foldl {steps : List Step}
    (mention : (steps.foldl Histories.after histories).Mention deed) :
    histories.Mention deed ∨ ∃ action ∈ steps, deed ∈ action.deeds := by
  induction steps generalizing histories with
  | nil => exact .inl mention
  | cons action rest ih =>
    rcases ih mention with earlier | ⟨later, listed, done⟩
    · refine (mention_after earlier).imp_right fun done => ?_
      exact ⟨action, List.mem_cons_self, done⟩
    · exact .inr ⟨later, List.mem_cons_of_mem _ listed, done⟩

/-- What a run ends with was reported by one of its steps. -/
theorem exists_reporting {steps : List Step} {c : Collector} {p : Problem}
    (reached : c ∈ [(start.finish steps).collector, (start.finish steps).saved]) (held : p ∈ c) :
    ∃ action ∈ steps, .report p ∈ action.deeds := by
  have begun : start.Traced ⟨[], []⟩ := ⟨.empty, .empty⟩
  have traced := begun.finish steps
  have past {history : List Deed} (reported : .report p ∈ since p history) : .report p ∈ history :=
    (List.rtakeWhile_suffix _ history).subset reported
  have mention : (steps.foldl Histories.after ⟨[], []⟩).Mention (.report p) := by
    simp only [List.mem_cons, List.not_mem_nil, or_false] at reached
    rcases reached with rfl | rfl
    · exact .inl (past ((traced.collector.held p).mp held))
    · exact .inr (past ((traced.saved.held p).mp held))
  have nothing : ¬ (⟨[], []⟩ : Histories).Mention (.report p) := by simp [Histories.Mention]
  exact (Histories.mention_foldl mention).resolve_left nothing

end Origin

/-- A step has one list of inputs, and in a run it is refused just if one of them has a fault. It then
answers the fault of the first such input and leaves both collectors as they were. If the refused
steps are taken out of the run, the others answer as before, and it ends as before. So what is held
at the end of any run was reported by steps that were not refused; each problem has one of the three
severities, and what is counted for these is the number of the problems. -/
theorem refused_steps_leave_no_trace (steps : List Step) :
    (∀ past action future, steps = past ++ action :: future →
      ∃ inputs answer, (∀ list, action.Inputs list ↔ list = inputs) ∧
        (start.run steps)[past.length]? = some answer ∧
        refusal? answer.reply = firstFault? inputs ∧
        (firstFault? inputs ≠ none →
          start.finish (past ++ [action]) = start.finish past ∧
          answer.collector = (start.finish past).collector)) ∧
    start.run ((start.carriedOut steps).map Prod.fst) = (start.carriedOut steps).map Prod.snd ∧
    start.finish ((start.carriedOut steps).map Prod.fst) = start.finish steps ∧
    ∀ c ∈ [(start.finish steps).collector, (start.finish steps).saved],
      (∀ p ∈ c, ∃ action ∈ (start.carriedOut steps).map Prod.fst, .report p ∈ action.deeds) ∧
      (∀ p ∈ c, ∃! s, s ∈ [Severity.abort, .error, .warning] ∧ p ∈ c.filter {s}) ∧
      c.count {.abort} + c.count {.error} + c.count {.warning} = c.size := by
  obtain ⟨answers, session⟩ := start.run_carriedOut steps
  refine ⟨?_, answers, session, fun c reached => ⟨fun p held => ?_, fun p held => ?_, ?_⟩⟩
  · rintro past action future rfl
    refine ⟨action.inputs, _, fun _ => Step.inputs_iff, run_getElem? start past action future,
      refusal?_reply _ action, fun faulty => ?_⟩
    obtain ⟨fault, found⟩ := Option.ne_none_iff_exists'.mp faulty
    rw [finish, List.foldl_concat, ← finish, step_of_fault found]
    exact ⟨rfl, rfl⟩
  · rw [← session] at reached
    exact exists_reporting reached held
  · exact existsUnique_severity held
  · exact c.count_each_severity

/-- Good input, and around it a list whose first problem is good, too few coordinates, and an
expression with two parts that are no words. -/
theorem refused_steps_leave_no_trace_mixed :
    let good := Problem.Draft.raw (some "m") (some [1, 2, 3, 4]) none 32
    let list := [good, .raw none (some [1]) none 96, .raw none (some []) none 16]
    let rest := [.report good, .state .abort (.listed none (some [1, 2])) "", .save,
      .count (.expression "error|fatal|panic"), .size]
    let steps := .extend list :: rest
    let kept := [.report good, .save, .size]
    let c := (start.finish steps).saved
    (start.run steps).map (refusal? ·.reply) =
      [some (.invalidSeverity 96), none, some (.invalidCoordinates 2), none,
        some (.unknownSeverity "fatal"), none] ∧
    start.finish [.extend list] = start ∧
    (start.carriedOut steps).map Prod.fst = kept ∧
    start.run kept = (start.carriedOut steps).map Prod.snd ∧
    start.finish kept = start.finish steps ∧
    c.size = 1 ∧ c.count {.abort} + c.count {.error} + c.count {.warning} = c.size := by
  intro good list rest steps kept c
  obtain ⟨places, answers, session, held⟩ := refused_steps_leave_no_trace steps
  have first : (start.carriedOut steps).map Prod.fst = kept := by decide +kernel
  rw [first] at answers session
  obtain ⟨_, _, sole, _, _, unmoved⟩ := places [] (.extend list) rest rfl
  obtain rfl := (sole _).mp (Step.inputs_iff.mpr rfl)
  exact ⟨by decide +kernel, (unmoved (by decide +kernel)).1, first, answers, session,
    by decide +kernel, (held c (by simp [c])).2.2⟩

end Session
end Diagnostics.Collector
