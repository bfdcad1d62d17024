import Diagnostics.Proofs.Capability.Bound

/-!
# Steps and runs

A step of a session answers what it is served, in the same way as a request of a running provider,
or what a lookup comes to. A run is described by the answers of its steps, each in the registry that
the one before it has left, and its records tell how each of these registries came about.
-/
namespace Diagnostics.Capability.Session

/-- What a step answers, leaves behind and records: a request is served, a lookup comes to its
outcome, and a draft that cannot be built is the fault and changes nothing. -/
inductive Answers (r : Registry) : Step → Outcome Reply → Prop where
  | request {action : Step} {reply : Reply} {act : Act} {next : Registry}
      (served : Served r action reply act next) : Answers r action ⟨reply, next, [⟨0, act⟩]⟩
  | resolve {subject : Subject} {id : String} {view : View} {found : Outcome Resolution}
      (built : subject.build = .ok view) (finds : Resolves view.type view.value id r found) :
      Answers r (.resolve subject id) ⟨.resolution found.value, found.after, found.journal⟩
  | fault {subject : Subject} {id : String} {fault : Fault}
      (fails : subject.build = .error fault) :
      Answers r (.resolve subject id) ⟨.fault fault, r, []⟩

variable {bound : Nat} {r : Registry} {action : Step} {outcome : Outcome Reply}

theorem answers_of_step (done : step bound r action = some outcome) :
    Answers r action outcome := by
  cases action with
  | register id provider =>
    cases done
    exact .request (r.register_served id provider)
  | has type id =>
    cases done
    exact .request (r.query_served type id)
  | unregister type id =>
    cases done
    obtain ⟨removed, journal, served⟩ := r.unregister_served type id
    rw [journal]
    exact .request served
  | resolve subject id =>
    rcases step_resolve_eq_some.mp done with ⟨view, built, found, ran, rfl⟩ | ⟨fault, fails, rfl⟩
    · exact .resolve built ⟨bound, ran⟩
    · exact .fault fails
  | clear =>
    cases done
    exact .request r.clear_served

/-- A step comes to just what it answers. -/
theorem steps_iff_answers :
    (∃ bound, step bound r action = some outcome) ↔ Answers r action outcome := by
  constructor
  · rintro ⟨bound, done⟩
    exact answers_of_step done
  · intro answers
    cases answers with
    | request served => exact ⟨0, served.step_eq 0⟩
    | @resolve _ _ view found built finds =>
      obtain ⟨bound, ran⟩ := finds
      exact ⟨bound, step_resolve_eq_some.mpr (.inl ⟨view, built, found, ran, rfl⟩)⟩
    | @fault _ _ fault fails => exact ⟨0, step_resolve_eq_some.mpr (.inr ⟨fault, fails, rfl⟩)⟩

theorem Answers.told (answers : Answers r action outcome) : outcome.Told r := by
  cases answers with
  | request served => exact served.told
  | resolve _ finds =>
    obtain ⟨bound, ran⟩ := finds
    exact resolve_told bound ran
  | fault _ => exact .nil r

theorem step_told (done : step bound r action = some outcome) : outcome.Told r :=
  (answers_of_step done).told

/-- The steps of a run answer one after the other, each in the registry that the one before it has
left. -/
inductive Proceeds : Registry → List Step → List (Outcome Reply) → Prop where
  | nil (r : Registry) : Proceeds r [] []
  | cons {r : Registry} {action : Step} {first : Outcome Reply} {rest : List Step}
      {others : List (Outcome Reply)} (answers : Answers r action first)
      (onward : Proceeds first.after rest others) : Proceeds r (action :: rest) (first :: others)

section Runs

variable {steps : List Step} {outcomes : List (Outcome Reply)} {greater : Nat}

theorem step_mono (le : bound ≤ greater) (done : step bound r action = some outcome) :
    step greater r action = some outcome := by
  cases action with
  | resolve subject id =>
    rcases step_resolve_eq_some.mp done with ⟨view, built, found, ran, same⟩ | fault
    · have wide := resolve_mono le ran
      exact step_resolve_eq_some.mpr (.inl ⟨view, built, found, wide, same⟩)
    · exact step_resolve_eq_some.mpr (.inr fault)
  | _ => exact done

theorem run_mono (le : bound ≤ greater) (done : run bound r steps = some outcomes) :
    run greater r steps = some outcomes := by
  induction steps generalizing r outcomes with
  | nil => exact done
  | cons action rest ih =>
    obtain ⟨first, begun, others, ran, same⟩ := run_cons_eq_some.mp done
    exact run_cons_eq_some.mpr ⟨first, step_mono le begun, others, ih ran, same⟩

/-- A run comes to just what its steps answer in turn. -/
theorem runs_iff_proceeds :
    (∃ bound, run bound r steps = some outcomes) ↔ Proceeds r steps outcomes := by
  constructor
  · rintro ⟨bound, done⟩
    induction steps generalizing r outcomes with
    | nil =>
      cases done
      exact .nil r
    | cons action rest ih =>
      obtain ⟨first, begun, others, ran, rfl⟩ := run_cons_eq_some.mp done
      exact .cons (answers_of_step begun) (ih ran)
  · intro proceeds
    induction proceeds with
    | nil r => exact ⟨0, rfl⟩
    | @cons r action first rest others answers _ ih =>
      obtain ⟨bound, begun⟩ := steps_iff_answers.mpr answers
      obtain ⟨further, ran⟩ := ih
      have begun := step_mono (Nat.le_max_left bound further) begun
      have ran := run_mono (Nat.le_max_right bound further) ran
      exact ⟨max bound further, run_cons_eq_some.mpr ⟨first, begun, others, ran, rfl⟩⟩

/-- At each step of a run, what was recorded before tells how the registry came about. -/
theorem run_told (done : run bound r steps = some outcomes) {n : Nat}
    (here : steps[n]? = some action) :
    ∃ before outcome, outcomes[n]? = some outcome ∧ step bound before action = some outcome ∧
      Chronicle r ((outcomes.take n).flatMap Outcome.journal) before := by
  induction steps generalizing r outcomes n with
  | nil => cases here
  | cons first rest ih =>
    obtain ⟨outcome, begun, others, ran, rfl⟩ := run_cons_eq_some.mp done
    cases n with
    | zero =>
      cases here
      exact ⟨r, outcome, rfl, begun, .nil r⟩
    | succ n =>
      obtain ⟨before, later, found, stepped, chronicle⟩ := ih ran here
      exact ⟨before, later, found, stepped, (step_told begun).append chronicle⟩

end Runs

end Diagnostics.Capability.Session
