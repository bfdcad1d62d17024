import Diagnostics.Proofs.Collector.Reporting

/-!
# Clearing modules

To clear a module takes its problems out from among the others, which close up in their order. So
clearings of different modules, and reports of problems in other modules, can be exchanged, and an
analysis that finds the same problems again puts them behind the others and otherwise changes
nothing.
-/
namespace Diagnostics.Collector

/-- What is left of a collector without the problems of a module, and how many these were. -/
structure Cleared (c : Collector) (moduleName : String) (left : Collector) (dropped : Nat) : Prop
    where
  held : ∀ p, p ∈ left ↔ p ∈ c ∧ p.location.moduleName ≠ moduleName
  in_order : left.problems.Sublist c.problems
  counted : dropped + left.size = c.size

/-- It does not matter which of two operations comes first: both orders lead to the same collector,
and neither operation answers otherwise after the other than before it. -/
structure Interchange {α β : Type} (first : Collector → Collector × α)
    (second : Collector → Collector × β) (c : Collector) : Prop where
  after : (second (first c).1).1 = (first (second c).1).1
  answers_first : (first c).2 = (first (second c).1).2
  answers_second : (second (first c).1).2 = (second c).2

variable (c : Collector) (moduleName : String)

theorem problems_clearModule :
    (c.clearModule moduleName).1.problems =
      c.problems.filter (·.location.moduleName ≠ moduleName) :=
  rfl

theorem cleared_clearModule :
    c.Cleared moduleName (c.clearModule moduleName).1 (c.clearModule moduleName).2 where
  held := c.mem_clearModule moduleName
  in_order := List.filter_sublist
  counted := Nat.sub_add_cancel (List.length_filter_le _ _)

/-- The difference of the lengths is the number of the problems in the module. -/
theorem dropped_eq_countP :
    (c.clearModule moduleName).2 = c.problems.countP (·.location.moduleName = moduleName) := by
  have counted := (c.cleared_clearModule moduleName).counted
  have parts := List.length_eq_countP_add_countP (l := c.problems)
    (·.location.moduleName = moduleName)
  have left : (c.clearModule moduleName).1.size =
      c.problems.countP fun p => ¬ decide (p.location.moduleName = moduleName) := by
    rw [size, problems_clearModule, List.countP_eq_length_filter]
    simp only [ne_eq, decide_eq_true_eq]
  rw [left, size] at counted
  omega

theorem clearModule_of_none (none : ∀ p ∈ c.problems, p.location.moduleName ≠ moduleName) :
    c.clearModule moduleName = (c, 0) := by
  have all : c.problems.filter (·.location.moduleName ≠ moduleName) = c.problems :=
    List.filter_eq_self.mpr (by simpa using none)
  refine Prod.ext (eq_of_problems all) ?_
  rw [dropped_eq_countP, List.countP_eq_zero]
  simpa using none

theorem clearModule_twice :
    (c.clearModule moduleName).1.clearModule moduleName = ((c.clearModule moduleName).1, 0) :=
  clearModule_of_none _ _ fun p left => ((c.mem_clearModule moduleName p).mp left).2

variable {moduleName}

/-- What another clearing leaves out is in another module, and so it is not counted here. -/
theorem dropped_clearModule {other : String} (differs : other ≠ moduleName) :
    ((c.clearModule moduleName).1.clearModule other).2 = (c.clearModule other).2 := by
  rw [dropped_eq_countP, dropped_eq_countP, problems_clearModule, List.countP_filter]
  refine List.countP_congr fun p _ => ?_
  have apart : p.location.moduleName = other → p.location.moduleName ≠ moduleName :=
    fun here => here.symm ▸ differs
  simpa using apart

theorem interchange_clearModule {other : String} (differs : other ≠ moduleName) :
    Interchange (·.clearModule moduleName) (·.clearModule other) c where
  after := by
    refine eq_of_problems ?_
    simp only [problems_clearModule, List.filter_filter]
    exact List.filter_congr fun p _ => Bool.and_comm _ _
  answers_first := (c.dropped_clearModule differs.symm).symm
  answers_second := c.dropped_clearModule differs

theorem interchange_report {p : Problem} (outside : p.location.moduleName ≠ moduleName) :
    Interchange (·.clearModule moduleName) (·.report p) c := by
  have alike : p ∈ (c.clearModule moduleName).1.problems ↔ p ∈ c.problems :=
    (c.mem_clearModule moduleName p).trans (and_iff_left outside)
  by_cases held : p ∈ c.problems
  · have unchanged := report_held held
    have stillUnchanged := report_held (alike.mpr held)
    exact ⟨by simp only [unchanged, stillUnchanged], by simp only [unchanged],
      by simp only [unchanged, stillUnchanged]⟩
  · have new := problems_report_new held
    have stillNew := problems_report_new (mt alike.mp held)
    refine ⟨eq_of_problems ?_, ?_, ?_⟩
    · simp [stillNew, problems_clearModule, new, outside]
    · simp [dropped_eq_countP, new, outside]
    · simp only [report_added, alike]

/-- The problems of the module come back behind the others, however often and in whatever order
they are reported. -/
theorem extend_clearModule {list : List Problem}
    (same : ∀ p, p ∈ list ↔ p ∈ c ∧ p.location.moduleName = moduleName) :
    ((c.clearModule moduleName).1.extend list).SameHeld c ∧
      ∃ again, ((c.clearModule moduleName).1.extend list).problems =
          (c.clearModule moduleName).1.problems ++ again ∧
        ∀ p ∈ again, p.location.moduleName = moduleName := by
  constructor
  · refine .of_mem fun p => ?_
    rw [mem_extend, mem_clearModule, same]
    change (p ∈ c.problems ∧ _) ∨ (p ∈ c.problems ∧ _) ↔ p ∈ c.problems
    rw [← and_or_left, and_iff_left (ne_or_eq _ _)]
  · refine ⟨_, problems_extend _ list, fun p back => ?_⟩
    exact ((same p).mp ((mem_fresh list).mp back).1).2

variable (moduleName)

/-- Clearing a module drops the problems that name it, to the letter, and no others, keeps the
others in their order, and tells the number of those dropped. To clear it once more drops nothing.
It can be exchanged with the clearing of another module and with the report of a problem in another
one. If then the problems that were dropped are reported again, in any order and with any repeats,
the same problems are held as before, those of other modules in their old order in front. -/
theorem clearModule_laws :
    c.Cleared moduleName (c.clearModule moduleName).1 (c.clearModule moduleName).2 ∧
    (c.clearModule moduleName).1.clearModule moduleName = ((c.clearModule moduleName).1, 0) ∧
    (∀ other ≠ moduleName, Interchange (·.clearModule moduleName) (·.clearModule other) c) ∧
    (∀ p : Problem, p.location.moduleName ≠ moduleName →
      Interchange (·.clearModule moduleName) (·.report p) c) ∧
    ∀ list, (∀ p, p ∈ list ↔ p ∈ c ∧ p.location.moduleName = moduleName) →
      ((c.clearModule moduleName).1.extend list).SameHeld c ∧
        ∃ again, ((c.clearModule moduleName).1.extend list).problems =
            (c.clearModule moduleName).1.problems ++ again ∧
          ∀ p ∈ again, p.location.moduleName = moduleName :=
  ⟨c.cleared_clearModule moduleName, c.clearModule_twice moduleName,
    fun _ differs => c.interchange_clearModule differs,
    fun _ outside => c.interchange_report outside, fun _ same => c.extend_clearModule same⟩

/-- A module of which two problems are held, around one of another module. -/
theorem clearModule_laws_reanalysed :
    let one := finding "m" "one"
    let two := finding "m" "two"
    let other := finding "n" "one"
    let c := (∅ : Collector).extend [one, other, two]
    let left := (c.clearModule "m").1
    (c.clearModule "m").2 = 2 ∧ left.problems = [other] ∧
      Interchange (·.clearModule "m") (·.clearModule "n") c ∧
      Interchange (·.clearModule "m") (·.report other) c ∧
      (left.extend [two, one, two]).problems = [other, two, one] ∧
      (left.extend [two, one, two]).SameHeld c := by
  intro one two other c left
  obtain ⟨_, _, clearings, reports, again⟩ := clearModule_laws c "m"
  have same (p : Problem) : p ∈ [two, one, two] ↔ p ∈ c ∧ p.location.moduleName = "m" := by
    change _ ↔ p ∈ c.problems ∧ _
    rw [mem_extend]
    constructor
    · intro listed
      simp only [List.mem_cons, List.not_mem_nil, or_false] at listed
      rcases listed with rfl | rfl | rfl <;> decide +kernel
    · rintro ⟨nowhere | listed, inModule⟩
      · cases nowhere
      · simp only [List.mem_cons, List.not_mem_nil, or_false] at listed
        rcases listed with rfl | rfl | rfl
        · decide +kernel
        · exact absurd inModule (by decide)
        · decide +kernel
  exact ⟨by decide +kernel, by decide +kernel, clearings "n" (by decide),
    reports other (by decide), by decide +kernel, (again [two, one, two] same).1⟩

end Diagnostics.Collector
