import Mathlib.Algebra.BigOperators.Group.Finset.Piecewise
import Mathlib.Algebra.Order.BigOperators.Group.Finset
import Diagnostics.Proofs.Collector.Reporting
import Diagnostics.Proofs.Severity.FiniteSet

/-!
# Counting by severity

A problem has one severity. So what is counted for a mask is the sum of what is counted for each of
its members, and counting is as additive as sums over sets are.
-/
namespace Diagnostics.Collector

/-- How many of the problems have this severity. -/
def countOf (c : Collector) (s : Severity) : Nat := c.problems.countP (·.severity = s)

section Filter

variable {c : Collector} {a b : Mask}

theorem filter_sublist : (c.filter a).Sublist c.problems := List.filter_sublist

theorem nodup_filter : (c.filter a).Nodup := c.nodup.filter _

/-- In a list without repeats the members of a part tell the part. -/
theorem eq_filter_iff {list : List Problem} :
    list = c.filter a ↔ list.Sublist c.problems ∧ ∀ p, p ∈ list ↔ p ∈ c ∧ p.severity ∈ a := by
  constructor
  · rintro rfl
    exact ⟨filter_sublist, c.mem_filter a⟩
  · rintro ⟨part, members⟩
    refine (c.nodup.perm_iff_eq_of_sublist part filter_sublist).mp ?_
    refine (List.perm_ext_iff_of_nodup (c.nodup.sublist part) nodup_filter).mpr fun p => ?_
    exact (members p).trans (c.mem_filter a p).symm

theorem filter_filter : (c.filter a).filter (b.contains ·.severity) = c.filter (a ∩ b) := by
  rw [filter, filter, List.filter_filter]
  refine List.filter_congr fun p _ => ?_
  rw [Bool.eq_iff_iff, Bool.and_eq_true]
  exact and_comm.trans Mask.mem_inter.symm

/-- The same with the problems of the first filter in a collector of their own. -/
theorem filter_extend_filter :
    ((∅ : Collector).extend (c.filter a)).filter b = c.filter (a ∩ b) := by
  rw [filter, problems_extend, fresh_eq_self nodup_filter fun p _ => List.not_mem_nil]
  exact filter_filter

end Filter

section Count

variable {c : Collector} {a b m : Mask}

/-- Each problem adds to the count of one severity, the one it has. -/
theorem sum_severity (p : Problem) :
    ∑ s ∈ m.members, (if p.severity = s then 1 else 0) = if p.severity ∈ m then 1 else 0 := by
  rw [Finset.sum_ite_eq]
  simp only [Mask.mem_members]

theorem count_eq_sum : c.count m = ∑ s ∈ m.members, c.countOf s := by
  rw [count, filter, ← List.countP_eq_length_filter]
  simp only [countOf]
  -- That no problem is held twice plays no part, so the induction is on any list.
  induction c.problems with
  | nil => simp
  | cons p rest ih =>
    simp only [List.countP_cons, decide_eq_true_eq, Finset.sum_add_distrib, sum_severity, ih]
    rfl

theorem count_union_add_count_inter :
    c.count (a ∪ b) + c.count (a ∩ b) = c.count a + c.count b := by
  simp only [count_eq_sum, Mask.members_union, Mask.members_inter]
  exact Finset.sum_union_inter

theorem count_full : c.count .full = c.size :=
  congrArg List.length (List.filter_eq_self.mpr fun _ _ => Mask.mem_full)

theorem count_empty : c.count ∅ = 0 := by
  rw [count_eq_sum, Mask.members_empty, Finset.sum_empty]

theorem count_mono (within : ∀ s ∈ b, s ∈ a) : c.count b ≤ c.count a := by
  rw [count_eq_sum, count_eq_sum]
  refine Finset.sum_le_sum_of_subset fun s member => ?_
  exact Mask.mem_members.mpr (within s (Mask.mem_members.mp member))

/-- What is neither an error nor an abort is a warning. -/
theorem count_faults_add_count_warnings :
    c.count ({.abort} ∪ {.error}) + c.count {.warning} = c.size := by
  have apart : ({.abort} ∪ {.error} : Mask) ∩ {.warning} = ∅ := rfl
  have all : ({.abort} ∪ {.error} : Mask) ∪ {.warning} = .full := rfl
  have parts := @count_union_add_count_inter c ({.abort} ∪ {.error}) {.warning}
  rw [apart, all, count_full, count_empty] at parts
  exact parts.symm

theorem hasErrors_iff : c.hasErrors = true ↔ c.count {.warning} < c.size := by
  have parts := c.count_faults_add_count_warnings
  rw [hasErrors, decide_eq_true_eq]
  omega

end Count

variable (c : Collector) (a b : Mask)

/-- A filter keeps the problems that have a severity of the mask, in their order, and is told by
this. One filter behind another, on the list or on a collector of its own, is the filter of the
intersection. Counting is additive over masks, counts every problem for the full mask and none for
the empty one, and counts no more for a mask than for one that holds it. There is an error or an
abort just if not all problems are warnings. -/
theorem filter_laws :
    (∀ list, list = c.filter a ↔
      list.Sublist c.problems ∧ ∀ p, p ∈ list ↔ p ∈ c ∧ p.severity ∈ a) ∧
    (c.filter a).filter (b.contains ·.severity) = c.filter (a ∩ b) ∧
    ((∅ : Collector).extend (c.filter a)).filter b = c.filter (a ∩ b) ∧
    c.count (a ∪ b) + c.count (a ∩ b) = c.count a + c.count b ∧
    c.count .full = c.size ∧ c.count ∅ = 0 ∧
    ((∀ s ∈ b, s ∈ a) → c.count b ≤ c.count a) ∧
    (c.hasErrors = true ↔ c.count {.warning} < c.size) :=
  ⟨fun _ => eq_filter_iff, filter_filter, filter_extend_filter, count_union_add_count_inter,
    count_full, count_empty, count_mono, hasErrors_iff⟩

/-- A problem of each severity, the warning first. -/
theorem filter_laws_graded :
    let warning := Problem.stated .warning .nil "w"
    let error := Problem.stated .error .nil "e"
    let c := (∅ : Collector).extend [warning, error, .stated .abort .nil "a"]
    let a : Mask := {.warning} ∪ {.error}
    c.filter a = [warning, error] ∧ c.count {.error} = 1 ∧ c.count {.error} ≤ c.count a ∧
      c.count {.warning} = 1 ∧ c.hasErrors = true := by
  intro warning error c a
  obtain ⟨_, _, _, _, _, _, mono, errors⟩ := filter_laws c a {.error}
  have within : ∀ s ∈ ({.error} : Mask), s ∈ a := by
    intro s
    cases s <;> decide
  have one : c.count {.warning} = 1 := by decide +kernel
  have three : c.size = 3 := by decide +kernel
  exact ⟨by decide +kernel, by decide +kernel, mono within, one, errors.mpr (by omega)⟩

end Diagnostics.Collector
