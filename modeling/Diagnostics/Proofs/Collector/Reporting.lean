import Mathlib.Data.Finset.Card
import Diagnostics.Collector

/-!
# Reporting lists

A list that is reported adds, behind what is held already, those of its problems that are new, each
where the list has it first. So the order and the repeats within a list decide in which order the
problems are held and nothing else, and a list in which all problems are new and differ is kept as
it is.
-/
namespace Diagnostics.Collector

/-- The problems of a list that are not held, each where it comes first. -/
def fresh (c : Collector) : List Problem → List Problem
  | [] => []
  | p :: rest => if p ∈ c.problems then c.fresh rest else p :: (c.report p).1.fresh rest

/-- What the reports of a list, made one after the other, answer. -/
def answers (c : Collector) : List Problem → List Bool
  | [] => []
  | p :: rest => (c.report p).2 :: (c.report p).1.answers rest

/-- The same problems are held, in whatever order, and whatever is counted has the same number. -/
structure SameHeld (c d : Collector) : Prop where
  held : ∀ p, p ∈ c ↔ p ∈ d
  size : c.size = d.size
  count : ∀ mask, c.count mask = d.count mask
  hasErrors : c.hasErrors = d.hasErrors

section Fresh

variable {c d : Collector} {p : Problem}

/-- A collector is told by what it holds, in its order. -/
theorem eq_of_problems (same : c.problems = d.problems) : c = d := by
  cases c
  cases d
  cases same
  rfl

theorem report_held (held : p ∈ c.problems) : c.report p = (c, false) := dif_pos held

theorem problems_report_new (new : p ∉ c.problems) :
    (c.report p).1.problems = c.problems ++ [p] := by
  rw [problems_report, if_neg new]

theorem problems_extend (c : Collector) (list : List Problem) :
    (c.extend list).problems = c.problems ++ c.fresh list := by
  induction list generalizing c with
  | nil => exact (List.append_nil _).symm
  | cons p rest ih =>
    change ((c.report p).1.extend rest).problems = _
    rw [fresh]
    split
    · next held =>
      rw [report_held held]
      exact ih c
    · next new =>
      rw [ih, problems_report_new new, List.append_assoc]
      rfl

theorem nodup_held_fresh (c : Collector) (list : List Problem) :
    (c.problems ++ c.fresh list).Nodup :=
  c.problems_extend list ▸ (c.extend list).nodup

theorem nodup_fresh (c : Collector) (list : List Problem) : (c.fresh list).Nodup :=
  (c.nodup_held_fresh list).of_append_right

/-- By `fresh` nothing is added that is held, and nothing that is not held is left out. -/
theorem mem_fresh (list : List Problem) : p ∈ c.fresh list ↔ p ∈ list ∧ p ∉ c.problems := by
  have whole := mem_extend c list p
  have apart := List.disjoint_of_nodup_append (c.nodup_held_fresh list)
  rw [problems_extend, List.mem_append] at whole
  constructor
  · intro added
    have outside : p ∉ c.problems := fun held => apart held added
    exact ⟨(whole.mp (.inr added)).resolve_left outside, outside⟩
  · rintro ⟨listed, outside⟩
    exact (whole.mpr (.inr listed)).resolve_left outside

theorem fresh_eq_nil {list : List Problem} (held : ∀ p ∈ list, p ∈ c.problems) :
    c.fresh list = [] :=
  List.eq_nil_iff_forall_not_mem.mpr fun p added =>
    ((mem_fresh list).mp added).2 (held p ((mem_fresh list).mp added).1)

theorem fresh_eq_self {list : List Problem} (once : list.Nodup)
    (new : ∀ p ∈ list, p ∉ c.problems) : c.fresh list = list := by
  induction list generalizing c with
  | nil => rfl
  | cons p rest ih =>
    obtain ⟨outside, once⟩ := List.nodup_cons.mp once
    obtain ⟨first, later⟩ := List.forall_mem_cons.mp new
    rw [fresh, if_neg first, ih once]
    intro q listed held
    rw [mem_report] at held
    rcases held with before | same
    · exact later q listed before
    · exact outside (same ▸ listed)

theorem count_answers (c : Collector) (list : List Problem) :
    (c.answers list).count true = (c.fresh list).length := by
  induction list generalizing c with
  | nil => rfl
  | cons p rest ih =>
    rw [answers, fresh, report_added]
    split
    · next held => simp [report_held held, held, ih]
    · next new => simp [new, ih]

theorem length_fresh (c : Collector) (list : List Problem) :
    (c.fresh list).length = (list.toFinset \ c.problems.toFinset).card := by
  rw [← List.toFinset_card_of_nodup (c.nodup_fresh list)]
  congr 1
  ext p
  simp [mem_fresh]

end Fresh

variable (c : Collector) (xs ys : List Problem)

theorem extend_extend : (c.extend xs).extend ys = c.extend (xs ++ ys) := by
  rw [extend, extend, extend, List.foldl_append]

theorem extend_held {list : List Problem} (held : ∀ p ∈ list, p ∈ c.problems) :
    c.extend list = c := by
  refine eq_of_problems ?_
  rw [problems_extend, fresh_eq_nil held, List.append_nil]

/-- Reporting the problems of a collector to one that holds none copies it. -/
theorem extend_empty : (∅ : Collector).extend c.problems = c := by
  refine eq_of_problems ?_
  rw [problems_extend, fresh_eq_self c.nodup fun p _ => List.not_mem_nil]
  rfl

variable {c} in
theorem SameHeld.of_mem {d : Collector} (same : ∀ p, p ∈ c.problems ↔ p ∈ d.problems) :
    c.SameHeld d := by
  have permuted : c.problems.Perm d.problems :=
    (List.perm_ext_iff_of_nodup c.nodup d.nodup).mpr same
  have count (mask : Mask) : c.count mask = d.count mask := (permuted.filter _).length_eq
  have hasErrors : c.hasErrors = d.hasErrors := by
    unfold Collector.hasErrors
    rw [count]
  exact ⟨same, permuted.length_eq, count, hasErrors⟩

/-- Two lists reported one after the other are one list, and a list that is reported again changes
nothing. Lists of the same problems, so in particular a list and one that permutes it, lead to
collectors that differ in their order only. As many reports of a list answer that the problem was
added as there are different problems in it that were not held. What is taken is the list that is
held, in its order; it leaves nothing behind, and reporting it brings back what there was. -/
theorem extend_laws :
    (c.extend xs).extend ys = c.extend (xs ++ ys) ∧
    (c.extend xs).extend xs = c.extend xs ∧
    (xs.Perm ys ∨ (∀ p, p ∈ xs ↔ p ∈ ys) → (c.extend xs).SameHeld (c.extend ys)) ∧
    (c.answers xs).count true = (xs.toFinset \ c.problems.toFinset).card ∧
    c.take.2 = c.problems ∧ c.take.1 = ∅ ∧ c.take.1.extend c.take.2 = c := by
  refine ⟨c.extend_extend xs ys, ?_, ?_, ?_, rfl, rfl, c.extend_empty⟩
  · exact extend_held _ fun p listed => (mem_extend c xs p).mpr (.inr listed)
  · intro alike
    have same : ∀ p, p ∈ xs ↔ p ∈ ys := alike.elim (fun permuted _ => permuted.mem_iff) id
    refine .of_mem fun p => ?_
    rw [mem_extend, mem_extend, same]
  · rw [count_answers, length_fresh]

def finding (moduleName message : String) : Problem :=
  .stated .error ⟨moduleName, .unknown⟩ message

/-- Two lists of the same problems, with repeats and in another order. -/
theorem extend_laws_swapped :
    let one := finding "m" "one"
    let two := finding "m" "two"
    let c := (∅ : Collector).extend [finding "n" "one"]
    (c.extend [one, two, one]).problems = [finding "n" "one", one, two] ∧
      (c.extend [two, one, two]).problems = [finding "n" "one", two, one] ∧
      (c.extend [one, two, one]).SameHeld (c.extend [two, one, two]) := by
  intro one two c
  refine ⟨by decide +kernel, by decide +kernel, ?_⟩
  refine (extend_laws c [one, two, one] [two, one, two]).2.2.1 (.inr fun p => ?_)
  simp [or_comm, or_left_comm]

end Diagnostics.Collector
