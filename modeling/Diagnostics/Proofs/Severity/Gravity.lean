import Mathlib.Data.List.Sort
import Diagnostics.Proofs.Severity.FiniteSet

/-!
# Collecting severities by gravity

The order of gravity is that of the ranks, the flags run the other way, and the list of all
severities is a third place that puts them in an order. The three agree however many severities are
collected: a mask tells the gravest of a list, and shows what the list holds from the gravest down.
-/
namespace Diagnostics

namespace Severity

variable {s t : Severity} {severities : List Severity}

theorem rank_inj : s.rank = t.rank ↔ s = t := by
  cases s <;> cases t <;> decide

theorem isLE_compare : (compare s t).isLE = true ↔ s ≤ t := Nat.isLE_compare

theorem compare_eq_gt : compare s t = .gt ↔ s > t := Nat.compare_eq_gt

theorem ne_of_gt (gt : s > t) : s ≠ t := by
  rintro rfl
  exact Nat.lt_irrefl _ gt

/-- Of two severities that differ one is graver. -/
theorem gt_of_ge_of_ne (ge : s ≥ t) (differ : s ≠ t) : s > t :=
  Nat.lt_of_le_of_ne ge fun same => differ (rank_inj.mp same).symm

instance : Std.IsLinearOrder Severity :=
  .of_le ⟨fun _ _ le ge => rank_inj.mp (Nat.le_antisymm le ge)⟩ ⟨Nat.le_trans⟩
    ⟨fun s t => Nat.le_total s.rank t.rank⟩

theorem max_eq_ite : max s t = if s ≤ t then t else s := rfl

instance : Std.LawfulOrderMax Severity where
  max_eq_or s t := by
    rw [max_eq_ite]
    split
    · exact .inr rfl
    · exact .inl rfl
  max_le_iff s t u := by
    rw [max_eq_ite]
    split
    · next below => exact ⟨fun le => ⟨Nat.le_trans below le, le⟩, And.right⟩
    · next above =>
      have ge : t ≤ s := Nat.le_of_lt (Nat.lt_of_not_le above)
      exact ⟨fun le => ⟨le, Nat.le_trans ge le⟩, And.left⟩

/-- The list from the gravest down, each severity once. -/
def descending (severities : List Severity) : List Severity := (sort severities).reverse.dedup

theorem mem_descending : s ∈ descending severities ↔ s ∈ severities := by
  rw [descending, List.mem_dedup, List.mem_reverse, sort, List.mem_mergeSort]

theorem pairwise_descending : (descending severities).Pairwise (· > ·) := by
  have sorted : (sort severities).Pairwise (· ≤ ·) := List.pairwise_mergeSort' (· ≤ ·) severities
  have reversed : (sort severities).reverse.Pairwise (· ≥ ·) := List.pairwise_reverse.mpr sorted
  have once : (descending severities).Pairwise (· ≠ ·) := List.nodup_dedup _
  exact ((reversed.sublist (List.dedup_sublist _)).and once).imp fun both =>
    gt_of_ge_of_ne both.1 both.2

end Severity

namespace Mask

section Gravest

variable {a b m : Mask}

theorem union_empty : a ∪ ∅ = a := ext fun s => by simp

theorem empty_union : ∅ ∪ a = a := ext fun s => by simp

theorem eq_empty_of_mostSevere? (none : m.mostSevere? = none) : m = ∅ := by
  rw [mostSevere?_eq_none, ← members_empty] at none
  exact members_inj.mp none

/-- The gravest of two masks is the graver one of their gravest. -/
theorem mostSevere?_union : (a ∪ b).mostSevere? = max a.mostSevere? b.mostSevere? := by
  cases left : a.mostSevere? with
  | none => rw [eq_empty_of_mostSevere? left, empty_union, Option.max_none_left]
  | some s =>
    cases right : b.mostSevere? with
    | none => rw [eq_empty_of_mostSevere? right, union_empty, left, Option.max_none_right]
    | some t =>
      obtain ⟨memberLeft, aboveLeft⟩ := (mostSevere?_eq_some a).mp left
      obtain ⟨memberRight, aboveRight⟩ := (mostSevere?_eq_some b).mp right
      rw [Option.max_some_some, mostSevere?_eq_some]
      constructor
      · rcases Std.MaxEqOr.max_eq_or s t with graver | graver
        · rw [graver]
          exact mem_union.mpr (.inl memberLeft)
        · rw [graver]
          exact mem_union.mpr (.inr memberRight)
      · intro u member
        rcases mem_union.mp member with inLeft | inRight
        · exact Std.le_trans (aboveLeft u inLeft) Std.left_le_max
        · exact Std.le_trans (aboveRight u inRight) Std.right_le_max

end Gravest

section Collected

variable {xs ys list : List Severity}

theorem mostSevere?_ofList : (ofList xs).mostSevere? = xs.max? := by
  refine Option.ext fun s => ?_
  simp only [mostSevere?_eq_some, mem_ofList, List.max?_eq_some_iff]

/-- There is one way to put the members of a list strictly from the gravest down. -/
theorem eq_toList_ofList :
    list = (ofList xs).toList ↔ list.Pairwise (· > ·) ∧ ∀ s, s ∈ list ↔ s ∈ xs := by
  have members (s : Severity) : s ∈ (ofList xs).toList ↔ s ∈ xs := mem_toList.trans mem_ofList
  constructor
  · rintro rfl
    exact ⟨toList_sorted _, members⟩
  · rintro ⟨downwards, same⟩
    have once : list.Nodup := downwards.imp Severity.ne_of_gt
    have permuted : list.Perm (ofList xs).toList :=
      (List.perm_ext_iff_of_nodup once (toList_nodup _)).mpr fun s =>
        (same s).trans (members s).symm
    refine permuted.eq_of_pairwise ?_ downwards (toList_sorted _)
    exact fun s t _ _ gt lt => absurd lt (Nat.lt_asymm gt)

theorem toList_ofList : (ofList xs).toList = Severity.descending xs :=
  (eq_toList_ofList.mpr ⟨Severity.pairwise_descending, fun _ => Severity.mem_descending⟩).symm

theorem ofList_inj : ofList xs = ofList ys ↔ ∀ s, s ∈ xs ↔ s ∈ ys := by
  constructor
  · intro same s
    rw [← mem_ofList, same, mem_ofList]
  · intro same
    exact ext fun s => mem_ofList.trans ((same s).trans mem_ofList.symm)

theorem ofList_append : ofList (xs ++ ys) = ofList xs ∪ ofList ys := by
  refine ext fun s => ?_
  rw [mem_union, mem_ofList, mem_ofList, mem_ofList, List.mem_append]

end Collected

/-- However severities are collected, the mask tells the greatest of them by gravity, and none just
if there are none. It shows them from the gravest down and each once, as sorting them and dropping
repeats does; this is the only list of them that descends strictly. Two lists are collected to one
mask just if they have the same members. What is collected from one list after the other is the
union of the two masks, and its gravest is the graver of theirs. -/
theorem collected_by_gravity (xs ys : List Severity) :
    (ofList xs).mostSevere? = xs.max? ∧
    (∀ s, (ofList xs).mostSevere? = some s ↔ s ∈ xs ∧ ∀ t ∈ xs, (compare t s).isLE) ∧
    ((ofList xs).mostSevere? = none ↔ xs = []) ∧
    (ofList xs).toList = Severity.descending xs ∧
    (∀ list, list = (ofList xs).toList ↔
      list.Pairwise (compare · · = .gt) ∧ ∀ s, s ∈ list ↔ s ∈ xs) ∧
    (ofList xs = ofList ys ↔ ∀ s, s ∈ xs ↔ s ∈ ys) ∧
    ofList (xs ++ ys) = ofList xs ∪ ofList ys ∧
    (ofList (xs ++ ys)).mostSevere? = max (ofList xs).mostSevere? (ofList ys).mostSevere? := by
  refine ⟨mostSevere?_ofList, fun s => ?_, ?_, toList_ofList, fun list => ?_, ofList_inj,
    ofList_append, ?_⟩
  · simp only [mostSevere?_ofList, List.max?_eq_some_iff, Severity.isLE_compare]
  · rw [mostSevere?_ofList, List.max?_eq_none_iff]
  · simp only [eq_toList_ofList, Severity.compare_eq_gt]
  · rw [ofList_append, mostSevere?_union]

/-- A list with a repeat, and its mask from the gravest down. -/
example : (ofList [.warning, .abort, .warning]).toList = [.abort, .warning] := by decide

end Mask
end Diagnostics
