import Diagnostics.Severity.Mask

/-!
# Masks as sets

What each operation on masks does to the members, and that the members determine the mask. The
flag of a severity is one bit, so each statement is read off one bit of the byte.
-/
namespace Diagnostics.Mask

/-- The place of a severity's flag in the byte. -/
def place : Severity → Nat
  | .abort => 4
  | .error => 5
  | .warning => 6

theorem bits_eq_twoPow (s : Severity) : s.bits.toBitVec = BitVec.twoPow 8 (place s) := by
  cases s <;> rfl

/-- A severity is a member if the bit at its place is set. -/
theorem mem_iff_getLsbD {m : Mask} {s : Severity} : s ∈ m ↔ m.bits.toBitVec.getLsbD (place s) := by
  change (m.bits &&& s.bits != 0) = true ↔ _
  rw [bne_iff_ne, ne_eq, ← UInt8.toBitVec_inj, UInt8.toBitVec_and, bits_eq_twoPow,
    BitVec.and_twoPow]
  cases m.bits.toBitVec.getLsbD (place s) <;> cases s <;> simp [place] <;> decide

/-- A union has the members of both sets. -/
@[simp] theorem mem_union {a b : Mask} {s : Severity} : s ∈ a ∪ b ↔ s ∈ a ∨ s ∈ b := by
  rw [mem_iff_getLsbD, mem_iff_getLsbD, mem_iff_getLsbD]
  change (a.bits ||| b.bits).toBitVec.getLsbD (place s) = true ↔ _
  rw [UInt8.toBitVec_or, BitVec.getLsbD_or, Bool.or_eq_true]

/-- An intersection has the members that are in both sets. -/
@[simp] theorem mem_inter {a b : Mask} {s : Severity} : s ∈ a ∩ b ↔ s ∈ a ∧ s ∈ b := by
  rw [mem_iff_getLsbD, mem_iff_getLsbD, mem_iff_getLsbD]
  change (a.bits &&& b.bits).toBitVec.getLsbD (place s) = true ↔ _
  rw [UInt8.toBitVec_and, BitVec.getLsbD_and, Bool.and_eq_true]

@[simp] theorem not_mem_empty {s : Severity} : s ∉ (∅ : Mask) := by cases s <;> decide

@[simp] theorem mem_full {s : Severity} : s ∈ full := by cases s <;> decide

@[simp] theorem mem_singleton {s t : Severity} : s ∈ ({t} : Mask) ↔ s = t := by
  cases s <;> cases t <;> decide

@[simp] theorem mem_insert {m : Mask} {s t : Severity} : s ∈ m.insert t ↔ s ∈ m ∨ s = t := by
  simp [insert]

/-- Outside the places of the flags no bit is set. -/
theorem getLsbD_eq_false (m : Mask) {i : Nat} (h : ∀ s, place s ≠ i) :
    m.bits.toBitVec.getLsbD i = false := by
  rw [← m.flags_only, UInt8.toBitVec_and, BitVec.getLsbD_and]
  have away : (UInt8.toBitVec 112).getLsbD i = false := by
    by_cases hi : i < 8
    · have := h .abort; have := h .error; have := h .warning
      simp only [place] at *
      have : i = 0 ∨ i = 1 ∨ i = 2 ∨ i = 3 ∨ i = 7 := by omega
      rcases this with rfl | rfl | rfl | rfl | rfl <;> decide
    · exact BitVec.getLsbD_of_ge _ _ (by omega)
  rw [away, Bool.and_false]

/-- Masks with the same members are equal. -/
theorem ext {a b : Mask} (h : ∀ s, s ∈ a ↔ s ∈ b) : a = b := by
  have bits : a.bits = b.bits := by
    apply UInt8.toBitVec_inj.1
    apply BitVec.eq_of_getLsbD_eq
    intro i _
    by_cases flag : ∃ s, place s = i
    · obtain ⟨s, rfl⟩ := flag
      exact Bool.eq_iff_iff.2 (by simpa only [mem_iff_getLsbD] using h s)
    · have away : ∀ s, place s ≠ i := fun s hs => flag ⟨s, hs⟩
      rw [a.getLsbD_eq_false away, b.getLsbD_eq_false away]
  cases a; cases b; cases bits; rfl

theorem mem_toList {m : Mask} {s : Severity} : s ∈ m.toList ↔ s ∈ m :=
  List.mem_filter.trans (and_iff_right (by cases s <;> decide))

theorem mem_foldl_insert {m : Mask} {severities : List Severity} {s : Severity} :
    s ∈ severities.foldl insert m ↔ s ∈ m ∨ s ∈ severities := by
  induction severities generalizing m with
  | nil => simp
  | cons t rest ih => simp [ih, or_assoc]

theorem mem_ofList {severities : List Severity} {s : Severity} :
    s ∈ ofList severities ↔ s ∈ severities := by
  simp [ofList, mem_foldl_insert]

end Diagnostics.Mask
