import Mathlib.Algebra.BigOperators.Group.Finset.Basic
import Mathlib.Data.Fintype.Basic
import Diagnostics.Proofs.Json.Decoding
import Diagnostics.Proofs.Severity.Parts
import Diagnostics.Severity.Draft
import Diagnostics.Severity.Membership

/-!
# Masks as finite sets

However a mask is come by, it shows the set that the same steps make of finite sets. The way from
masks to sets respects each operation, so a run of any length needs no more than one case a step.
-/
namespace Diagnostics

instance : Fintype Severity := ⟨Severity.all.toFinset, fun s => by cases s <;> decide⟩

namespace Mask

/-- The severities in a mask. -/
def members (m : Mask) : Finset Severity := Finset.univ.filter (· ∈ m)

/-- The severities whose flag is set in a number, whatever other bits are. -/
def flagged (n : Nat) : Finset Severity := Finset.univ.filter fun s => n.testBit (place s)

/-- A part of an expression names a severity by its name or by `all`, in any case of its letters. -/
def Names (part : List Char) (s : Severity) : Prop :=
  String.ofList (part.map Char.toLower) = "all" ∨ String.ofList (part.map Char.toLower) = s.name

instance (part : List Char) (s : Severity) : Decidable (Names part s) :=
  inferInstanceAs (Decidable (_ ∨ _))

/-- Some part of the expression names the severity. -/
def NamedIn (text : String) (s : Severity) : Prop :=
  ∃ parts, Expression.Parts text.toList parts ∧ ∃ part ∈ parts, Names part s

theorem namedIn_iff {text : String} {s : Severity} :
    NamedIn text s ↔ ∃ part ∈ Expression.parts text, Names part s := by
  simp [NamedIn, Expression.parts_iff]

instance (text : String) : DecidablePred (NamedIn text) := fun _ =>
  decidable_of_iff _ namedIn_iff.symm

/-- The severities that the parts of an expression name. -/
def named (text : String) : Finset Severity := Finset.univ.filter (NamedIn text)

/-- What can be seen of a mask is what the set has. -/
structure Represents (m : Mask) (S : Finset Severity) : Prop where
  contains : ∀ s, m.contains s = true ↔ s ∈ S
  bits : m.bits.toNat = ∑ s ∈ S, s.bits.toNat
  flags_only : m.bits &&& ~~~112 = 0
  ofByte_bits : ofByte m.bits = m
  isEmpty : m.isEmpty = true ↔ S = ∅
  listed : ∀ s, s ∈ m.toList ↔ s ∈ S
  once : m.toList.Nodup
  gravest_first : m.toList.Pairwise (· > ·)
  gravest : ∀ s, m.mostSevere? = some s ↔ s ∈ S ∧ ∀ t ∈ S, t ≤ s
  no_gravest : m.mostSevere? = none ↔ S = ∅

section Members

variable {a b m : Mask} {s : Severity}

@[simp] theorem mem_members : s ∈ m.members ↔ s ∈ m := by simp [members]

theorem members_inj : a.members = b.members ↔ a = b := by
  constructor
  · intro same
    refine ext fun s => ?_
    rw [← mem_members, same, mem_members]
  · rintro rfl
    rfl

@[simp] theorem members_empty : (∅ : Mask).members = ∅ := by ext; simp

@[simp] theorem members_full : full.members = Finset.univ := by ext; simp

@[simp] theorem members_singleton : ({s} : Mask).members = {s} := by ext; simp

@[simp] theorem members_union : (a ∪ b).members = a.members ∪ b.members := by ext; simp

@[simp] theorem members_inter : (a ∩ b).members = a.members ∩ b.members := by ext; simp

@[simp] theorem members_insert : (m.insert s).members = m.members ∪ {s} := by
  rw [insert, members_union, members_singleton]

theorem members_ofList (severities : List Severity) :
    (ofList severities).members = severities.toFinset := by
  ext
  simp [mem_ofList]

theorem members_ofByte (b : UInt8) : (ofByte b).members = flagged b.toNat := by
  ext s
  have flag : (UInt8.toBitVec 112).getLsbD (place s) = true := by cases s <;> rfl
  rw [mem_members, mem_iff_getLsbD, flagged, Finset.mem_filter]
  change (b &&& 112).toBitVec.getLsbD (place s) = true ↔ _
  rw [UInt8.toBitVec_and, BitVec.getLsbD_and, flag, Bool.and_true, ← BitVec.testBit_toNat]
  simp

end Members

section Expressions

theorem mem_wordMask? {word : String} {mask : Mask} (reads : Expression.wordMask? word = some mask)
    {s : Severity} : s ∈ mask ↔ word = "all" ∨ word = s.name := by
  unfold Expression.wordMask? at reads
  split at reads <;> cases reads <;> cases s <;> simp [Severity.name]

theorem mem_partMask {part : List Char} {mask : Mask} (reads : Expression.partMask part = .ok mask)
    {s : Severity} : s ∈ mask ↔ Names part s := by
  unfold Expression.partMask at reads
  split at reads
  · next word =>
    cases reads
    exact mem_wordMask? word
  · cases reads

theorem mem_foldl_union {masks : List Mask} {m : Mask} {s : Severity} :
    s ∈ masks.foldl (· ∪ ·) m ↔ s ∈ m ∨ ∃ mask ∈ masks, s ∈ mask := by
  induction masks generalizing m with
  | nil => simp
  | cons mask rest ih => simp [ih, or_assoc]

theorem mem_mapM_partMask {parts : List (List Char)} {masks : List Mask}
    (reads : parts.mapM Expression.partMask = .ok masks) {s : Severity} :
    (∃ mask ∈ masks, s ∈ mask) ↔ ∃ part ∈ parts, Names part s := by
  induction parts generalizing masks with
  | nil =>
    cases reads
    simp
  | cons part rest ih =>
    rw [List.mapM_cons] at reads
    cases first : Expression.partMask part with
    | error fault => simp [first, bind, Except.bind] at reads
    | ok mask =>
      cases others : rest.mapM Expression.partMask with
      | error fault => simp [first, others, bind, Except.bind] at reads
      | ok list =>
        simp only [first, others, bind, Except.bind, pure, Except.pure] at reads
        cases reads
        simp [ih others, mem_partMask first]

theorem members_parse {text : String} {m : Mask} (reads : Expression.parse text = .ok m) :
    m.members = named text := by
  unfold Expression.parse at reads
  cases masks : (Expression.parts text).mapM Expression.partMask with
  | error fault => simp [masks, bind, Except.bind] at reads
  | ok list =>
    simp only [masks, bind, Except.bind, pure, Except.pure] at reads
    cases reads
    ext s
    simp [named, namedIn_iff, mem_foldl_union, mem_mapM_partMask masks]

end Expressions

section Represents

variable (m : Mask)

/-- A mask is put together from the flags of its members. -/
theorem bits_toNat :
    m.bits.toNat = (if Severity.abort ∈ m then 16 else 0) + (if Severity.error ∈ m then 32 else 0) +
      if Severity.warning ∈ m then 64 else 0 := by
  have whole : m = (if Severity.abort ∈ m then {Severity.abort} else ∅) ∪
      (if Severity.error ∈ m then {Severity.error} else ∅) ∪
      (if Severity.warning ∈ m then {Severity.warning} else ∅) := by
    refine ext fun s => ?_
    by_cases abort : Severity.abort ∈ m <;> by_cases error : Severity.error ∈ m <;>
      by_cases warning : Severity.warning ∈ m <;> cases s <;> simp [abort, error, warning]
  rw [congrArg bits whole]
  split <;> split <;> split <;> rfl

theorem bits_eq_sum : m.bits.toNat = ∑ s ∈ m.members, s.bits.toNat := by
  have every : (Finset.univ : Finset Severity) = {.abort, .error, .warning} := rfl
  rw [bits_toNat, members, Finset.sum_filter, every]
  simp [Severity.bits, add_assoc]

theorem bits_and_others : m.bits &&& ~~~112 = 0 := by
  rw [← m.flags_only, UInt8.and_assoc]
  exact UInt8.and_zero

theorem ofByte_bits : ofByte m.bits = m := by
  obtain ⟨bits, flags⟩ := m
  simp only [ofByte, flags]

theorem isEmpty_iff : m.isEmpty = true ↔ m = ∅ := by
  rw [isEmpty, beq_iff_eq]
  constructor
  · intro zero
    rw [← m.ofByte_bits, zero]
    rfl
  · rintro rfl
    rfl

theorem toList_sorted : m.toList.Pairwise (· > ·) :=
  List.Pairwise.filter _ (by decide)

theorem toList_nodup : m.toList.Nodup :=
  List.Nodup.filter _ (by decide)

/-- The list begins with the gravest. -/
theorem mostSevere?_eq_head? : m.mostSevere? = m.toList.head? := by
  simp only [mostSevere?, toList, Severity.all, List.filter_cons, List.filter_nil]
  split <;> split <;> split <;> rfl

theorem mostSevere?_eq_some {s : Severity} :
    m.mostSevere? = some s ↔ s ∈ m ∧ ∀ t ∈ m, t ≤ s := by
  have sorted := m.toList_sorted
  simp only [mostSevere?_eq_head?, ← mem_toList (m := m)]
  generalize m.toList = list at sorted ⊢
  cases list with
  | nil => simp
  | cons first rest =>
    have below : ∀ t ∈ first :: rest, t ≤ first := by
      intro t listed
      rcases List.mem_cons.mp listed with rfl | later
      · exact Nat.le_refl _
      · have less : first > t := List.rel_of_pairwise_cons sorted later
        exact Nat.le_of_lt less
    constructor
    · rintro ⟨⟩
      exact ⟨List.mem_cons_self, below⟩
    · rintro ⟨listed, above⟩
      rcases List.mem_cons.mp listed with rfl | later
      · rfl
      · have less : first > s := List.rel_of_pairwise_cons sorted later
        exact absurd less (Nat.not_lt.mpr (above first List.mem_cons_self))

theorem mostSevere?_eq_none : m.mostSevere? = none ↔ m.members = ∅ := by
  rw [mostSevere?_eq_head?, List.head?_eq_none_iff, List.eq_nil_iff_forall_not_mem,
    Finset.eq_empty_iff_forall_notMem]
  simp only [mem_toList, mem_members]

theorem represents_members : m.Represents m.members where
  contains s := mem_members.symm
  bits := m.bits_eq_sum
  flags_only := m.bits_and_others
  ofByte_bits := m.ofByte_bits
  isEmpty := by rw [isEmpty_iff, ← members_inj, members_empty]
  listed s := by rw [mem_toList, mem_members]
  once := m.toList_nodup
  gravest_first := m.toList_sorted
  gravest s := by simp only [mostSevere?_eq_some, mem_members]
  no_gravest := m.mostSevere?_eq_none

end Represents

/-- A way to come by a mask in a run: from something else, or from masks that one can come by. -/
inductive Recipe where
  /-- The mask that the run has so far. -/
  | current
  | none
  | all
  | default
  | byte (bits : UInt8)
  | severity (s : Severity)
  | members (severities : List Severity)
  | expression (text : String)
  /-- Decode the written form of an integer. -/
  | stored (n : Int)
  | unite (left right : Recipe)
  | intersect (left right : Recipe)
  | insert (recipe : Recipe) (s : Severity)

namespace Recipe

/-- The mask, or none if something in the recipe is no form of a mask. -/
def build (m : Mask) : Recipe → Option Mask
  | current => some m
  | none => some Mask.empty
  | all => some Mask.full
  | default => some Inhabited.default
  | byte bits => some (ofByte bits)
  | severity s => some (ofSeverity s)
  | members severities => some (ofList severities)
  | expression text => (Expression.parse text).toOption
  | stored n => Json.decode? (Json.Document.ofInt n).toText
  | unite left right => return (← left.build m) ∪ (← right.build m)
  | intersect left right => return (← left.build m) ∩ (← right.build m)
  | insert recipe s => return (← recipe.build m).insert s

/-- What the recipe means for finite sets. -/
def set (S : Finset Severity) : Recipe → Option (Finset Severity)
  | current => some S
  | none => some ∅
  | all => some Finset.univ
  | default => some ∅
  | byte bits => some (flagged bits.toNat)
  | severity s => some {s}
  | members severities => some severities.toFinset
  | expression text => if Expression.Readable text then some (named text) else Option.none
  | stored n => if 0 ≤ n ∧ n ≤ 255 then some (flagged n.toNat) else Option.none
  | unite left right => return (← left.set S) ∪ (← right.set S)
  | intersect left right => return (← left.set S) ∩ (← right.set S)
  | insert recipe s => return (← recipe.set S) ∪ {s}

/-- The mask after a run; a recipe that fails leaves it as it was. -/
def finish (m : Mask) (recipes : List Recipe) : Mask :=
  recipes.foldl (fun m recipe => (recipe.build m).getD m) m

/-- The set that the run stands for. -/
def finishSet (S : Finset Severity) (recipes : List Recipe) : Finset Severity :=
  recipes.foldl (fun S recipe => (recipe.set S).getD S) S

theorem finish_concat (m : Mask) (recipes : List Recipe) (last : Recipe) :
    finish m (recipes ++ [last]) = (last.build (finish m recipes)).getD (finish m recipes) :=
  List.foldl_concat ..

theorem build_stored (m : Mask) (n : Int) :
    ((stored n).build m).map Mask.members = (stored n).set m.members := by
  have read : (stored n).build m =
      (((Json.Document.ofInt n).intWithin? 0 255).map fun n => UInt8.ofNat n.toNat).map ofByte := by
    rw [build, Json.decode?, Json.Document.read?_toText]
    rfl
  rw [read, set]
  split
  · next range =>
    have small : n.toNat < 256 := by omega
    have same : (UInt8.ofNat n.toNat).toNat = n.toNat := UInt8.toNat_ofNat_of_lt' small
    rw [Json.Document.intWithin?_eq_some.mpr ⟨rfl, range⟩, Option.map_some, Option.map_some,
      Option.map_some, members_ofByte, same]
  · next outside =>
    rw [Json.Document.intWithin?_ofInt_outside outside]
    rfl

/-- What a recipe makes of a mask has the members that it makes of the set. -/
theorem map_members_build (m : Mask) (recipe : Recipe) :
    (recipe.build m).map Mask.members = recipe.set m.members := by
  induction recipe with
  | current => rfl
  | none => exact congrArg some members_empty
  | all => exact congrArg some members_full
  | default => exact congrArg some members_empty
  | byte bits => exact congrArg some (members_ofByte bits)
  | severity s => exact congrArg some members_singleton
  | members severities => exact congrArg some (members_ofList severities)
  | expression text =>
    rw [build, set]
    cases reads : Expression.parse text with
    | error fault =>
      have unread : ¬ Expression.Readable text := by simp [← Expression.exists_parse_iff, reads]
      rw [if_neg unread]
      rfl
    | ok mask =>
      rw [if_pos (Expression.exists_parse_iff.mp ⟨mask, reads⟩)]
      exact congrArg some (members_parse reads)
  | stored n => exact build_stored m n
  | unite left right ihLeft ihRight =>
    rw [set, ← ihLeft, ← ihRight, build]
    cases left.build m <;> cases right.build m <;> simp
  | intersect left right ihLeft ihRight =>
    rw [set, ← ihLeft, ← ihRight, build]
    cases left.build m <;> cases right.build m <;> simp
  | insert recipe s ih =>
    rw [set, ← ih, build]
    cases recipe.build m <;> simp

theorem members_finish (m : Mask) (recipes : List Recipe) :
    (finish m recipes).members = finishSet m.members recipes := by
  induction recipes generalizing m with
  | nil => rfl
  | cons recipe rest ih =>
    have step : ((recipe.build m).getD m).members = (recipe.set m.members).getD m.members := by
      rw [← map_members_build]
      cases recipe.build m <;> rfl
    rw [finish, List.foldl_cons, ← finish, ih, step]
    rfl

end Recipe

/-- The steps of the library's own runs are recipes. -/
def Draft.recipe : Draft → Recipe
  | .byte bits => .byte bits
  | .expression text => .expression text
  | .members severities => .members severities

def Operand.recipe : Operand → Recipe
  | .severity s => .severity s
  | .byte bits => .byte bits
  | .mask draft => draft.recipe

def Step.recipe : Step → Recipe
  | .unite operand => .unite .current operand.recipe
  | .intersect operand => .intersect .current operand.recipe
  | .replace operand => operand.recipe
  | .insert s => .insert .current s
  | .uniteSeverity left operand => .unite (.severity left) operand.recipe

theorem Operand.build_recipe (m : Mask) (operand : Operand) :
    operand.recipe.build m = operand.build.toOption := by
  cases operand with
  | severity s => rfl
  | byte bits => rfl
  | mask draft => cases draft <;> rfl

theorem Step.build_recipe (m : Mask) (step : Step) :
    step.recipe.build m = (step.apply m).toOption := by
  cases step with
  | insert s => rfl
  | replace operand => exact operand.build_recipe m
  | unite operand =>
    simp only [recipe, Recipe.build, operand.build_recipe, apply]
    cases operand.build <;> rfl
  | intersect operand =>
    simp only [recipe, Recipe.build, operand.build_recipe, apply]
    cases operand.build <;> rfl
  | uniteSeverity left operand =>
    simp only [recipe, Recipe.build, operand.build_recipe, apply]
    cases operand.build <;> rfl

theorem finish_eq (m : Mask) (steps : List Step) :
    finish m steps = Recipe.finish m (steps.map Step.recipe) := by
  rw [finish, Recipe.finish, List.foldl_map]
  congr 1
  funext m step
  rw [Step.build_recipe, Step.next]
  cases step.apply m <;> rfl

/-- After any run of recipes the mask shows the set that the run stands for, so two runs come to the
same mask just if they stand for the same set. A recipe that fails, as an expression that names no
severity does, changes neither. The library's own runs of steps are such runs. -/
theorem finish_represents :
    (∀ recipes, (Recipe.finish ∅ recipes).Represents (Recipe.finishSet ∅ recipes)) ∧
    (∀ recipes others, (Recipe.finish ∅ recipes == Recipe.finish ∅ others) = true ↔
      Recipe.finishSet ∅ recipes = Recipe.finishSet ∅ others) ∧
    (∀ recipes failing, failing.build (Recipe.finish ∅ recipes) = none →
      Recipe.finish ∅ (recipes ++ [failing]) = Recipe.finish ∅ recipes ∧
        Recipe.finishSet ∅ (recipes ++ [failing]) = Recipe.finishSet ∅ recipes) ∧
    ∀ steps : List Step, finish ∅ steps = Recipe.finish ∅ (steps.map Step.recipe) := by
  have members (recipes : List Recipe) :
      (Recipe.finish ∅ recipes).members = Recipe.finishSet ∅ recipes := by
    rw [Recipe.members_finish, members_empty]
  refine ⟨?_, ?_, ?_, finish_eq ∅⟩
  · intro recipes
    rw [← members]
    exact represents_members _
  · intro recipes others
    rw [beq_iff_eq, ← members, ← members, members_inj]
  · intro recipes failing fails
    have kept : Recipe.finish ∅ (recipes ++ [failing]) = Recipe.finish ∅ recipes := by
      rw [Recipe.finish_concat, fails, Option.getD_none]
    exact ⟨kept, by rw [← members, ← members, kept]⟩

end Mask
end Diagnostics
