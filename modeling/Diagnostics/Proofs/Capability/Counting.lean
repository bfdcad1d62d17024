import Mathlib.Data.List.GetD
import Diagnostics.Proofs.Capability.Counters
import Diagnostics.Proofs.Capability.Identity

/-!
# Rules that count

A rule that counts gives how often it has applied. The number is its own: no other provider changes
it, and it does not depend on what the table holds. So it goes on from where it was, whichever
lookup calls the rule, and two providers made from one rule count apart.
-/
namespace Diagnostics.Capability

/-- The number that the provider keeps. -/
def Registry.number (r : Registry) (registration : Registration) : Nat :=
  (r.memories registration.provider.takes).getD registration.serial 0

/-- The provider follows a rule that counts how often the condition holds. -/
def Registration.Counts (condition : Condition) (counter : Registration) : Prop :=
  ∃ name type, counter.provider = (Rule.mk name condition .counter).provider type

def Party.key? : Party → Option (ValueType × Nat)
  | .provider type serial => some (type, serial)
  | _ => none

/-- The call is for this provider. -/
def Call.isOf (counter : Registration) (call : Call) : Bool := call.registration.key = counter.key

/-- The condition holds of the value that the provider is called for. -/
def Call.meets (condition : Condition) (call : Call) : Bool :=
  condition.holds call.registration.provider.takes call.value

/-- The integer that the provider gives, if it gives integers and does not decline. -/
def Call.integer? (call : Call) : Option Int32 := call.viewAs .integer

/-- The integers that a provider gave, in the order of its calls. -/
def given (counter : Registration) (calls : List Call) : List Int32 :=
  (calls.filter (·.isOf counter)).filterMap Call.integer?

/-- How many calls of a provider meet the condition. -/
def applied (counter : Registration) (condition : Condition) (calls : List Call) : Nat :=
  (calls.filter (·.isOf counter)).countP (·.meets condition)

/-- The provider answers the calls that meet the condition, and no others. By its answers it counts
from one number, which it has reached before, to another. -/
structure Counted (counter : Registration) (condition : Condition) (before : Nat)
    (calls : List Call) (after : Nat) : Prop where
  answers : ∀ call ∈ calls, call.isOf counter → call.own.value.isSome = call.meets condition
  numbers : given counter calls =
    (List.range' (before + 1) (applied counter condition calls)).map Int32.ofNat
  reached : after = before + applied counter condition calls

namespace Counted

variable {counter : Registration} {condition : Condition} {first second third : Nat}
  {calls later : List Call} {call : Call}

theorem nil (n : Nat) : Counted counter condition n [] n := ⟨List.forall_mem_nil _, rfl, rfl⟩

theorem append (before : Counted counter condition first calls second)
    (after : Counted counter condition second later third) :
    Counted counter condition first (calls ++ later) third := by
  have values : given counter (calls ++ later) = given counter calls ++ given counter later := by
    simp [given]
  have total : applied counter condition (calls ++ later) =
      applied counter condition calls + applied counter condition later := by
    simp [applied]
  refine ⟨List.forall_mem_append.mpr ⟨before.answers, after.answers⟩, ?_, ?_⟩
  · have onward : second + 1 = first + 1 + 1 * applied counter condition calls := by
      have reached := before.reached
      omega
    rw [values, total, before.numbers, after.numbers, ← List.map_append, onward,
      List.range'_append]
  · rw [after.reached, before.reached, total, Nat.add_assoc]

/-- A call of another provider. -/
theorem other (different : call.isOf counter = false) (n : Nat) :
    Counted counter condition n [call] n := by
  refine ⟨?_, ?_, ?_⟩
  · intro same member mine
    rw [List.mem_singleton.mp member, different] at mine
    cases mine
  · simp [given, applied, different]
  · simp [applied, different]

theorem declined (mine : call.isOf counter) (fails : call.meets condition = false)
    (nothing : call.own.value = none) (n : Nat) : Counted counter condition n [call] n := by
  have integer : call.integer? = none := by
    rw [Call.integer?, ← Turn.view_as?, call.view_eq_none.mpr nothing]
    rfl
  refine ⟨?_, ?_, ?_⟩
  · intro same member _
    rw [List.mem_singleton.mp member, fails, nothing]
    rfl
  · simp [given, applied, mine, fails, integer]
  · simp [applied, mine, fails]

theorem answered (mine : call.isOf counter) (holds : call.meets condition)
    (answers : call.own.value.isSome) (integer : call.integer? = some (Int32.ofNat (first + 1))) :
    Counted counter condition first [call] (first + 1) := by
  refine ⟨?_, ?_, ?_⟩
  · intro same member _
    rw [List.mem_singleton.mp member, holds, answers]
  · simp [given, applied, mine, holds, integer]
  · simp [applied, mine, holds]

end Counted

/-- A provider without a number counts as keeping zero, so it makes no difference to it when a zero
is added. -/
theorem getD_append_zero (numbers : List Nat) (n : Nat) :
    (numbers ++ [0]).getD n 0 = numbers.getD n 0 := by
  rcases Nat.lt_or_ge n numbers.length with within | beyond
  · exact List.getD_append _ _ _ _ within
  · rw [List.getD_append_right _ _ _ _ beyond, List.getD_eq_default _ _ beyond]
    cases n - numbers.length <;> rfl

section Numbers

variable {r next : Registry} {counter : Registration}

/-- Only the provider itself changes the number that it keeps. -/
theorem Happens.number {act : Act} (happens : Happens r act next)
    (spares : act.Spares fun type serial => (type, serial) = counter.key) :
    next.number counter = r.number counter := by
  cases happens with
  | registered id provider =>
    simp only [Registry.number, Registry.register]
    split
    · exact getD_append_zero _ _
    · rfl
  | unregistered type id =>
    unfold Registry.unregister
    split <;> rfl
  | kept type serial change =>
    simp only [Registry.number, Registry.keep]
    split
    · next same =>
      have differs : serial ≠ counter.serial := fun place =>
        spares (Prod.ext same.symm place)
      rw [List.getD_eq_getElem?_getD, List.getElem?_set_ne differs, same,
        List.getD_eq_getElem?_getD]
    · rfl
  | cleared => rfl
  | called _ => rfl
  | asked _ _ => rfl
  | began _ _ => rfl
  | resolved _ _ => rfl
  | unsupported _ _ _ => rfl

/-- Whoever acts and is not the provider leaves its number alone. -/
theorem Party.Makes.spares {party : Party} {act : Act} (makes : party.Makes act)
    (other : party.key? ≠ some counter.key) :
    act.Spares fun type serial => (type, serial) = counter.key := by
  cases act with
  | kept type serial content =>
    cases party with
    | client => exact makes.elim
    | lookup _ => exact makes.elim
    | provider own place =>
      obtain ⟨rfl, rfl⟩ := makes
      exact fun same => other (congrArg some same)
  | _ => exact trivial

/-- The number that a provider keeps is the one it was last told. -/
theorem Registry.number_keep (enrolled : r.Enrols counter) (change : Nat → Nat) :
    (r.keep counter.provider.takes counter.serial change).after.number counter =
      change (r.number counter) := by
  simp only [number, keep]
  rw [if_pos trivial, List.getD_eq_getElem?_getD, List.getElem?_set_self enrolled]
  rfl

theorem Rule.run_counter {name : String} {condition : Condition} {type : ValueType}
    {value : type.Carrier} {lookup : Lookup} {keeper : ValueType} {serial : Nat}
    {own : Outcome (Option Int32)}
    (ran : (((Rule.mk name condition .counter).provider type).run value).run lookup keeper serial
      r = some own) :
    (condition.holds type value = true ∧
      own = ⟨some (Int32.ofNat ((r.memories keeper).getD serial 0 + 1)),
        (r.keep keeper serial (· + 1)).after, (r.keep keeper serial (· + 1)).journal⟩) ∨
      condition.holds type value = false ∧ own = ⟨none, r, []⟩ := by
  have run : ((Rule.mk name condition .counter).provider type).run value =
      if condition.holds type value then Effect.counter.script type value else .answer none := rfl
  rw [run] at ran
  split at ran
  · next applies =>
    cases ran
    exact .inl ⟨applies, rfl⟩
  · next fails =>
    cases ran
    exact .inr ⟨eq_false_of_ne_true fails, rfl⟩

/-- Called once, the provider answers with its next number if its condition holds, and it calls
nobody. -/
theorem Call.counted {condition : Condition} {call : Call}
    (counts : call.registration.Counts condition)
    (enrolled : call.before.Enrols call.registration) :
    called call.own.journal.acts = [] ∧
      Counted call.registration condition (call.before.number call.registration) [call]
        (call.own.after.number call.registration) := by
  have mine : call.isOf call.registration := decide_eq_true rfl
  obtain ⟨name, type, same⟩ := counts
  obtain ⟨⟨⟨provider, serial⟩, before, own⟩, value, bound, ran⟩ := call
  dsimp only at same ran enrolled mine ⊢
  subst same
  rcases Rule.run_counter ran with ⟨applies, rfl⟩ | ⟨fails, rfl⟩
  · refine ⟨rfl, ?_⟩
    have reached := Registry.number_keep enrolled (· + 1)
    dsimp only at reached ⊢
    rw [reached]
    exact .answered mine applies rfl rfl
  · exact ⟨rfl, .declined mine fails rfl _⟩

end Numbers

/-- Whatever else happens in between, the numbers that a provider gives follow one another. -/
theorem Course.counted {party : Party} {r final : Registry} {acts : List Act} {calls : List Call}
    (course : Course party r acts calls final) {counter : Registration} {condition : Condition}
    (counts : counter.Counts condition) (other : party.key? ≠ some counter.key)
    (known : ∀ call ∈ calls, call.isOf counter →
      call.registration = counter ∧ call.before.Enrols call.registration) :
    Counted counter condition (r.number counter) calls (final.number counter) := by
  induction course with
  | nil => exact .nil _
  | request _ makes happens _ ih =>
    rw [← happens.number (makes.spares other)]
    exact ih other known
  | lookup _ _ _ _ _ ihNested ih =>
    obtain ⟨inside, later⟩ := List.forall_mem_append.mp known
    exact (ihNested (by simp [Party.key?]) inside).append (ih other later)
  | @call candidates final call acts inside calls _ nested _ ihNested ih =>
    obtain ⟨here, later⟩ := List.forall_mem_append.mp known
    obtain ⟨own, within⟩ := List.forall_mem_cons.mp here
    refine Counted.append ?_ (ih (by simp [Party.key?]) later)
    by_cases mine : call.isOf counter
    · -- The provider itself, which calls nobody.
      obtain ⟨rfl, enrolled⟩ := own mine
      obtain ⟨nobody, counted⟩ := Call.counted counts enrolled
      rw [nested.called_eq, List.map_eq_nil_iff] at nobody
      rw [nobody]
      exact counted
    · rw [Bool.not_eq_true] at mine
      have differs : some call.registration.key ≠ some counter.key := fun same =>
        of_decide_eq_false mine (Option.some.inj same)
      exact (Counted.other mine _).append (ihNested differs within)

/-- The provider answers just those of its calls that meet the condition, and what it gives is one,
two, three and so on. -/
structure CountsUp (counter : Registration) (condition : Condition) (calls : List Call) : Prop where
  same : ∀ call ∈ calls, call.isOf counter → call.registration = counter
  answers : ∀ call ∈ calls, call.isOf counter → call.own.value.isSome = call.meets condition
  numbers : given counter calls =
    (List.range' 1 (applied counter condition calls)).map Int32.ofNat
  exact : (applied counter condition calls : Int) ≤ Int32.maxValue.toInt →
    (given counter calls).map Int32.toInt =
      (List.range' 1 (applied counter condition calls)).map Int.ofNat

/-- In all that happens from the empty registry on, a provider that was filed counts up. -/
theorem Course.countsUp {party : Party} {final : Registry} {acts : List Act} {calls : List Call}
    (course : Course party ∅ acts calls final) (nobody : party.candidates = [])
    {counter : Registration} {condition : Condition} (counts : counter.Counts condition)
    (member : counter ∈ filed acts) (other : party.key? ≠ some counter.key) :
    CountsUp counter condition calls := by
  have known := course.knows (List.Subset.refl _) (fun _ _ => List.forall_mem_nil _)
    (nobody ▸ List.forall_mem_nil _)
  have distinct := course.passes.filed_fresh.2
  have same : ∀ call ∈ calls, call.isOf counter → call.registration = counter :=
    fun call made mine => List.inj_on_of_nodup_map distinct (known call made).1 member
      (of_decide_eq_true mine)
  have counted := course.counted counts other fun call made mine =>
    ⟨same call made mine, (known call made).2⟩
  have zero : Registry.number ∅ counter = 0 := List.getD_nil
  rw [zero] at counted
  refine ⟨same, counted.answers, counted.numbers, fun fits => ?_⟩
  rw [counted.numbers, List.map_map]
  refine List.map_congr_left fun n member => Int32.toInt_ofNat_of_lt ?_
  have bounds := List.mem_range'_1.mp member
  have greatest : Int32.maxValue.toInt = 2147483647 := rfl
  omega

namespace Session

/-- This step of a run files a provider, and that is all it does. -/
def FiledAt (outcomes : List (Outcome Reply)) (n : Nat) (id : String)
    (registration : Registration) : Prop :=
  ∃ outcome, outcomes[n]? = some outcome ∧ outcome.journal = [⟨0, .registered id registration⟩]

theorem run_register {bound : Nat} {steps : List Step} {r : Registry}
    {outcomes : List (Outcome Reply)} (done : run bound r steps = some outcomes) {n : Nat}
    {id : String} {provider : Provider} (here : steps[n]? = some (.register id provider)) :
    ∃ serial, FiledAt outcomes n id ⟨provider, serial⟩ := by
  obtain ⟨before, outcome, found, stepped, _⟩ := run_told done here
  cases answers_of_step stepped with
  | request served =>
    cases served with
    | @register _ _ registration _ enrols _ _ =>
      obtain ⟨_, serial⟩ := registration
      cases enrols
      exact ⟨serial, _, found, rfl⟩

theorem filed_flatMap (outcomes : List (Outcome Reply)) :
    filed (Journal.acts (outcomes.flatMap Outcome.journal)) =
      outcomes.flatMap fun outcome => filed outcome.journal.acts := by
  rw [Journal.acts, List.map_flatMap, filed, List.filterMap_flatMap]
  rfl

variable {outcomes : List (Outcome Reply)} {m n : Nat} {first second : String}
  {registration other : Registration}

theorem FiledAt.mem_filed (here : FiledAt outcomes n first registration) :
    registration ∈ filed (Journal.acts (outcomes.flatMap Outcome.journal)) := by
  obtain ⟨outcome, found, journal⟩ := here
  rw [filed_flatMap]
  refine List.mem_flatMap.mpr ⟨outcome, List.mem_of_getElem? found, ?_⟩
  rw [journal]
  exact List.mem_cons_self

theorem filed_keys {outcome : Outcome Reply} {id : String}
    (journal : outcome.journal = [⟨0, .registered id registration⟩]) :
    (filed outcome.journal.acts).map Registration.key = [registration.key] := by
  rw [journal]
  rfl

theorem FiledAt.key_ne
    (distinct : ((filed (Journal.acts (outcomes.flatMap Outcome.journal))).map
      Registration.key).Nodup)
    (here : FiledAt outcomes m first registration) (there : FiledAt outcomes n second other)
    (apart : m < n) : registration.key ≠ other.key := by
  obtain ⟨outcome, found, journal⟩ := here
  obtain ⟨later, foundLater, journalLater⟩ := there
  obtain ⟨inside, rfl⟩ := List.getElem?_eq_some_iff.mp found
  obtain ⟨insideLater, rfl⟩ := List.getElem?_eq_some_iff.mp foundLater
  rw [filed_flatMap, List.map_flatMap, List.nodup_flatMap] at distinct
  have disjoint : List.Disjoint ((filed outcomes[m].journal.acts).map Registration.key)
      ((filed outcomes[n].journal.acts).map Registration.key) :=
    List.pairwise_iff_getElem.mp distinct.2 m n inside insideLater apart
  rw [filed_keys journal, filed_keys journalLater, List.disjoint_singleton,
    List.mem_singleton] at disjoint
  exact Ne.symm disjoint

end Session

/-- A rule that counts and that a step of a run has filed gives one, two, three and so on, over the
whole run and in the order of its calls. They are all its calls, in lookups inside lookups too and
after its removal, and only those count in which its condition holds. What other steps file, be it
by the same rule and under the same id, is another provider, which counts for itself. -/
theorem counters_count_up {bound : Nat} {steps : List Session.Step}
    {outcomes : List (Outcome Session.Reply)} (done : Session.run bound ∅ steps = some outcomes) :
    (Session.calls bound ∅ steps).map (·.registration) =
      Journal.called (outcomes.flatMap Outcome.journal) ∧
    (∀ n id provider, steps[n]? = some (.register id provider) →
      ∃ serial, Session.FiledAt outcomes n id ⟨provider, serial⟩) ∧
    (∀ m n first second registration other, Session.FiledAt outcomes m first registration →
      Session.FiledAt outcomes n second other → m ≠ n → registration.key ≠ other.key) ∧
    ∀ n id counter condition, Session.FiledAt outcomes n id counter → counter.Counts condition →
      CountsUp counter condition (Session.calls bound ∅ steps) := by
  obtain ⟨final, course⟩ := Session.run_course done
  refine ⟨?_, fun n id provider here => Session.run_register done here, ?_, ?_⟩
  · rw [← course.called_eq, called_acts]
  · intro m n first second registration other here there apart
    have distinct := course.passes.filed_fresh.2
    rcases Nat.lt_or_gt_of_ne apart with earlier | later
    · exact here.key_ne distinct there earlier
    · exact (there.key_ne distinct here later).symm
  · intro n id counter condition here counts
    exact course.countsUp rfl counts here.mem_filed (by simp [Party.key?])

def tick : Rule := ⟨"tick", .below 9, .counter⟩

/-- Two rules of one kind under one id, a lookup in which neither applies, one inside a lookup, and
one in which a provider is called after all have been removed. -/
def ticking : List Session.Step :=
  [.register "tick" (tick.provider .integer), .register "tick" (tick.provider .integer),
    .resolve (.integer 7) "tick", .resolve (.integer 9) "tick",
    .register "again" ((Rule.mk "again" .always (.resolveNumber "tick")).provider .integer),
    .resolve (.integer 8) "again", .register "label" usurper,
    .register "label" (tick.provider .integer), .resolve (.integer 7) "label"]

/-- The first of the two rules applies twice, once inside a lookup, and the second one never. The
rule under the other id applies after all providers have been removed. -/
theorem counters_count_up_ticking :
    ∃ outcomes first second third, Session.run 2 ∅ ticking = some outcomes ∧
      Session.FiledAt outcomes 0 "tick" ⟨tick.provider .integer, first⟩ ∧
      Session.FiledAt outcomes 1 "tick" ⟨tick.provider .integer, second⟩ ∧
      Session.FiledAt outcomes 7 "label" ⟨tick.provider .integer, third⟩ ∧
      first ≠ second ∧
      (∀ serial ∈ [first, second, third],
        CountsUp ⟨tick.provider .integer, serial⟩ (.below 9) (Session.calls 2 ∅ ticking)) ∧
      given ⟨tick.provider .integer, 0⟩ (Session.calls 2 ∅ ticking) = [1, 2] ∧
      given ⟨tick.provider .integer, 1⟩ (Session.calls 2 ∅ ticking) = [] ∧
      given ⟨tick.provider .integer, 4⟩ (Session.calls 2 ∅ ticking) = [1] := by
  have ends : (Session.run 2 ∅ ticking).isSome := by decide +kernel
  obtain ⟨outcomes, ran⟩ := Option.isSome_iff_exists.mp ends
  obtain ⟨_, files, differ, counts⟩ := counters_count_up ran
  obtain ⟨first, here⟩ := files 0 "tick" (tick.provider .integer) rfl
  obtain ⟨second, next⟩ := files 1 "tick" (tick.provider .integer) rfl
  obtain ⟨third, last⟩ := files 7 "label" (tick.provider .integer) rfl
  have follows (serial : Nat) :
      Registration.Counts (.below 9) ⟨tick.provider .integer, serial⟩ := ⟨"tick", .integer, rfl⟩
  have apart : first ≠ second := fun same =>
    differ 0 1 _ _ _ _ here next (by decide) (by rw [same])
  refine ⟨outcomes, first, second, third, ran, here, next, last, apart, ?_, by decide +kernel,
    by decide +kernel, by decide +kernel⟩
  refine List.forall_mem_cons.mpr ⟨counts 0 _ _ _ here (follows first), ?_⟩
  refine List.forall_mem_cons.mpr ⟨counts 1 _ _ _ next (follows second), ?_⟩
  exact List.forall_mem_singleton.mpr (counts 7 _ _ _ last (follows third))

end Diagnostics.Capability
