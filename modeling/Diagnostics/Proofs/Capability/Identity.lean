import Mathlib.Data.List.Nodup
import Diagnostics.Proofs.Capability.Course
import Diagnostics.Proofs.Capability.Provenance
import Diagnostics.Proofs.Capability.TypeTags

/-!
# Which provider is called

A provider that is filed gets a serial number that no provider for the same values has had before,
and a number of its own to keep. It keeps both after its removal. So type and serial number tell
which provider a call is for, even if it is called from what a lookup took down earlier.
-/
namespace Diagnostics.Capability

/-- What tells a provider from all others that are ever filed. -/
def Registration.key (registration : Registration) : ValueType × Nat :=
  (registration.provider.takes, registration.serial)

/-- The registry has a number for the provider to keep. -/
def Registry.Enrols (r : Registry) (registration : Registration) : Prop :=
  registration.serial < (r.memories registration.provider.takes).length

def Act.filed? : Act → Option Registration
  | .registered _ registration => some registration
  | _ => none

def Act.called? : Act → Option Registration
  | .called registration => some registration
  | _ => none

/-- The providers that are filed by these acts. -/
def filed (acts : List Act) : List Registration := acts.filterMap Act.filed?

/-- The providers that a party may call. -/
def Party.candidates : Party → List Registration
  | .lookup candidates => candidates
  | _ => []

/-- All of them are from the pool, and the registry has numbers for them. -/
def Registry.Knows (pool : List Registration) (r : Registry) (registrations : List Registration) :
    Prop :=
  ∀ registration ∈ registrations, registration ∈ pool ∧ r.Enrols registration

/-- The registry knows all that it holds. -/
def Registry.Stocked (pool : List Registration) (r : Registry) : Prop :=
  ∀ type id, r.Knows pool (r.held type id)

theorem filed_append (past future : List Act) :
    filed (past ++ future) = filed past ++ filed future :=
  List.filterMap_append

theorem filed_cons (act : Act) (acts : List Act) :
    filed (act :: acts) = act.filed?.toList ++ filed acts := by
  cases files : act.filed? with
  | none => exact List.filterMap_cons_none files
  | some registration => exact List.filterMap_cons_some files

section Serials

variable {r next final : Registry} {act : Act} {acts : List Act} {registration : Registration}
  {pool : List Registration}

/-- No number is ever dropped. -/
theorem Happens.length_memories (happens : Happens r act next) (type : ValueType) :
    (r.memories type).length ≤ (next.memories type).length := by
  cases happens with
  | registered id provider =>
    simp only [Registry.register]
    split <;> simp
  | unregistered other id =>
    unfold Registry.unregister
    split <;> exact Nat.le_refl _
  | kept keeper serial change =>
    simp only [Registry.keep]
    split <;> simp [*]
  | cleared => exact Nat.le_refl _
  | called _ => exact Nat.le_refl _
  | asked _ _ => exact Nat.le_refl _
  | began _ _ => exact Nat.le_refl _
  | resolved _ _ => exact Nat.le_refl _
  | unsupported _ _ _ => exact Nat.le_refl _

theorem Happens.enrols (happens : Happens r act next) (enrolled : r.Enrols registration) :
    next.Enrols registration :=
  Nat.lt_of_lt_of_le enrolled (happens.length_memories _)

/-- The serial number is the first that is still free. -/
theorem Happens.filed_fresh (happens : Happens r act next)
    (files : act.filed? = some registration) :
    ¬ r.Enrols registration ∧ next.Enrols registration := by
  cases happens with
  | registered id provider =>
    cases files
    refine ⟨Nat.lt_irrefl _, ?_⟩
    simp [Registry.Enrols, Registry.enrol, Registry.register]
  | _ => cases files

theorem Registry.enrols_of_key {other : Registration} (same : other.key = registration.key)
    (enrolled : r.Enrols registration) : r.Enrols other := by
  obtain ⟨takes, serial⟩ := Prod.mk.inj same
  unfold Enrols
  rw [takes, serial]
  exact enrolled

theorem Passes.enrols (passes : Passes r acts final) (enrolled : r.Enrols registration) :
    final.Enrols registration :=
  passes.preserves (fun happens => happens.enrols) enrolled

theorem Registry.Knows.later {registrations : List Registration}
    (knows : r.Knows pool registrations) (passes : Passes r acts final) :
    final.Knows pool registrations :=
  fun registration listed => (knows registration listed).imp_right passes.enrols

theorem Happens.stocked (happens : Happens r act next)
    (part : act.filed?.toList ⊆ pool) (stocked : r.Stocked pool) : next.Stocked pool := by
  intro type id registration held
  rcases happens.mem_held held with old | rfl
  · exact (stocked type id registration old).imp_right happens.enrols
  · exact ⟨part List.mem_cons_self, (happens.filed_fresh rfl).2⟩

/-- No serial number is given twice. -/
theorem Passes.filed_fresh (passes : Passes r acts final) :
    (∀ registration ∈ filed acts, ¬ r.Enrols registration) ∧
      ((filed acts).map Registration.key).Nodup := by
  induction acts generalizing r with
  | nil => exact ⟨List.forall_mem_nil _, .nil⟩
  | cons act acts ih =>
    obtain ⟨next, happens, rest⟩ := passes.uncons
    obtain ⟨later, distinct⟩ := ih rest
    have fresh : ∀ registration ∈ filed acts, ¬ r.Enrols registration :=
      fun registration member enrolled => later registration member (happens.enrols enrolled)
    cases files : act.filed? with
    | none =>
      rw [filed_cons, files]
      exact ⟨fresh, distinct⟩
    | some registration =>
      obtain ⟨new, enrolled⟩ := happens.filed_fresh files
      rw [filed_cons, files]
      refine ⟨List.forall_mem_cons.mpr ⟨new, fresh⟩, List.nodup_cons.mpr ⟨?_, distinct⟩⟩
      intro again
      obtain ⟨other, member, same⟩ := List.mem_map.mp again
      exact later other member (Registry.enrols_of_key same enrolled)

theorem Passes.stocked (passes : Passes r acts final) (part : filed acts ⊆ pool)
    (stocked : r.Stocked pool) : final.Stocked pool := by
  induction acts generalizing r with
  | nil =>
    cases passes
    exact stocked
  | cons act acts ih =>
    obtain ⟨next, happens, rest⟩ := passes.uncons
    rw [filed_cons, List.append_subset] at part
    exact ih rest part.2 (happens.stocked part.1 stocked)

end Serials

section Calls

variable {party : Party} {r final : Registry} {acts : List Act} {calls : List Call}

/-- The providers that are called by these acts, in the order of the calls. -/
def called (acts : List Act) : List Registration := acts.filterMap Act.called?

theorem called_acts (journal : Journal) : called journal.acts = journal.called := by
  rw [Journal.acts, called, List.filterMap_map]
  rfl

theorem called_append (past future : List Act) :
    called (past ++ future) = called past ++ called future :=
  List.filterMap_append

theorem Act.called?_of_isRequest {act : Act} (request : act.isRequest) : act.called? = none := by
  cases act <;> first | rfl | cases request

section Lookup

variable (type : ValueType) (id : String) (candidates : List Registration) (turns : List Act)
  (found : Resolution)

/-- Where a lookup begins and ends nothing is filed. -/
theorem filed_lookup :
    filed (.began type id candidates :: turns ++ [closing type id candidates.length found]) =
      filed turns := by
  rw [filed_append]
  cases found <;> exact List.append_nil _

/-- Where a lookup begins and ends nobody is called. -/
theorem called_lookup :
    called (.began type id candidates :: turns ++ [closing type id candidates.length found]) =
      called turns := by
  rw [called_append]
  cases found <;> exact List.append_nil _

end Lookup

/-- The calls of a course are those that its acts tell of. -/
theorem Course.called_eq (course : Course party r acts calls final) :
    called acts = calls.map fun call => call.registration := by
  induction course with
  | nil => rfl
  | request request _ _ _ ih =>
    exact (List.filterMap_cons_none (Act.called?_of_isRequest request)).trans ih
  | lookup _ _ records _ _ nested ih =>
    rw [called_append, records, called_lookup, nested, ih, List.map_append]
  | @call candidates final call acts inside calls _ _ _ nested ih =>
    change call.registration :: called (call.own.journal.acts ++ acts) = _
    rw [called_append, nested, ih, List.cons_append, List.map_cons, List.map_append]

/-- A provider that is called is one that was filed, and its number is there, even if it has been
removed since. -/
theorem Course.knows {pool : List Registration} (course : Course party r acts calls final)
    (part : filed acts ⊆ pool) (stocked : r.Stocked pool)
    (candidates : r.Knows pool party.candidates) :
    ∀ call ∈ calls, call.registration ∈ pool ∧ call.before.Enrols call.registration := by
  induction course with
  | nil => exact List.forall_mem_nil _
  | request _ _ happens _ ih =>
    rw [filed_cons, List.append_subset] at part
    exact ih part.2 (happens.stocked part.1 stocked) (candidates.later (.single happens))
  | lookup _ found records _ _ ihNested ih =>
    rw [filed_append, List.append_subset] at part
    have left := found.passes.stocked part.1 stocked
    rw [records, filed_lookup] at part
    exact List.forall_mem_append.mpr ⟨ihNested part.1 stocked (stocked _ _),
      ih part.2 left (candidates.later found.passes)⟩
  | call call listed nested _ ihNested ih =>
    rw [List.cons_append, filed_cons, List.append_subset, filed_append, List.append_subset] at part
    have inside := ihNested part.2.1 stocked (List.forall_mem_nil _)
    have left := nested.passes.stocked part.2.1 stocked
    exact List.forall_mem_append.mpr ⟨List.forall_mem_cons.mpr ⟨candidates _ listed, inside⟩,
      ih part.2.2 left (candidates.later nested.passes)⟩

end Calls

end Diagnostics.Capability
