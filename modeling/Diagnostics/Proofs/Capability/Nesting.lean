import Diagnostics.Capability.Rule
import Diagnostics.Proofs.Capability.Bound

/-!
# Lookups that come to an end

Rules look up further capabilities, and they do so in a table that rules add to while they run. If
ids have ranks and no rule looks up an id whose rank is not below that of its own, then the rank of
an id bounds how deep lookups nest in a lookup for it. What rules register keeps to the ranks as
well, so the bound holds in every registry that they can lead to.
-/
namespace Diagnostics.Capability

/-- Placed under this id, the effect looks up ids of lower rank only; so does the effect of a rule
that it registers, where that one is placed. -/
def Effect.Ranked (rank : String → Nat) (place : String) : Effect → Prop
  | .resolveNumber id => rank id < rank place
  | .resolveText id => rank id < rank place
  | .register id _ _ effect => effect.Ranked rank id
  | _ => True

/-- The provider follows a rule for the type that keeps to the ranks. -/
def Provider.Ranked (rank : String → Nat) (type : ValueType) (place : String)
    (provider : Provider) : Prop :=
  ∃ rule : Rule, provider = rule.provider type ∧ rule.effect.Ranked rank place

/-- All providers that are held keep to the ranks. -/
def Registry.Ranked (rank : String → Nat) : Registry → Prop :=
  Registry.Holds (Provider.Ranked rank)

def Session.Step.Ranked (rank : String → Nat) : Session.Step → Prop
  | .register id provider => provider.Ranked rank provider.takes id
  | _ => True

/-- The registries to which steps lead that register only rules that keep to the ranks. -/
inductive Registry.Attained (rank : String → Nat) : Registry → Prop where
  | empty : Attained rank ∅
  | step {r : Registry} {bound : Nat} {action : Session.Step} {outcome : Outcome Session.Reply}
      (before : Attained rank r) (ranked : action.Ranked rank)
      (done : Session.step bound r action = some outcome) : Attained rank outcome.after

/-- The registry afterwards keeps to the ranks, and nothing was recorded as deep as this. -/
structure Outcome.Settles {α : Type} (rank : String → Nat) (depth : Nat) (outcome : Outcome α) :
    Prop where
  after : outcome.after.Ranked rank
  shallow : ∀ entry ∈ outcome.journal, entry.depth < depth

/-- A way to look up that comes to an end for all ids of a rank below the bound. -/
def Lookup.Settles (rank : String → Nat) (bound : Nat) (lookup : Lookup) : Prop :=
  ∀ ⦃type⦄ (value : type.Carrier) ⦃id r⦄, Registry.Ranked rank r → rank id < bound →
    ∃ outcome, lookup type value id r = some outcome ∧ outcome.Settles rank bound

section Settles

variable {rank : String → Nat} {bound depth : Nat}

theorem Outcome.Settles.behind {α : Type} {earlier : Journal} {outcome : Outcome α}
    (shallow : ∀ entry ∈ earlier, entry.depth < depth) (settles : outcome.Settles rank depth) :
    (outcome.behind earlier).Settles rank depth :=
  ⟨settles.after, List.forall_mem_append.mpr ⟨shallow, settles.shallow⟩⟩

theorem Outcome.Settles.quiet {α : Type} (value : α) {r : Registry} (keeps : r.Ranked rank) :
    Outcome.Settles rank depth ⟨value, r, []⟩ :=
  ⟨keeps, List.forall_mem_nil _⟩

theorem own_shallow (act : Act) : ∀ entry ∈ [Entry.mk 0 act], entry.depth < depth + 1 :=
  List.forall_mem_singleton.mpr depth.succ_pos

theorem deepen_shallow {journal : Journal} (shallow : ∀ entry ∈ journal, entry.depth < depth) :
    ∀ entry ∈ journal.map Entry.deepen, entry.depth < depth + 1 := by
  intro entry mem
  obtain ⟨inner, recorded, rfl⟩ := List.mem_map.mp mem
  exact Nat.succ_lt_succ (shallow inner recorded)

variable {lookup : Lookup} (settles : lookup.Settles rank bound)
include settles

theorem Effect.run_settles {effect : Effect} {place : String} (ranked : effect.Ranked rank place)
    (within : rank place ≤ bound) {r : Registry} (keeps : r.Ranked rank) {type : ValueType}
    (value : type.Carrier) (keeper : ValueType) (serial : Nat) :
    ∃ outcome, (effect.script type value).run lookup keeper serial r = some outcome ∧
      outcome.Settles rank (bound + 1) := by
  cases effect with
  | resolveNumber id =>
    obtain ⟨inner, found, settled⟩ := settles value keeps (Nat.lt_of_lt_of_le ranked within)
    exact ⟨_, Option.bind_eq_some_iff.mpr ⟨inner, found, rfl⟩,
      .behind (deepen_shallow settled.shallow) (.quiet _ settled.after)⟩
  | resolveText id =>
    obtain ⟨inner, found, settled⟩ := settles value keeps (Nat.lt_of_lt_of_le ranked within)
    exact ⟨_, Option.bind_eq_some_iff.mpr ⟨inner, found, rfl⟩,
      .behind (deepen_shallow settled.shallow) (.quiet _ settled.after)⟩
  | register id name condition effect =>
    have new : Provider.Ranked rank type id ((Rule.mk name condition effect).provider type) :=
      ⟨_, rfl, ranked⟩
    exact ⟨_, rfl, .behind (own_shallow _) (.quiet _ (keeps.register new))⟩
  | unregister id =>
    refine ⟨_, rfl, .behind ?_ (.quiet _ (keeps.unregister type id))⟩
    rw [r.unregister_journal]
    exact own_shallow _
  | clear => exact ⟨_, rfl, .behind (own_shallow _) (.quiet _ .clear)⟩
  | counter => exact ⟨_, rfl, .behind (own_shallow _) (.quiet _ (keeps.keep keeper serial _))⟩
  | has id => exact ⟨_, rfl, .behind (own_shallow _) (.quiet _ keeps)⟩
  | number => exact ⟨_, rfl, .quiet _ keeps⟩
  | text => exact ⟨_, rfl, .quiet _ keeps⟩
  | self => exact ⟨_, rfl, .quiet _ keeps⟩
  | const words => exact ⟨_, rfl, .quiet _ keeps⟩
  | unit => exact ⟨_, rfl, .quiet _ keeps⟩

theorem Registration.ask_settles {type : ValueType} {place : String} {registration : Registration}
    (ranked : registration.provider.Ranked rank type place) (within : rank place ≤ bound)
    {r : Registry} (keeps : r.Ranked rank) (value : type.Carrier) :
    ∃ outcome, registration.ask lookup type value r = some outcome ∧
      outcome.Settles rank (bound + 1) := by
  obtain ⟨provider, serial⟩ := registration
  obtain ⟨rule, rfl, ranked⟩ := ranked
  have own : ∃ own, ((rule.provider type).run value).run lookup type serial r = some own ∧
      own.Settles rank (bound + 1) := by
    dsimp only [Rule.provider]
    split
    · exact Effect.run_settles settles ranked within keeps value type serial
    · exact ⟨_, rfl, .quiet _ keeps⟩
  obtain ⟨own, ran, settled⟩ := own
  have takes : type = (Registration.mk (rule.provider type) serial).provider.takes := rfl
  refine ⟨_, (Registration.ask_eq_some takes).mpr ⟨own, ran, rfl⟩, ?_⟩
  exact ⟨settled.after, List.forall_mem_cons.mpr ⟨bound.succ_pos, settled.shallow⟩⟩

theorem askInTurn_settles {type : ValueType} {place : String} (within : rank place ≤ bound)
    (value : type.Carrier) (candidates : List Registration)
    (ranked : ∀ candidate ∈ candidates, candidate.provider.Ranked rank type place)
    {r : Registry} (keeps : r.Ranked rank) :
    ∃ outcome, askInTurn lookup type value candidates r = some outcome ∧
      outcome.Settles rank (bound + 1) := by
  induction candidates generalizing r with
  | nil => exact ⟨_, rfl, .quiet _ keeps⟩
  | cons candidate others ih =>
    -- The candidates are fixed beforehand; only the registry changes from one to the next.
    obtain ⟨here, later⟩ := List.forall_mem_cons.mp ranked
    obtain ⟨first, asked, settled⟩ := Registration.ask_settles settles here within keeps value
    cases answered : first.value with
    | some view =>
      have stops : first.value.isSome := by rw [answered]; rfl
      exact ⟨first, askInTurn_cons_eq_some.mpr ⟨first, asked, .inl ⟨stops, rfl⟩⟩, settled⟩
    | none =>
      obtain ⟨rest, ran, restSettled⟩ := ih later settled.after
      exact ⟨_, askInTurn_cons_eq_some.mpr ⟨first, asked, .inr ⟨answered, rest, ran, rfl⟩⟩,
        restSettled.behind settled.shallow⟩

end Settles

/-- A lookup for an id comes to an end under every bound above the rank of the id. The induction is
on the bound: whom a lookup asks is settled when it begins, and what these look up has lower rank,
whatever the registry has become by then. -/
theorem resolve_settles (rank : String → Nat) (bound : Nat) :
    (resolve bound).Settles rank bound := by
  induction bound with
  | zero =>
    intro type value id r _ below
    cases below
  | succ bound ih =>
    intro type value id r keeps below
    have within : rank id ≤ bound := Nat.le_of_lt_succ below
    obtain ⟨inTurn, ran, settled⟩ :=
      askInTurn_settles ih within value (r.held type id) (keeps type id) keeps
    refine ⟨_, resolve_succ_eq_some.mpr ⟨inTurn, ran, rfl⟩, settled.after, ?_⟩
    exact List.forall_mem_append.mpr
      ⟨List.forall_mem_cons.mpr ⟨bound.succ_pos, settled.shallow⟩, own_shallow _⟩

theorem resolve_ranked {rank : String → Nat} {bound : Nat} {type : ValueType}
    {value : type.Carrier} {id : String} {r : Registry} {outcome : Outcome Resolution}
    (done : resolve bound type value id r = some outcome) (keeps : r.Ranked rank) :
    outcome.after.Ranked rank := by
  obtain ⟨other, found, settled⟩ :=
    resolve_settles rank (rank id + 1) value keeps (Nat.lt_succ_self _)
  rw [Resolves.unique ⟨bound, done⟩ ⟨_, found⟩]
  exact settled.after

theorem Session.step_ranked {rank : String → Nat} {bound : Nat} {r : Registry}
    {action : Session.Step} {outcome : Outcome Session.Reply}
    (done : Session.step bound r action = some outcome) (ranked : action.Ranked rank)
    (keeps : r.Ranked rank) : outcome.after.Ranked rank := by
  cases action with
  | register id provider =>
    cases done
    exact keeps.register ranked
  | has type id =>
    cases done
    exact keeps
  | unregister type id =>
    cases done
    exact keeps.unregister type id
  | resolve subject id =>
    rcases Session.step_resolve_eq_some.mp done with ⟨view, _, found, ran, rfl⟩ | ⟨fault, _, rfl⟩
    · exact resolve_ranked ran keeps
    · exact keeps
  | clear =>
    cases done
    exact .clear

theorem Registry.Attained.ranked {rank : String → Nat} {r : Registry} (attained : r.Attained rank) :
    r.Ranked rank := by
  induction attained with
  | empty => exact .empty
  | step _ ranked done keeps => exact Session.step_ranked done ranked keeps

/-- Steps that keep to the ranks lead from one such registry to others only. -/
theorem Registry.Attained.run {rank : String → Nat} {bound : Nat} {steps : List Session.Step}
    {r : Registry} {outcomes : List (Outcome Session.Reply)} (attained : r.Attained rank)
    (ranked : ∀ action ∈ steps, action.Ranked rank)
    (done : Session.run bound r steps = some outcomes) :
    ∀ outcome ∈ outcomes, outcome.after.Attained rank := by
  induction steps generalizing r outcomes with
  | nil =>
    cases done
    exact List.forall_mem_nil _
  | cons action rest ih =>
    obtain ⟨here, later⟩ := List.forall_mem_cons.mp ranked
    obtain ⟨first, begun, others, ran, rfl⟩ := Session.run_cons_eq_some.mp done
    have next := attained.step here begun
    exact List.forall_mem_cons.mpr ⟨next, ih next later ran⟩

/-- If rules look up ids of lower rank only, every lookup comes to an end, with lookups nested no
deeper than one more than the rank of its id, and leaves only such rules behind. -/
theorem resolve_terminates {rank : String → Nat} {r : Registry} (attained : r.Attained rank)
    (type : ValueType) (value : type.Carrier) (id : String) :
    ∃ outcome, (∀ bound > rank id, resolve bound type value id r = some outcome) ∧
      (∀ entry ∈ outcome.journal, entry.depth + 1 ≤ rank id + 1) ∧ outcome.after.Ranked rank := by
  obtain ⟨outcome, found, settled⟩ :=
    resolve_settles rank (rank id + 1) value attained.ranked (Nat.lt_succ_self _)
  exact ⟨outcome, fun bound above => resolve_mono above found, settled.shallow, settled.after⟩

/-- Ranks for a few ids. -/
def level (id : String) : Nat :=
  if id = "summary" then 2 else if id = "heading" ∨ id = "growth" then 1 else 0

/-- By these rules a lookup for a summary first places a rule under headings and then looks a
heading up. -/
def growth : List (String × Rule) :=
  [("summary", ⟨"grow", .always, .resolveNumber "growth"⟩),
   ("summary", ⟨"read", .always, .resolveNumber "heading"⟩),
   ("growth", ⟨"plant", .always, .register "heading" "late" .always (.resolveNumber "value")⟩),
   ("value", ⟨"value", .always, .number⟩)]

def growing : List Session.Step :=
  growth.map fun placed => .register placed.1 (placed.2.provider .integer)

theorem growing_ranked : ∀ action ∈ growing, action.Ranked level := by
  have ranked : ∀ placed ∈ growth, placed.2.effect.Ranked level placed.1 := by
    simp [growth, Effect.Ranked, level]
  intro action mem
  obtain ⟨placed, found, rfl⟩ := List.mem_map.mp mem
  exact ⟨placed.2, rfl, ranked placed found⟩

/-- Three lookups nest here, and one fewer would not do. -/
theorem resolve_terminates_growing :
    ∃ r : Registry, r.Attained level ∧ r.has .integer "heading" = false ∧
      resolve 2 .integer (7 : Int32) "summary" r = none ∧
      ∃ outcome, (∀ bound > 2, resolve bound .integer (7 : Int32) "summary" r = some outcome) ∧
        (∀ entry ∈ outcome.journal, entry.depth + 1 ≤ 3) ∧ outcome.after.Ranked level ∧
        outcome.journal.calls = ["grow", "plant", "read", "late", "value"] := by
  obtain ⟨r, attained, absent, short, calls⟩ : ∃ r : Registry, r.Attained level ∧
      r.has .integer "heading" = false ∧ resolve 2 .integer (7 : Int32) "summary" r = none ∧
      (resolve 3 .integer (7 : Int32) "summary" r).map (·.journal.calls) =
        some ["grow", "plant", "read", "late", "value"] := by
    obtain ⟨outcomes, ran⟩ : ∃ outcomes, Session.run 0 ∅ growing = some outcomes := ⟨_, rfl⟩
    have each := Registry.Attained.run .empty growing_ranked ran
    cases ran
    exact ⟨_, each _ (List.mem_of_getLast? rfl), rfl, rfl, rfl⟩
  obtain ⟨outcome, found, shallow, kept⟩ :=
    resolve_terminates attained .integer (7 : Int32) "summary"
  rw [found 3 (by decide)] at calls
  exact ⟨r, attained, absent, short, outcome, found, shallow, kept, Option.some.inj calls⟩

end Diagnostics.Capability
