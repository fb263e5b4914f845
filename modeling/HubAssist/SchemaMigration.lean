import Mathlib.Data.List.Range
import Mathlib.Data.List.Pairwise
import Mathlib.Tactic.Common

/-! The migration runner that the contracts share. A storage is the schema version beside the rest,
which is arbitrary, and so is what a step does to it. -/
namespace HubAssist.SchemaMigration

variable {S : Type*}

/-- The contract's instance storage; the version is stored under a key of its own. -/
structure Storage (S : Type*) where
  schemaVersion : Option ℕ
  rest : S
  deriving DecidableEq

/-- A step; where `migrate` panics it gives the storage at that point. -/
structure MigrationStep (S : Type*) where
  fromVersion : ℕ
  toVersion : ℕ
  migrate : Storage S → Except (Storage S) (Storage S)

/-- What the runner asks of the steps: each leads to the next version, and they come in ascending
order. -/
structure WellFormed (steps : List (MigrationStep S)) : Prop where
  consecutive : ∀ step ∈ steps, step.toVersion = step.fromVersion+1
  ascending : steps.Pairwise fun a b => a.fromVersion ≤ b.fromVersion

/-- The first step of the list for a version. -/
def firstStep (steps : List (MigrationStep S)) (version : ℕ) : Option (MigrationStep S) :=
  steps.find? fun step => step.fromVersion = version

/-- The completed steps are the first ones for the versions from `v` up to `w`, in this order. -/
def Chain (steps : List (MigrationStep S)) (v w : ℕ) (completed : List (MigrationStep S)) : Prop :=
  completed.map some = (List.range' v (w-v)).map (firstStep steps)

variable {steps : List (MigrationStep S)} {step : MigrationStep S} {s s' interrupted : Storage S}
variable {v w current : ℕ}

theorem WellFormed.tail (h : WellFormed (step :: steps)) : WellFormed steps :=
  ⟨fun a ha => h.consecutive a (List.mem_cons_of_mem step ha),
    (List.pairwise_cons.mp h.ascending).2⟩

end HubAssist.SchemaMigration
