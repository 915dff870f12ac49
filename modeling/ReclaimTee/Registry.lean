/-
Write-once registries. A key gets its value when it is first used and keeps it,
so two parties that name the same key mean the same value.
-/

namespace ReclaimTee

/-- What has been recorded under each key. -/
abbrev Registry (Key Value : Type) := Key → Option Value

namespace Registry

variable {Key Value : Type} [DecidableEq Key]

def empty : Registry Key Value := fun _ => none

def record (registry : Registry Key Value) (key : Key) (value : Value) :
    Registry Key Value := fun asked =>
  if asked = key then some value else registry asked

@[simp] theorem record_self (registry : Registry Key Value) (key : Key) (value : Value) :
    registry.record key value key = some value :=
  if_pos rfl

theorem record_other (registry : Registry Key Value) {key asked : Key} (value : Value)
    (other : asked ≠ key) : registry.record key value asked = registry asked :=
  if_neg other

theorem record_keeps {registry : Registry Key Value} {key asked : Key} {value known : Value}
    (fresh : registry key = none) (recorded : registry asked = some known) :
    registry.record key value asked = some known := by
  have other : asked ≠ key := by
    intro same
    rw [same, fresh] at recorded
    cases recorded
  rw [record_other registry value other, recorded]

end Registry

end ReclaimTee
