import CapsuleEmit.Foundation.Settlement
import CapsuleEmit.Holds.Capsules

namespace CapsuleEmit
namespace Holds

/-!
# Active exposure

The exposure of a developer is the sum of the amounts of the developer's
accepted hold records, over the whole ledger.  A scoped exposure counts one
action class: a reservation states its class, and every other record has the
class of the reservation its chain names.
-/

open Settlement

/-- The class of the last reservation record under an id, and nothing when no
such record is there. -/
def reserveActionClassById (records : List Capsule) (id : String) : Option String :=
  ((records.filter (fun c => startsWith c.actionId (holdReserve ++ "/") && c.capsuleId ≠ "")
    ).reverse.find? (fun c => c.capsuleId = id)).bind Capsule.actionClass

def recordActionClass (records : List Capsule) (c : Capsule) : Option String :=
  if startsWith c.actionId (holdReserve ++ "/") then c.actionClass
  else c.chain.bind (fun chain => reserveActionClassById records chain.parentCapsuleId)

/-- Whether a record counts for a developer, and for a class when one is given. -/
def counts (records : List Capsule) (subject : String) (actionClass : Option String)
    (c : Capsule) : Bool :=
  c.developer = subject && c.isHold &&
    (actionClass = none || recordActionClass records c = actionClass)

def activeExposureMinor (records : List Capsule) (subject : String)
    (actionClass : Option String) : Int :=
  total Capsule.amount (records.filter (counts records subject actionClass))

theorem counts_iff {records : List Capsule} {subject : String} {actionClass : Option String}
    {c : Capsule} : counts records subject actionClass c = true ↔
      c.developer = subject ∧ c.isHold = true ∧
        (actionClass = none ∨ recordActionClass records c = actionClass) := by
  simp [counts, and_assoc]

/-- Whether a record is in a scope does not change when its class does not. -/
theorem counts_congr {records others : List Capsule} {c : Capsule}
    (same : recordActionClass records c = recordActionClass others c) (subject : String)
    (actionClass : Option String) :
    counts records subject actionClass c = counts others subject actionClass c := by
  rw [counts, counts, same]

theorem recordActionClass_of_isReserve {records : List Capsule} {c : Capsule}
    (opened : c.isReserve = true) : recordActionClass records c = c.actionClass := by
  simp only [Capsule.isReserve, Bool.and_eq_true] at opened
  rw [recordActionClass, if_pos opened.2]

/-- A record under another id does not change what an id resolves to. -/
theorem reserveActionClassById_concat_of_ne {records : List Capsule} {c : Capsule} {id : String}
    (other : c.capsuleId ≠ id) :
    reserveActionClassById (records ++ [c]) id = reserveActionClassById records id := by
  rw [reserveActionClassById, reserveActionClassById, List.filter_append, List.reverse_append,
    List.find?_append]
  have skipped : ((List.filter (fun c => startsWith c.actionId (holdReserve ++ "/") &&
      c.capsuleId ≠ "") [c]).reverse.find? (fun c => c.capsuleId = id)) = none := by
    rw [List.find?_eq_none]
    intro found member
    have same : found = c := by
      simpa using List.mem_of_mem_filter (List.mem_reverse.mp member)
    simpa [same] using other
  rw [skipped, Option.none_or]

end Holds
end CapsuleEmit
