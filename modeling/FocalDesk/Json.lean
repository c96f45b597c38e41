import FocalDesk.Library.Result

/-! JSON values and the walk over the named members of a value. -/
namespace FocalDesk
open Library

inductive Number where
  | posInt (value : ℕ)
  | negInt (value : Int)
  | float (bits : UInt64)
deriving DecidableEq, Repr

inductive Value where
  | null
  | bool (value : Bool)
  | number (value : Number)
  | string (value : String)
  | array (items : List Value)
  | object (members : List (String × Value))
deriving Repr

namespace Value

def asStr : Value → Option String
  | .string value => some value
  | _ => none

def asObject : Value → Option (List (String × Value))
  | .object members => some members
  | _ => none

def asU64 : Value → Option ℕ
  | .number (.posInt value) => some value
  | _ => none

def get (value : Value) (key : String) : Option Value := do
  let members ← value.asObject
  (members.find? fun member => member.1 == key).map Prod.snd

end Value

mutual

/-- Visits every member of every object inside a value, outermost first. -/
def walkArguments (visitor : String → Value → Except String Unit) : Value → Except String Unit
  | .object members => walkMembers visitor members
  | .array items => walkItems visitor items
  | _ => .ok ()

def walkMembers (visitor : String → Value → Except String Unit) :
    List (String × Value) → Except String Unit
  | [] => .ok ()
  | (key, value) :: members => do
    visitor key value
    walkArguments visitor value
    walkMembers visitor members

def walkItems (visitor : String → Value → Except String Unit) : List Value → Except String Unit
  | [] => .ok ()
  | value :: items => do
    walkArguments visitor value
    walkItems visitor items

end

mutual

/-- The members a walk visits, in its order. -/
def visited : Value → List (String × Value)
  | .object members => visitedMembers members
  | .array items => visitedItems items
  | _ => []

def visitedMembers : List (String × Value) → List (String × Value)
  | [] => []
  | (key, value) :: members => (key, value) :: (visited value ++ visitedMembers members)

def visitedItems : List Value → List (String × Value)
  | [] => []
  | value :: items => visited value ++ visitedItems items

end

section Walk
variable {visitor : String → Value → Except String Unit}

mutual

/-- A walk succeeds exactly when the visitor accepts every member it visits. -/
theorem walkArguments_eq_ok : (v : Value) → (walkArguments visitor v = .ok () ↔
    ∀ mem ∈ visited v, visitor mem.1 mem.2 = .ok ())
  | .object mems => by simpa [walkArguments, visited] using walkMembers_eq_ok mems
  | .array its => by simpa [walkArguments, visited] using walkItems_eq_ok its
  | .null | .bool _ | .number _ | .string _ => by simp [walkArguments, visited]

theorem walkMembers_eq_ok : (mems : List (String × Value)) →
    (walkMembers visitor mems = .ok () ↔ ∀ mem ∈ visitedMembers mems, visitor mem.1 mem.2 = .ok ())
  | [] => by simp [walkMembers, visitedMembers]
  | (key, v) :: mems => by
    simp only [walkMembers, visitedMembers, unit_bind_eq_ok, walkArguments_eq_ok v,
      walkMembers_eq_ok mems, List.mem_cons, List.mem_append, or_imp, forall_and, forall_eq]

theorem walkItems_eq_ok : (its : List Value) → (walkItems visitor its = .ok () ↔
    ∀ mem ∈ visitedItems its, visitor mem.1 mem.2 = .ok ())
  | [] => by simp [walkItems, visitedItems]
  | value :: its => by
    simp only [walkItems, visitedItems, unit_bind_eq_ok, walkArguments_eq_ok value,
      walkItems_eq_ok its, List.mem_append, or_imp, forall_and]

end

end Walk

end FocalDesk
