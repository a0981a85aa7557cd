/-!
# JSON values

A value keeps its numbers as they are written and the members of its objects in order.
-/

namespace TestConversion

inductive Json where
  | null
  | bool (b : Bool)
  | number (text : String)
  | string (s : String)
  | array (items : List Json)
  | object (members : List (String × Json))
  deriving Inhabited

namespace Json

def ofNat (n : Nat) : Json := number (toString n)

def strings (ss : List String) : Json := array (ss.map string)

def ofOption : Option String → Json
  | none => null
  | some s => string s

/-- The first member of a name. -/
def member? (v : Json) (name : String) : Option Json :=
  match v with
  | object ms => (ms.find? fun m => m.1 == name).map (·.2)
  | _ => none

def string? : Json → Option String
  | string s => some s
  | _ => none

def bool? : Json → Option Bool
  | bool b => some b
  | _ => none

def items : Json → List Json
  | array vs => vs
  | _ => []

def members : Json → List (String × Json)
  | object ms => ms
  | _ => []

end Json

end TestConversion
