import SmlSchema.Computation
import SmlSchema.Schema.Error

/-! # Giving names that do not collide

A base name is brought into a normal form and, if that is in use, gets the least number from 2 to 99
behind it that makes it free. A name may belong to an entity, which then keeps it.
-/

namespace SmlSchema

/-- An entity with the name it was given and what was made for it. -/
structure NameBinding (ε κ : Type) where
  entity : ε
  name : String
  construct : κ
deriving DecidableEq, Repr

/-- The names in use, in the order in which they were taken, and the entities that have one. -/
structure Names (ε κ : Type) where
  normalize : String → String
  describe : ε → String
  used : List String := []
  bindings : List (NameBinding ε κ) := []

namespace Names

variable {ε κ : Type}

/-- The greatest number that is put behind a name. -/
def maxSuffix : Nat := 99

/-- A name, then the name with the numbers from 2 on. -/
def candidates (name : String) : List String :=
  name :: (List.range' 2 (maxSuffix - 1)).map fun i => name ++ toString i

def isUsed (n : Names ε κ) (name : String) : Bool := n.used.contains name

/-- The first candidate that is not in use. -/
def generate (n : Names ε κ) (base : String) : Except NameFlaw String :=
  if base = "" then .error .empty
  else
    let name := n.normalize base
    match (candidates name).find? fun c => !n.isUsed c with
    | some c => .ok c
    | none => .error (.exhausted name)

/-- The names with one more in use. -/
def take (n : Names ε κ) (name : String) : Names ε κ := { n with used := n.used ++ [name] }

/-- The names with one more entity that has one. -/
def register (n : Names ε κ) (b : NameBinding ε κ) : Names ε κ :=
  { n with bindings := n.bindings ++ [b] }

variable [DecidableEq ε]

def binding? (n : Names ε κ) (entity : ε) : Option (NameBinding ε κ) :=
  n.bindings.find? (·.entity = entity)

def contains (n : Names ε κ) (entity : ε) : Bool := (n.binding? entity).isSome

def nameOf (n : Names ε κ) (entity : ε) : Except NameFlaw String :=
  match n.binding? entity with
  | some b => .ok b.name
  | none => .error (.unnamed (n.describe entity))

def constructOf (n : Names ε κ) (entity : ε) : Except NameFlaw κ :=
  match n.binding? entity with
  | some b => .ok b.construct
  | none => .error (.unregistered (n.describe entity))

end Names

/-- A computation that takes names. Those that it has taken before it fails stay taken. -/
abbrev Naming (ε κ : Type) := Attempt (Names ε κ) NameFlaw

namespace Naming

variable {ε κ : Type}

def generate (base : String) : Naming ε κ String := do (← get).generate base

/-- Take a name that belongs to no entity. -/
def reserve (base : String) : Naming ε κ String := do
  let name ← generate base
  modify (·.take name)
  return name

/-- Give the entity a name that is free. -/
def add [DecidableEq ε] (entity : ε) (name : String) (construct : κ) : Naming ε κ Unit := do
  let n ← get
  if n.isUsed name then throw (.taken name)
  else match n.binding? entity with
    | some b => throw (.alreadyNamed (n.describe entity) b.name)
    | none =>
      modify (·.register { entity, name, construct })
      modify (·.take name)

/-- Give the entity the first free name for the base. -/
def allocate [DecidableEq ε] (entity : ε) (base : String) (construct : κ) : Naming ε κ String := do
  let name ← generate base
  add entity name construct
  return name

end Naming

namespace Names

variable {ε κ : Type}

/-- The names after one was taken that belongs to no entity. -/
def reserve (n : Names ε κ) (base : String) : Except NameFlaw (String × Names ε κ) :=
  Prod.swap <$> (Naming.reserve base).result n

/-- Take as many names in a row; those taken before a failure stay taken. -/
def reserveAll (n : Names ε κ) : List String → Names ε κ × Except NameFlaw (List String)
  | [] => (n, .ok [])
  | base :: bases =>
    match n.reserve base with
    | .error e => (n, .error e)
    | .ok (name, n) =>
      let (n, more) := n.reserveAll bases
      (n, more.map (name :: ·))

/-- The names after the entity was given one. -/
def add [DecidableEq ε] (n : Names ε κ) (entity : ε) (name : String) (construct : κ) :
    Except NameFlaw (Names ε κ) :=
  (·.1) <$> (Naming.add entity name construct).result n

end Names

/-- A call for a name. -/
inductive NameCall (ε κ : Type) where
  | generate (base : String)
  | reserve (base : String)
  | add (entity : ε) (name : String) (construct : κ)
  | allocate (entity : ε) (base : String) (construct : κ)

/-- Do what is called for and give the name. -/
def NameCall.perform [DecidableEq ε] : NameCall ε κ → Naming ε κ String
  | .generate base => Naming.generate base
  | .reserve base => Naming.reserve base
  | .add entity name construct => do
    Naming.add entity name construct
    return name
  | .allocate entity base construct => Naming.allocate entity base construct

/-- The names after the calls, whether they succeed or fail. -/
def Names.runAll [DecidableEq ε] (n : Names ε κ) (cs : List (NameCall ε κ)) : Names ε κ :=
  cs.foldl (fun n c => (c.perform.on n).2) n

end SmlSchema
