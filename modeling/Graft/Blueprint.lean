/-
Blueprints: bundles that are known by name and made on demand.

Only a composable blueprint may be copied onto types by its name. Every definition gets a number of
its own and counts the instances it has made, so that no two instances ever share an identity, even
when a name is defined again.
-/
import Graft.Bundle

set_option autoImplicit false

namespace Graft

/-- Whether a blueprint may be copied onto other types. -/
inductive Blueprint.Kind
  /-- A bundle of operations that belongs to no type. -/
  | composable
  /-- A type of its own, never copied by name. -/
  | concrete
  deriving DecidableEq, Inhabited

/-- The word for a kind in JSON. -/
def Blueprint.Kind.word : Blueprint.Kind → String
  | .composable => "composable"
  | .concrete => "concrete"

/-- The kind of a word. -/
def Blueprint.Kind.ofWord? : String → Option Blueprint.Kind
  | "composable" => some .composable
  | "concrete" => some .concrete
  | _ => none

instance : Json.Codec Blueprint.Kind where
  encode kind := .text kind.word
  decode? depth json := (Json.variantName? depth json).bind Blueprint.Kind.ofWord?

/-- A definition of a bundle. -/
structure Blueprint where
  kind : Blueprint.Kind
  /-- The bundle that is made for the given use, counted from one. Making it is plain: it cannot call
  the registry that asks for it. -/
  make : Nat → Bundle
  /-- The number of this definition. -/
  number : Nat
  /-- How many instances were made. -/
  made : Nat

/-- The defined blueprints by name. -/
structure Blueprints where
  byName : OrderedMap String Blueprint
  /-- How many definitions there were, replaced ones included. -/
  defined : Nat

namespace Blueprints

/-- No blueprints. -/
def empty : Blueprints := ⟨.empty, 0⟩

/-- Defines a name, or defines it anew. -/
def define (blueprints : Blueprints) (name : String) (kind : Blueprint.Kind)
    (make : Nat → Bundle) : Blueprints where
  byName := blueprints.byName.insert name ⟨kind, make, blueprints.defined, 0⟩
  defined := blueprints.defined + 1

/-- The kind of a defined name. -/
def kind? (blueprints : Blueprints) (name : String) : Option Blueprint.Kind :=
  (blueprints.byName.get? name).map Blueprint.kind

/-- The number of defined names. -/
def size (blueprints : Blueprints) : Nat := blueprints.byName.size

/-- A new instance of a defined name. -/
def instantiate? (blueprints : Blueprints) (name : String) : Option (Instance × Blueprints) :=
  (blueprints.byName.get? name).map (fun blueprint =>
    let count := blueprint.made + 1
    (⟨.made blueprint.number count, blueprint.make count⟩,
      { blueprints with
        byName := blueprints.byName.insert name { blueprint with made := count } }))

/-- Whether a reference may be copied onto a type: every instance may, and a name if it is that of
a composable blueprint. -/
def admits (blueprints : Blueprints) : BundleRef → Bool
  | .live _ => true
  | .named name => blueprints.kind? name = some .composable

/-- The gate for a unit. -/
def check (blueprints : Blueprints) (unit : BundleRef) : Except GateError Unit :=
  if blueprints.admits unit then .ok () else .error (.unit unit.describe)

end Blueprints

end Graft
