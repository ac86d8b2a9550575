import RequestGate.Json.Pointer

/-!
# References between schemas

A schema with a string under `$ref` stands for another one, which a pointer finds in the root.
References are followed a bounded number of times (`RequestGate.Schema.maxHops`), so that chains
which run in a circle, or are longer than anyone would write, lead nowhere.
-/

namespace RequestGate.Schema

/-- How many schemas a chain of references may run through. -/
def maxHops : Nat := 32

/-- How many nested schemas are visited by analyses that descend into compositions, properties and
items: the outermost and `maxHops` more. -/
def levels : Nat := maxHops + 1

/-- The value that a local reference `#...` points to. -/
def target? (root : Json) (reference : String) : Option Json :=
  match reference.toList with
  | '#' :: pointer => Pointer.lookup? root (String.ofList pointer)
  | _ => none

/-- The reference that a schema consists of, if it is one. -/
def reference? (schema : Json) : Option String :=
  schema.getStr? "$ref"

/-- Follows references until a schema is none; `none` when one dangles or when no step is left. -/
def follow (root : Json) : (steps : Nat) → Json → Option Json
  | 0, _ => none
  | steps + 1, schema =>
    match reference? schema with
    | some reference => (target? root reference).bind (follow root steps)
    | none => some schema

/-- The schema that a schema stands for. -/
def resolve (root schema : Json) : Option Json :=
  follow root maxHops schema

end RequestGate.Schema
