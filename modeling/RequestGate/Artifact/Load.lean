import RequestGate.Gate

/-!
# Loading an artifact

A verified artifact becomes a `RequestGate.Gate` if the options agree with the ones it was compiled
with: the policy on undeclared query parameters is part of the schemas, and every format that was
there at compile time must still be there. All schemas are compiled at once, in the order of their
fingerprints, so that nothing is left that could fail later.
-/

namespace RequestGate.Artifact

/-- Checks that options agree with those that an artifact was compiled with. -/
def verifyOptions (stamped current : Stamp) : Except ArtifactFault Unit :=
  let compiled := stamped.settings.allowUnknownQueryParameters
  let present := current.settings.allowUnknownQueryParameters
  if compiled != present then .error (.queryPolicyDiffers compiled present)
  else
    match stamped.formats.filter fun name => !current.formats.contains name with
    | [] => .ok ()
    | missing => .error (.missingFormats missing)

/-- The predicate of one of the schemas, with the digits of its fingerprint. -/
def compileEntry (options : Options) (components : Json) (entry : String × RequestSchema) :
    Except ArtifactFault (String × Predicate) :=
  match Engine.compile options (entry.2.toEngineSchema components) with
  | .ok predicate => .ok (entry.1, predicate)
  | .error fault => .error (.schemaNotCompilable ⟨entry.1⟩ fault)

/-- The gate of a verified artifact. -/
def load (options : Options) (path : String) (a : Artifact) : Except ArtifactFault Gate := do
  verifyOptions a.options options.stamp
  let predicates ← a.payload.schemas.mapM (compileEntry options a.payload.components)
  return { source := .artifact path a.payload, options, predicates }

end RequestGate.Artifact
