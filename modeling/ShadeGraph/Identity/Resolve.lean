import ShadeGraph.Identity.Registry

/-!
# Finding host materials again

An id that comes back from the engine leads to the live material with the recorded handle, if that
still has the recorded name. Otherwise the name alone decides if only one material has it, and the
approximate name with the number of slots if that is allowed. Every step past the handle is told in
a message.
-/

namespace ShadeGraph

namespace Resolve

def unknownText (id : String) : String := s!"Material id {id} is not in the identity map"

def staleText (r : MaterialRecord) : String :=
  s!"Handle {r.handle} of material '{r.name.display}' is stale, matching by name"

def ambiguousText (r : MaterialRecord) (count : Nat) : String :=
  s!"{count} host materials are named '{r.name.display}', name match is ambiguous"

def failedText (r : MaterialRecord) (id : String) : String :=
  s!"Could not resolve material '{r.name.display}' ({id})"

def approximateText (r : MaterialRecord) (candidate : String) : String :=
  s!"Unsafe match: material '{r.name.display}' resolved to '{candidate}' by name and " ++
    s!"{r.slotCount} sub-material slots"

/-- A name without invalid characters and without case. -/
def looseName (name : String) : String := Text.lower (Identity.cleanName name)

end Resolve

namespace HostScene

variable {α : Type} (hosts : HostTable α) (scene : HostScene)

/-- The live material with the handle and the name of a record. -/
def recorded? (r : MaterialRecord) : Option HostId :=
  (scene.get? r.handle).filter fun id => decide ((hosts.get id).key.name = r.name)

/-- The live materials with the name of a record. -/
def named (r : MaterialRecord) : List HostId :=
  scene.materials.filter fun id => decide ((hosts.get id).key.name = r.name)

/-- The first live material that agrees with a record in its approximate name and its slots. -/
def approximate? (r : MaterialRecord) : Option HostId :=
  scene.materials.find? fun id =>
    Resolve.looseName r.name.display == Resolve.looseName (hosts.get id).name &&
      (hosts.get id).slotCount == r.slotCount

end HostScene

namespace Registry

variable {α : Type} (registry : Registry) (hosts : HostTable α) (scene : HostScene)

/-- The live material for an id, and the messages on the way to it. -/
def resolve (allowUnsafe : Bool) (id : String) : Option HostId × List String :=
  match registry.findId? id with
  | none => (none, [Resolve.unknownText id])
  | some r =>
    match scene.recorded? hosts r with
    | some m => (some m, [])
    | none =>
      match scene.named hosts r with
      | [m] => (some m, [Resolve.staleText r])
      | candidates =>
        let texts := Resolve.staleText r ::
          (if candidates.isEmpty then [] else [Resolve.ambiguousText r candidates.length])
        if !allowUnsafe then (none, texts ++ [Resolve.failedText r id])
        else
          match scene.approximate? hosts r with
          | some m => (some m, texts ++ [Resolve.approximateText r (hosts.get m).name])
          | none => (none, texts ++ [Resolve.failedText r id ++ ", even with unsafe matching"])

end Registry

/-- The live material for an id. The messages are printed as warnings. -/
def Registrar.resolve {α : Type} (hosts : HostTable α) (scene : HostScene) (allowUnsafe : Bool)
    (id : String) : Register (Option HostId) := do
  let (m, texts) := (← get).registry.resolve hosts scene allowUnsafe id
  texts.forM fun text => Registrar.log (·.warn text)
  return m

end ShadeGraph
