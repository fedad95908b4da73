import ShadeGraph.Description.Call
import ShadeGraph.Description.Source
import ShadeGraph.Network.Describe
import ShadeGraph.Network.Request
import ShadeGraph.Session.Context

/-!
# Requested nodes in descriptions

A script describes a network node by node. Each node names an operator and refers to earlier nodes by
their places; a node that could not be built is missing where it is used.
-/

namespace ShadeGraph

open Json (ReadError)

/-- Why a described node cannot be asked for. -/
inductive GraphError where
  | unreadable (e : ReadError)
  | call (e : CallError)
deriving DecidableEq, Repr

/-- A name that is no text and cannot be written. -/
structure NameError where
  shown : String
  kind : String
deriving DecidableEq, Repr

def NameError.message (e : NameError) : String := s!"cannot serialize {e.shown} (type {e.kind})"

/-- Characters that are written in another way. -/
def escapedCharacters : List String := ["&", "<", ">", "\"", "\r", "\n", "\t"]

/-- What is wrong with a name. Something with parts has a text, unless a part would be escaped. -/
def Value.nameError? (name : Value Float) : Option NameError :=
  let escaped : Value Float → Bool
    | .text s => escapedCharacters.contains s
    | _ => false
  let writable : Bool := match name with
    | .text _ => true
    | .list items => !items.any escaped
    | .entries items => !items.any fun e => escapedCharacters.contains e.1
    | _ => false
  if writable then none else some ⟨name.inner, name.kindName⟩

/-- The operators that take their inputs one by one. -/
def Call.operators : List Call :=
  let operator (name : String) (required : List String) : Call := { name, required, bound := false }
  ["add", "subtract", "multiply", "divide"].map (operator · ["a", "b"]) ++
    [operator "clamp" ["value", "lower", "upper"], operator "power" ["base", "exponent"],
      operator "interpolate" ["a", "b", "weight"],
      operator "color_correction" ["value", "control"], operator "premultiply" ["node"],
      operator "rgb_average" ["node"]]

namespace Request

abbrev Step := ExceptT RequestError (Build Float) NodeId

/-- The node of one kind with these inputs. -/
def stepOfKind (kind : String) (inputs : List (Option NodeId)) : Step :=
  match ofKind? kind inputs with
  | some request => request.build
  | none => throw (.noInputs kind)

/-- What a described node is called. A texture node is named for its texture unless it gets a name of
its own. -/
def nameOfJson (j : Json) : Value Float :=
  let name := (j.get "name").toValue
  match (j.get "f").toText with
  | "texture" => if name.toBool then name else (j.get "binding").valueAt "texture_name" (.text "")
  | "color" => name
  | _ => .absent

/-- The name of a node; what counts as false is none. -/
def shownName (name : Value Float) : String := if name.toBool then name.display else ""

/-- The first name that cannot be written, of the nodes in the written order and of the channels. -/
def nameError? (net : Network Float) (names : List (NodeId × Value Float))
    (channels : List (Value Float × NodeId)) : Option NameError :=
  let nodes := (net.reachable (channels.map (·.2))).filterMap (List.lookup · names)
  (nodes.filter Value.toBool ++ channels.map (·.1)).findSome? Value.nameError?

/-- The kind of node that an operator makes. -/
def kindOf : String → String
  | "power" => "Pow"
  | "color_correction" => "ColorCorrection"
  | operator => operator.capitalize

/-- The nodes that are referred to; null stands for a missing one. -/
def inputs? (nodes : List (Option NodeId)) (j : Json) :
    Except ReadError (List (Option NodeId)) := do
  (← j.optionalItemsAt "in").mapM fun place =>
    if place.isNull then return none else Json.at? nodes place

/-- The step that builds a described node behind others. -/
def stepOfJson? (constants : Constants) (nodes : List (Option NodeId)) (j : Json) :
    Except GraphError Step := do
  let inputs ← (inputs? nodes j).mapError .unreadable
  let input (i : Nat) : Option NodeId := (inputs[i]?).join
  let values (key : String) := (return (← j.itemsAt key).map Json.toValue).mapError .unreadable
  let f := (j.get "f").toText
  let name := shownName (nameOfJson j)
  match Call.operators.find? (·.name == f) with
  | some operator => (operator.check inputs.length).mapError .call
  | none => pure ()
  match f with
  | "texture" =>
    let binding ← (TextureBinding.ofJson? (j.get "binding")).mapError .unreadable
    return texture binding.toTextureLookup name
  | "color" =>
    return color (← (Shade.ofJson? (j.get "value")).mapError .unreadable) name
  | "one" => return pure constants.one
  | "zero" => return pure constants.zero
  | "swizzle" => return swizzle inputs (← values "channels")
  | "broadcast" => return broadcast (input 0) (j.get "channel").toValue
  | "replace_alpha" => return replaceAlpha (input 0) (input 1) (j.valueAt "channel" (.integer 3))
  | "layered_blend" => return layeredBlend inputs (← values "blends")
  | "premultiply" => return compound Build.premultiply (input 0)
  | "rgb_average" => return compound Build.rgbAverage (input 0)
  | "node" => return stepOfKind (j.get "kind").toText inputs
  | operator => return stepOfKind (kindOf operator) inputs

end Request

end ShadeGraph
