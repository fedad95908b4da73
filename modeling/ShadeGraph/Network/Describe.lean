import ShadeGraph.Network.Markup
import ShadeGraph.Network.Walk

/-!
# Descriptions of materials

A material is written as its nodes, each once and behind all of its inputs, followed by the exit
node of every channel. Nodes are numbered from zero in the order in which they are written.
-/

namespace ShadeGraph.Network

variable {α : Type} [Scalar α] (net : Network α)

/-- Every node below one of the exits once, in the order of the walks. -/
def reachable (exits : List NodeId) : List NodeId :=
  exits.foldl (fun seen exit => seen ++ (net.walk exit).filter (· ∉ seen)) []

/-- The number of a node in the written order. -/
def written (order : List NodeId) (id : NodeId) : String := toString (order.idxOf id)

def describeNode (order : List NodeId) (id : NodeId) (node : Node α) : Element :=
  .mk "Node"
    ([("id", written order id), ("type", node.operation.kind)] ++
      (if node.name.isEmpty then [] else [("name", node.name)]) ++
      node.operation.parameters.map fun (key, value) => (key, value.parameter))
    (node.inputs.zipIdx.map fun (input, slot) =>
      .mk "Input" [("slot", toString slot), ("ref", written order input)] [])

/-- The nodes of `order`, in that order. -/
def describeNodes (order : List NodeId) : List Element :=
  order.filterMap fun id => (net.get? id).map (describeNode order id)

/-- A material with its exit nodes by channel. -/
def describe (name : String) (identity : Option String) (channels : List (String × NodeId)) :
    Element :=
  let order := net.reachable (channels.map (·.2))
  .mk "Material" (("name", name) :: (identity.map fun id => ("id", id)).toList)
    (.mk "Nodes" [] (net.describeNodes order) ::
      channels.map fun (channel, exit) =>
        .mk "Channel" [("name", channel), ("exit", written order exit)] [])

/-- A node as the only channel of a material without a name. -/
def describeExit (exit : NodeId) : Element := net.describe "" none [("out", exit)]

end ShadeGraph.Network
