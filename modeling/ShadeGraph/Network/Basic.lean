import ShadeGraph.Color.Basic
import ShadeGraph.Text.Value

/-!
# Shading networks

A network is a growing table of nodes. A node names its inputs by their places in the table, and
these lie before its own: the graph is acyclic by construction, and a node may be an input any
number of times. Two nodes are the same exactly when their places are.
-/

namespace ShadeGraph

/-- How one input of a layered blend is laid over those below it. -/
inductive BlendType where
  | replace
  | alpha
  | add
  | subtract
  | multiply
  | min
  | max
deriving DecidableEq, Repr

namespace BlendType

def name : BlendType → String
  | replace => "replace"
  | alpha => "alpha"
  | add => "add"
  | subtract => "subtract"
  | multiply => "multiply"
  | min => "min"
  | max => "max"

def ofName? : String → Option BlendType
  | "replace" => some replace
  | "alpha" => some alpha
  | "add" => some add
  | "subtract" => some subtract
  | "multiply" => some multiply
  | "min" => some min
  | "max" => some max
  | _ => none

theorem ofName?_name (b : BlendType) : ofName? b.name = some b := by cases b <;> rfl

end BlendType

/-- How a selection names a component. Besides whole numbers, scripts write numbers with a fraction
of zero, and flags for the first two components. -/
inductive ComponentLabel where
  | index (c : Component)
  | flag (b : Bool)
  | number (c : Component)
  | negativeZero
deriving DecidableEq, Repr

namespace ComponentLabel

def component : ComponentLabel → Component
  | index c => c
  | flag b => if b then .green else .red
  | number c => c
  | negativeZero => .red

/-- What the description of a network shows for a component. -/
def value {α : Type} : ComponentLabel → Value α
  | index c => .integer c.index
  | flag b => .flag b
  | number c => .text (toString c.index ++ ".0")
  | negativeZero => .text "-0.0"

def isIndex : ComponentLabel → Bool
  | index _ => true
  | _ => false

/-- The name of a component among the values that a script may give. -/
def ofValue? {α : Type} [Scalar α] : Value α → Option ComponentLabel
  | .flag b => some (flag b)
  | .integer n => (Component.ofIndex? n).map index
  | .number a => do
    let c ← Component.ofIndex? (← Scalar.whole? a)
    if Scalar.text a = "-0.0" then some negativeZero else some (number c)
  | _ => none

@[simp] theorem component_index (c : Component) : (index c).component = c := rfl

end ComponentLabel

/-- Which image a texture node reads, and at which coordinates. -/
structure TextureLookup (α : Type) where
  textureName : String
  texturePath : String
  /-- Which coordinates of a mesh; the engine goes by the text of this. -/
  uvSet : Value α := .text "1"
  tileU : α
  tileV : α
  offsetU : α
  offsetV : α
  /-- Whether the image is display-referred; zero and everything empty count as no. -/
  srgb : Value α := .flag true
deriving DecidableEq

/-- The lookup with a flag for whether its image is display-referred. -/
def TextureLookup.settled {α : Type} [Scalar α] (lookup : TextureLookup α) : TextureLookup α :=
  { lookup with srgb := .flag lookup.srgb.toBool }

/-- What a node does with its inputs. -/
inductive Operation (α : Type) where
  | texture (lookup : TextureLookup α)
  | color (value : Rgba α)
  /-- Each component is one component of one of four inputs. -/
  | swizzle (selection : Rgba ComponentLabel)
  | add
  | subtract
  | multiply
  | divide
  /-- Inputs: value, lower bound, upper bound. -/
  | clamp
  | pow
  /-- Inputs: two ends and the weight of the second. -/
  | interpolate
  /-- The first input is the bottom one. -/
  | layeredBlend (blends : List BlendType)
  /-- Inputs: value, and control with hue shift, saturation scale and lightness offset. -/
  | colorCorrection
deriving DecidableEq

namespace Operation

variable {α : Type}

def kind : Operation α → String
  | texture _ => "Texture"
  | color _ => "Color"
  | swizzle _ => "Swizzle"
  | add => "Add"
  | subtract => "Subtract"
  | multiply => "Multiply"
  | divide => "Divide"
  | clamp => "Clamp"
  | pow => "Pow"
  | interpolate => "Interpolate"
  | layeredBlend _ => "LayeredBlend"
  | colorCorrection => "ColorCorrection"

/-- The number of inputs; a layered blend takes any number above zero. -/
def arity : Operation α → Option Nat
  | texture _ => some 0
  | color _ => some 0
  | swizzle _ => some 4
  | clamp => some 3
  | interpolate => some 3
  | layeredBlend _ => none
  | add | subtract | multiply | divide | pow | colorCorrection => some 2

def parameters : Operation α → List (String × Value α)
  | texture t =>
    [("texture_name", .text t.textureName), ("texture_path", .text t.texturePath),
      ("uv_set", t.uvSet), ("tile_u", .number t.tileU), ("tile_v", .number t.tileV),
      ("offset_u", .number t.offsetU), ("offset_v", .number t.offsetV), ("srgb", t.srgb)]
  | color c => [("color", .list (c.toList.map .number))]
  | swizzle s => [("channels", .list (s.toList.map ComponentLabel.value))]
  | layeredBlend blends => [("blend_types", .list (blends.map fun b => .text b.name))]
  | _ => []

/-- Whether an operation selects components by whole numbers alone. -/
def isRegular : Operation α → Bool
  | swizzle s => s.toList.all ComponentLabel.isIndex
  | _ => true

def texture? : Operation α → Option (TextureLookup α)
  | texture t => some t
  | _ => none

end Operation

/-- The place of a node in its network. -/
abbrev NodeId := Nat

structure Node (α : Type) where
  operation : Operation α
  inputs : List NodeId
  name : String := ""
deriving DecidableEq

/-- The node with those of its inputs that lie below `n`. -/
def Node.below {α : Type} (n : Nat) (node : Node α) : Node α :=
  { node with inputs := node.inputs.filter (· < n) }

theorem Node.below_eq_self {α : Type} {n : Nat} {node : Node α} (h : ∀ j ∈ node.inputs, j < n) :
    node.below n = node := by
  rw [below, List.filter_eq_self.2 fun j hj => decide_eq_true (h j hj)]

/-- A table of nodes, each behind all of its inputs. -/
structure Network (α : Type) where
  nodes : Array (Node α) := #[]
  inputs_lt : ∀ i (h : i < nodes.size), ∀ j ∈ nodes[i].inputs, j < i := by simp

namespace Network

variable {α : Type} (net : Network α)

instance : EmptyCollection (Network α) := ⟨{}⟩

instance : Inhabited (Network α) := ⟨∅⟩

def size : Nat := net.nodes.size

def get? (id : NodeId) : Option (Node α) := net.nodes[id]?

/-- The inputs of a node; none for a place beyond the table. -/
def inputs (id : NodeId) : List NodeId := ((net.get? id).map (·.inputs)).getD []

theorem lt_of_mem_inputs {id j : NodeId} (h : j ∈ net.inputs id) : j < id := by
  by_cases hi : id < net.nodes.size
  · apply net.inputs_lt id hi
    simpa [inputs, get?, hi] using h
  · simp [inputs, get?, hi] at h

/-- Puts a node behind all others. Inputs beyond the table are left out. -/
def insert (node : Node α) : Network α :=
  { nodes := net.nodes.push (node.below net.nodes.size)
    inputs_lt := by
      intro i h j hj
      rw [Array.getElem_push] at hj
      split at hj
      · exact net.inputs_lt i _ j hj
      · have : i = net.nodes.size := by simp at h; omega
        simp only [Node.below, List.mem_filter, decide_eq_true_eq] at hj
        exact this ▸ hj.2 }

/-- Exchanges the operation of a node and keeps its inputs. -/
def setOperation (id : NodeId) (operation : Operation α) : Network α :=
  { nodes := net.nodes.modify id fun node => { node with operation }
    inputs_lt := by
      intro i h j hj
      rw [Array.getElem_modify] at hj
      apply net.inputs_lt i (by simpa using h) j
      split at hj <;> exact hj }

@[simp] theorem size_insert (node : Node α) : (net.insert node).size = net.size + 1 := by
  simp [insert, size]

theorem get?_insert_size {node : Node α} (h : ∀ j ∈ node.inputs, j < net.size) :
    (net.insert node).get? net.size = some node := by
  have hn : node.below net.nodes.size = node := Node.below_eq_self h
  simp [get?, insert, size, hn]

theorem get?_insert_of_lt {node : Node α} {id : NodeId} (h : id < net.size) :
    (net.insert node).get? id = net.get? id := by
  have h' : id < net.nodes.size := h
  simp [insert, get?, Array.getElem?_push, Nat.ne_of_lt h']

@[simp] theorem size_setOperation (id : NodeId) (operation : Operation α) :
    (net.setOperation id operation).size = net.size := by
  simp [setOperation, size]

@[simp] theorem inputs_setOperation (id j : NodeId) (operation : Operation α) :
    (net.setOperation id operation).inputs j = net.inputs j := by
  simp only [inputs, get?, setOperation, Array.getElem?_modify]
  split
  · simp [Option.map_map, Function.comp_def]
  · rfl

end Network

end ShadeGraph
