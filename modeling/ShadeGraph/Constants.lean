/-!
# Numbers shared with engines

Engines read baked vertex colors from mapping channels of fixed numbers, above those that hosts use.
-/

namespace ShadeGraph

def libraryVersion : String := "1.0.0"

/-- The vertex colors that a host may bake into a mesh. -/
inductive BakedColor where
  | ambient
  | diffuse
  | specular
  | opacity
deriving DecidableEq, Repr

/-- The mapping channel of a baked color. -/
def BakedColor.channel : BakedColor → Nat
  | ambient => 252
  | diffuse => 253
  | specular => 254
  | opacity => 255

theorem BakedColor.channel_injective {a b : BakedColor} (h : a.channel = b.channel) : a = b := by
  cases a <;> cases b <;> simp_all [channel]

end ShadeGraph
