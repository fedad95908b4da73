import ShadeGraph.Session.LabelTable
import ShadeGraph.Source

/-!
# Override tables

Colors, texture files and mapping channels for a channel of a material are kept in three tables. The
first entry for a channel is kept and later ones are refused.
-/

namespace ShadeGraph

structure Overrides (α : Type) where
  colors : LabelTable α (Shade α) := []
  textures : LabelTable α (TextureFile α) := []
  mappings : LabelTable α (Value α) := []

namespace Overrides

variable {α : Type} [Scalar α] (overrides : Overrides α)

/-- Whether the table for an override holds one for this channel already. -/
def holds (key : ChannelKey α) : ChannelOverride α → Bool
  | .color _ => overrides.colors.contains key.label
  | .texture _ => overrides.textures.contains key.label
  | .mapping _ => overrides.mappings.contains key.label

/-- Keeps an override unless its table holds one for the channel. -/
def add (key : ChannelKey α) : ChannelOverride α → Overrides α
  | .color color => { overrides with colors := overrides.colors.insertIfNew key.label color }
  | .texture file => { overrides with textures := overrides.textures.insertIfNew key.label file }
  | .mapping channel =>
    { overrides with mappings := overrides.mappings.insertIfNew key.label channel }

omit [Scalar α] in
def size : Nat := overrides.colors.length + overrides.textures.length + overrides.mappings.length

/-- What replaces a channel: its color, if these are in use, or else its texture file. -/
def find? (key : ChannelKey α) (useColors : Bool) : Option (ChannelOverride α) :=
  (if useColors then (overrides.colors.get? key.label).map .color else none) <|>
    (overrides.textures.get? key.label).map .texture

end Overrides

end ShadeGraph
