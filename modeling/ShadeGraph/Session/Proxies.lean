import ShadeGraph.Source

/-!
# Texture proxies

A proxy is created by the name of a texture before anything is compiled. What is set on it replaces
the corresponding settings of every texture node with that name. Proxies are numbered from zero, and
setting something on an unknown number has no effect. A script may create proxies under labels that
are no names; these affect no node.
-/

namespace ShadeGraph

/-- What a proxy can set. -/
inductive ProxySetting (α : Type) where
  /-- Without a name the coordinates are left to the texture again. -/
  | uvSet (name : Option (Value α))
  | tileU (value : α)
  | tileV (value : α)
  | offsetU (value : α)
  | offsetV (value : α)
  | srgb (flag : Bool)
deriving DecidableEq

/-- The settings for one texture; missing ones are left to the texture. -/
structure Proxy (α : Type) where
  textureName : Value α
  uvSet : Option (Value α) := none
  tileU : Option α := none
  tileV : Option α := none
  offsetU : Option α := none
  offsetV : Option α := none
  srgb : Option Bool := none
deriving DecidableEq

variable {α : Type}

namespace Proxy

def set (p : Proxy α) : ProxySetting α → Proxy α
  | .uvSet name => { p with uvSet := name }
  | .tileU value => { p with tileU := some value }
  | .tileV value => { p with tileV := some value }
  | .offsetU value => { p with offsetU := some value }
  | .offsetV value => { p with offsetV := some value }
  | .srgb flag => { p with srgb := some flag }

def setAll (p : Proxy α) (settings : List (ProxySetting α)) : Proxy α := settings.foldl set p

/-- A lookup with what the proxy sets. -/
def apply (p : Proxy α) (lookup : TextureLookup α) : TextureLookup α :=
  { lookup with
    uvSet := p.uvSet.getD lookup.uvSet
    tileU := p.tileU.getD lookup.tileU
    tileV := p.tileV.getD lookup.tileV
    offsetU := p.offsetU.getD lookup.offsetU
    offsetV := p.offsetV.getD lookup.offsetV
    srgb := (p.srgb.map .flag).getD lookup.srgb }

end Proxy

/-- The proxies by number. -/
structure ProxyTable (α : Type) where
  proxies : List (Proxy α) := []

namespace ProxyTable

variable [Scalar α] (table : ProxyTable α)

def number? (textureName : Value α) : Option Nat :=
  table.proxies.findIdx? (·.textureName.same textureName)

/-- The number of the proxy for a texture, and the table that has it. -/
def create (textureName : Value α) : Nat × ProxyTable α :=
  match table.number? textureName with
  | some n => (n, table)
  | none => (table.proxies.length, ⟨table.proxies ++ [{ textureName }]⟩)

def get? (number : Int) : Option (Proxy α) :=
  if number < 0 then none else table.proxies[number.toNat]?

def find? (textureName : Value α) : Option (Proxy α) :=
  table.proxies.find? (·.textureName.same textureName)

/-- Sets something on a proxy; the flag tells whether there is one. -/
def set (number : Int) (settings : List (ProxySetting α)) : Bool × ProxyTable α :=
  if (table.get? number).isSome then
    (true, ⟨table.proxies.modify number.toNat (·.setAll settings)⟩)
  else (false, table)

/-- A lookup with what the proxy for its texture sets. -/
def apply (lookup : TextureLookup α) : TextureLookup α :=
  match table.find? (.text lookup.textureName) with
  | some p => p.apply lookup
  | none => lookup

end ProxyTable

end ShadeGraph
