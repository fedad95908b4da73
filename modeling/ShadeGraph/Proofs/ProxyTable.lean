import ShadeGraph.Proofs.LabelTable
import ShadeGraph.Session.Proxies

/-!
# What proxies come to set

A script creates proxies and sets things on them in any order, also more than once. In the end the
proxy for a texture sets the last value of everything that calls with its number have set.
-/

namespace ShadeGraph

variable {α β : Type}

/-- What a script does with proxies. -/
inductive ProxyCall (α : Type) where
  | create (textureName : Value α)
  | set (number : Int) (settings : List (ProxySetting α))

/-! ### Settings -/

namespace ProxySetting

def uvSet? : ProxySetting α → Option (Option (Value α))
  | uvSet name => some name
  | _ => none

def tileU? : ProxySetting α → Option (Option α)
  | tileU value => some (some value)
  | _ => none

def tileV? : ProxySetting α → Option (Option α)
  | tileV value => some (some value)
  | _ => none

def offsetU? : ProxySetting α → Option (Option α)
  | offsetU value => some (some value)
  | _ => none

def offsetV? : ProxySetting α → Option (Option α)
  | offsetV value => some (some value)
  | _ => none

def srgb? : ProxySetting α → Option (Option Bool)
  | srgb flag => some (some flag)
  | _ => none

/-- The last value of one thing among these settings. -/
def last? (read? : ProxySetting α → Option (Option β)) (settings : List (ProxySetting α)) :
    Option β :=
  (settings.filterMap read?).getLast?.join

end ProxySetting

/-- A lookup is the bare one with the last values of these settings. -/
structure TextureLookup.Honours (lookup : TextureLookup α) (settings : List (ProxySetting α))
    (bare : TextureLookup α) : Prop where
  textureName : lookup.textureName = bare.textureName
  texturePath : lookup.texturePath = bare.texturePath
  uvSet : lookup.uvSet = (ProxySetting.last? ProxySetting.uvSet? settings).getD bare.uvSet
  tileU : lookup.tileU = (ProxySetting.last? ProxySetting.tileU? settings).getD bare.tileU
  tileV : lookup.tileV = (ProxySetting.last? ProxySetting.tileV? settings).getD bare.tileV
  offsetU : lookup.offsetU = (ProxySetting.last? ProxySetting.offsetU? settings).getD bare.offsetU
  offsetV : lookup.offsetV = (ProxySetting.last? ProxySetting.offsetV? settings).getD bare.offsetV
  srgb : lookup.srgb = ((ProxySetting.last? ProxySetting.srgb? settings).map .flag).getD bare.srgb

theorem TextureLookup.Honours.settled [Scalar α] {lookup bare : TextureLookup α}
    {settings : List (ProxySetting α)} (h : lookup.Honours settings bare) :
    lookup.settled.Honours settings bare.settled where
  textureName := h.textureName
  texturePath := h.texturePath
  uvSet := h.uvSet
  tileU := h.tileU
  tileV := h.tileV
  offsetU := h.offsetU
  offsetV := h.offsetV
  srgb := by
    rw [TextureLookup.settled, h.srgb]
    cases ProxySetting.last? ProxySetting.srgb? settings <;> rfl

namespace Proxy

/-- What a field that was not set comes to be. -/
theorem setAll_field {field : Proxy α → Option β} {read? : ProxySetting α → Option (Option β)}
    (hset : ∀ p s, field (p.set s) = (read? s).getD (field p)) {p : Proxy α}
    (hp : field p = none) (settings : List (ProxySetting α)) :
    field (p.setAll settings) = ProxySetting.last? read? settings := by
  have hall (p : Proxy α) : field (p.setAll settings) =
      (settings.filterMap read?).getLast?.getD (field p) := by
    induction settings generalizing p with
    | nil => rfl
    | cons s settings ih =>
      refine (ih (p.set s)).trans ?_
      rw [hset, List.filterMap_cons]
      cases read? s with
      | none => rfl
      | some value => rw [List.getLast?_cons]; rfl
  rw [hall, hp, ProxySetting.last?]
  cases (settings.filterMap read?).getLast? <;> rfl

@[simp] theorem setAll_textureName (p : Proxy α) (settings : List (ProxySetting α)) :
    (p.setAll settings).textureName = p.textureName := by
  induction settings generalizing p with
  | nil => rfl
  | cons s settings ih => exact (ih (p.set s)).trans (by cases s <;> rfl)

/-- A proxy that has no other settings sets the last values of these. -/
theorem honours_apply (name : Value α) (settings : List (ProxySetting α))
    (lookup : TextureLookup α) :
    ((setAll { textureName := name } settings).apply lookup).Honours settings lookup := by
  constructor
  case textureName | texturePath => rfl
  case uvSet | tileU | tileV | offsetU | offsetV =>
    exact congrArg (Option.getD · _)
      (setAll_field (by rintro _ (_ | _ | _ | _ | _ | _) <;> rfl) rfl settings)
  case srgb =>
    have hlast : (setAll { textureName := name } settings).srgb =
        ProxySetting.last? ProxySetting.srgb? settings :=
      setAll_field (by rintro _ (_ | _ | _ | _ | _ | _) <;> rfl) rfl settings
    rw [← hlast]
    rfl

end Proxy

variable [Scalar α]

/-! ### Calls -/

namespace ProxyTable

variable (table : ProxyTable α)

/-- The table after a call. -/
def call (table : ProxyTable α) : ProxyCall α → ProxyTable α
  | .create name => (table.create name).2
  | .set number settings => (table.set number settings).2

def callAll (calls : List (ProxyCall α)) : ProxyTable α := calls.foldl call table

/-- What a call sets on the proxy of a texture: nothing but what is set under its number. -/
def settingsOf (name : Value α) : ProxyCall α → List (ProxySetting α)
  | .create _ => []
  | .set number settings =>
    if (table.number? name).map Nat.cast = some number then settings else []

/-- All that calls set on the proxy of a texture, one after the other. -/
def settingsOfAll (name : Value α) : ProxyTable α → List (ProxyCall α) → List (ProxySetting α)
  | _, [] => []
  | table, c :: calls => table.settingsOf name c ++ settingsOfAll name (table.call c) calls

/-- The proxy of a texture, or one that sets nothing. -/
def proxyOf (name : Value α) : Proxy α := (table.find? name).getD { textureName := name }

theorem apply_eq (lookup : TextureLookup α) :
    table.apply lookup = (table.proxyOf (.text lookup.textureName)).apply lookup := by
  unfold apply proxyOf
  cases table.find? (.text lookup.textureName) <;> rfl

theorem proxyOf_create (label : Value α) (name : String) :
    (table.create label).2.proxyOf (.text name) = table.proxyOf (.text name) := by
  unfold create
  split
  · rfl
  · unfold proxyOf find?
    rw [List.find?_append]
    cases table.proxies.find? (·.textureName.same (.text name)) with
    | some p => rfl
    | none =>
      cases hsame : label.same (.text name) with
      | true => simp [Value.eq_of_same_text hsame]
      | false => simp [hsame]

theorem number?_modify (number : Nat) (settings : List (ProxySetting α)) (name : Value α) :
    number? ⟨table.proxies.modify number (·.setAll settings)⟩ name = table.number? name := by
  have hnames : (table.proxies.modify number (·.setAll settings)).map (·.textureName) =
      table.proxies.map (·.textureName) := by
    refine List.ext_getElem? fun i => ?_
    simp only [List.getElem?_map, List.getElem?_modify]
    cases table.proxies[i]? with
    | none => rfl
    | some p => by_cases h : number = i <;> simp [h]
  have hindex (proxies : List (Proxy α)) : number? ⟨proxies⟩ name =
      (proxies.map (·.textureName)).findIdx? (·.same name) := by
    rw [List.findIdx?_map]
    rfl
  rw [hindex, hnames, ← hindex]

theorem find?_eq_bind (name : Value α) :
    table.find? name = (table.number? name).bind fun n => table.proxies[n]? :=
  List.find?_eq_bind_findIdx?_getElem?

theorem find?_modify (number : Nat) (settings : List (ProxySetting α)) (name : Value α) :
    find? ⟨table.proxies.modify number (·.setAll settings)⟩ name =
      (table.find? name).map fun p =>
        if table.number? name = some number then p.setAll settings else p := by
  rw [find?_eq_bind, find?_eq_bind, number?_modify]
  cases table.number? name with
  | none => rfl
  | some n =>
    simp only [Option.bind_some, List.getElem?_modify, Option.map_eq_map, Option.some.injEq, eq_comm]

theorem find?_set (number : Int) (settings : List (ProxySetting α)) (name : Value α) :
    (table.set number settings).2.find? name =
      (table.find? name).map (·.setAll (table.settingsOf name (.set number settings))) := by
  unfold set settingsOf
  by_cases hproxy : (table.get? number).isSome
  · have hnumber : (number.toNat : Int) = number := by
      unfold get? at hproxy
      split at hproxy
      · cases hproxy
      · omega
    have hiff : (table.number? name).map Nat.cast = some number ↔
        table.number? name = some number.toNat := by
      cases table.number? name with
      | none => simp
      | some n =>
        simp only [Option.map_some, Option.some.injEq]
        omega
    rw [if_pos hproxy, find?_modify]
    dsimp only
    simp only [hiff]
    congr 1
    funext p
    split <;> rfl
  · rw [if_neg hproxy]
    cases hfind : table.find? name with
    | none => rfl
    | some p =>
      have hother : (table.number? name).map Nat.cast ≠ some number := by
        intro hsame
        obtain ⟨n, hn, rfl⟩ := Option.map_eq_some_iff.mp hsame
        rw [find?_eq_bind, hn, Option.bind_some] at hfind
        exact hproxy (by simp [get?, hfind])
      simp only [if_neg hother]
      rfl

theorem proxyOf_set (number : Int) (settings : List (ProxySetting α)) (name : Value α) :
    (table.set number settings).2.proxyOf name =
      (table.proxyOf name).setAll (table.settingsOf name (.set number settings)) := by
  unfold proxyOf
  rw [find?_set]
  cases hfind : table.find? name with
  | some p => rfl
  | none =>
    have hnone : table.number? name = none := by
      rw [find?] at hfind
      rw [number?]
      simpa using hfind
    simp [settingsOf, hnone, Proxy.setAll]

theorem proxyOf_call (c : ProxyCall α) (name : String) :
    (table.call c).proxyOf (.text name) =
      (table.proxyOf (.text name)).setAll (table.settingsOf (.text name) c) := by
  cases c with
  | create label => exact table.proxyOf_create label name
  | set number settings => exact table.proxyOf_set number settings (.text name)

theorem proxyOf_callAll (calls : List (ProxyCall α)) (name : String) :
    (table.callAll calls).proxyOf (.text name) =
      (table.proxyOf (.text name)).setAll (table.settingsOfAll (.text name) calls) := by
  induction calls generalizing table with
  | nil => rfl
  | cons c calls ih =>
    refine (ih (table.call c)).trans ?_
    rw [proxyOf_call]
    exact (List.foldl_append ..).symm

/-- What a lookup becomes after these calls. -/
theorem honours_callAll (calls : List (ProxyCall α)) (lookup : TextureLookup α) :
    ((callAll {} calls).apply lookup).Honours
      (settingsOfAll (.text lookup.textureName) {} calls) lookup := by
  rw [apply_eq, proxyOf_callAll]
  exact Proxy.honours_apply _ _ _

end ProxyTable

end ShadeGraph
