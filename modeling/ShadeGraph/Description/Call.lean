/-!
# Calls in descriptions

A script asks for something by name and gives arguments in order. Each call needs some arguments and
may take further ones; too few or too many are refused.
-/

namespace ShadeGraph

/-- A call with the names of the arguments that it needs and may take. -/
structure Call where
  name : String
  required : List String := []
  optional : List String := []
  /-- Whether the part of the session that is asked counts as an argument. -/
  bound : Bool := true
deriving DecidableEq, Repr

/-- The number of arguments does not suit a call. -/
inductive CallError where
  | missing (call : Call) (names : List String)
  | tooMany (call : Call) (count : Nat)
  /-- The part of the session has no such call. -/
  | unknown (type name : String)
deriving DecidableEq, Repr

namespace CallError

/-- Names one behind the other, with a word before the last one. -/
def series : List String → String
  | [] => ""
  | [a] => a
  | [a, b] => s!"{a} and {b}"
  | names => ", ".intercalate names.dropLast ++ ", and " ++ names.getLastD ""

def ending (count : Nat) : String := if count = 1 then "" else "s"

def message : CallError → String
  | missing call names =>
    s!"{call.name}() missing {names.length} required positional argument{ending names.length}: " ++
      series (names.map fun name => "'" ++ name ++ "'")
  | tooMany call count =>
    let self := if call.bound then 1 else 0
    let least := call.required.length + self
    let most := least + call.optional.length
    let range :=
      if call.optional.isEmpty then s!"{most} positional argument{ending most}"
      else s!"from {least} to {most} positional arguments"
    let verb := if count + self = 1 then "was" else "were"
    s!"{call.name}() takes {range} but {count + self} {verb} given"
  | unknown type name => s!"'{type}' object has no attribute '{name}'"

end CallError

namespace Call

/-- Whether this number of arguments suits a call. -/
def check (call : Call) (count : Nat) : Except CallError Unit :=
  if call.required.length + call.optional.length < count then .error (.tooMany call count)
  else if count < call.required.length then .error (.missing call (call.required.drop count))
  else .ok ()

/-- The part of a session that answers to a name: its type and its calls. -/
def part? : String → Option (String × List Call)
  | "overrides" =>
    some ("OverrideTables",
      let key := ["material_name", "channel_name"]
      [{ name := "get_color_override", required := key },
        { name := "get_texture_override", required := key },
        { name := "get_mapping_channel_override", required := key },
        { name := "clear" }])
  | "proxies" =>
    some ("NodeProxyTable",
      [{ name := "create", required := ["texture_name"] },
        { name := "get", required := ["node_id"] },
        { name := "for_texture", required := ["texture_name"] },
        { name := "set_mapping_channel", required := ["node_id", "channel"] },
        { name := "set_uv_set", required := ["node_id", "uv_set"] },
        { name := "set_uv_tiling", required := ["node_id", "u", "v"] },
        { name := "set_u_tiling", required := ["node_id", "u"] },
        { name := "set_v_tiling", required := ["node_id", "v"] },
        { name := "set_uv_offset", required := ["node_id", "u", "v"] },
        { name := "set_u_offset", required := ["node_id", "u"] },
        { name := "set_v_offset", required := ["node_id", "v"] },
        { name := "set_srgb", required := ["node_id", "srgb"] },
        { name := "clear" }])
  | "info" =>
    some ("MaterialInfoHandler",
      let mesh := "mesh_name"
      let material := "material_name"
      let sub := "sub_material_name"
      let channel := "channel_name"
      [{ name := "add_material", required := [mesh, material], optional := ["material_id"] },
        { name := "add_reused_material", required := [mesh, material] },
        { name := "add_sub_material", required := [material, "index", sub] },
        { name := "add_material_channel_texture", required := [material, channel, "texture_path"]
          optional := ["mapping_channel"] },
        { name := "get_materials_for_mesh", required := [mesh] },
        { name := "get_material_ids_for_mesh", required := [mesh] },
        { name := "mesh_reuses_material", required := [mesh] },
        { name := "mesh_reuses_materials", required := [mesh] },
        { name := "get_sub_materials", required := [material] },
        { name := "get_sub_material_index", required := [material, sub] },
        { name := "material_reuses_sub_material", required := [material, sub] },
        { name := "get_materials_with_custom_channels" },
        { name := "get_custom_channels_for_material", required := [material] },
        { name := "get_texture_name_for_material_channel", required := [material, channel] },
        { name := "get_mapping_channel_for_material_channel", required := [material, channel] },
        { name := "clear" }])
  | "registry" =>
    some ("MaterialIdentityRegistry",
      [{ name := "find", required := ["handle", "name"] },
        { name := "find_by_id", required := ["material_id"] },
        { name := "records" },
        { name := "generated_material", required := ["index"] },
        { name := "to_attachment", optional := ["versioned"] },
        { name := "clear" }])
  | _ => none

/-- Whether a part of a session answers to a call with this number of arguments. -/
def checkPart (part name : String) (count : Nat) : Except CallError Unit :=
  match part? part with
  | none => .ok ()
  | some (type, calls) =>
    match calls.find? (·.name == name) with
    | some call => { call with name := type ++ "." ++ name }.check count
    | none => .error (.unknown type name)

/-! ### Calls on ids -/

def compareIds : Call :=
  { name := "guid_compare", required := ["first", "second"], bound := false }

def isEmptyId : Call := { name := "is_empty_guid", required := ["material_id"], bound := false }

def cleanName : Call :=
  { name := "remove_invalid_characters", required := ["name"], bound := false }

def createId : Call := { name := "create_guid", bound := false }

/-- The error about an index outside of a table. -/
def indexError : Call :=
  { name := "MaterialIndexError.__init__", required := ["index", "material_count"]
    optional := ["mesh_name"] }

end Call

end ShadeGraph
