import ShadeGraph.Proofs.Network.Order

/-!
# What a description says

A description is read back without the network it was written from: nodes are known by the ids of
their elements, and inputs and exits refer to these. What comes out is the part of the network at and
below the exits, drawn with other names for its nodes. So the description tells which nodes there are,
what each of them does, and where two consumers share one.
-/

namespace ShadeGraph

namespace Element

/-- The children with a tag. -/
def tagged (e : Element) (tag : String) : List Element := e.children.filter fun c => c.tag = tag

def nodeElements (e : Element) : List Element :=
  (e.tagged "Nodes").flatMap fun nodes => nodes.tagged "Node"

def inputElements (e : Element) : List Element := e.tagged "Input"

def channelElements (e : Element) : List Element := e.tagged "Channel"

end Element

/-! ### Reading a description -/

/-- A node as it is described. Its inputs are places among the described nodes. -/
structure NodeSketch where
  kind : String
  name : String
  parameters : List (String × String)
  inputs : List Nat
deriving DecidableEq, Repr

/-- A material as it is described: its nodes, and the place of the exit node of every channel. -/
structure Sketch where
  nodes : List NodeSketch
  exits : List (String × Nat)
deriving DecidableEq, Repr

namespace Sketch

/-- The attributes of a node that are no parameters. -/
def reserved : List String := ["id", "type", "name"]

/-- The place of the id under this key. -/
def place? (ids : List String) (key : String) (e : Element) : Option Nat := do
  ids.idxOf? (← e.get? key)

def node? (ids : List String) (e : Element) : Option NodeSketch := do
  return {
    kind := ← e.get? "type"
    name := (e.get? "name").getD ""
    parameters := e.attributes.filter fun a => a.1 ∉ reserved
    inputs := ← e.inputElements.mapM (place? ids "ref") }

def exit? (ids : List String) (e : Element) : Option (String × Nat) := do
  return (← e.get? "name", ← place? ids "exit" e)

/-- Reads the description of a material. -/
def ofElement? (e : Element) : Option Sketch := do
  let ids ← e.nodeElements.mapM (·.get? "id")
  return {
    nodes := ← e.nodeElements.mapM (node? ids)
    exits := ← e.channelElements.mapM (exit? ids) }

end Sketch

/-! ### Labels -/

section

variable {α : Type} [Scalar α]

/-- The text that stands for a value in an attribute. The texts of a list are separated by blanks. -/
inductive Value.Shows : Value α → String → Prop
  | absent : Shows .absent "None"
  | yes : Shows (.flag true) "true"
  | no : Shows (.flag false) "false"
  | integer (n : Int) : Shows (.integer n) (toString n)
  | number (a : α) : Shows (.number a) (Scalar.text a)
  | text (s : String) : Shows (.text s) s
  | empty : Shows (.list []) ""
  | last {v : Value α} {s : String} : Shows v s → Shows (.list [v]) s
  | more {v w : Value α} {items : List (Value α)} {s rest : String} : Shows v s →
    Shows (.list (w :: items)) rest → Shows (.list (v :: w :: items)) (s ++ " " ++ rest)
  /-- Entries look as they do in a message. -/
  | entries (items : List (String × Value α)) :
    Shows (.entries items) (Value.entries items).display

/-- The digit of a component. -/
def Component.digit : Component → String
  | red => "0"
  | green => "1"
  | blue => "2"
  | alpha => "3"

/-- The text of a component as it was named. -/
def ComponentLabel.shown : ComponentLabel → String
  | index c => c.digit
  | flag true => "true"
  | flag false => "false"
  | number c => c.digit ++ ".0"
  | negativeZero => "-0.0"

/-- The word for a blend. -/
def BlendType.shown : BlendType → String
  | replace => "replace"
  | alpha => "alpha"
  | add => "add"
  | subtract => "subtract"
  | multiply => "multiply"
  | min => "min"
  | max => "max"

/-- The kind of a node and the texts of its parameters, for each operation. -/
inductive Operation.Labelled : Operation α → String → List (String × String) → Prop
  | texture {t : TextureLookup α} {uvSet srgb : String} : t.uvSet.Shows uvSet → t.srgb.Shows srgb →
    Labelled (.texture t) "Texture"
      [("texture_name", t.textureName), ("texture_path", t.texturePath), ("uv_set", uvSet),
        ("tile_u", Scalar.text t.tileU), ("tile_v", Scalar.text t.tileV),
        ("offset_u", Scalar.text t.offsetU), ("offset_v", Scalar.text t.offsetV), ("srgb", srgb)]
  | color (v : Rgba α) : Labelled (.color v) "Color"
      [("color", " ".intercalate
        [Scalar.text v.red, Scalar.text v.green, Scalar.text v.blue, Scalar.text v.alpha])]
  | swizzle (s : Rgba ComponentLabel) : Labelled (.swizzle s) "Swizzle"
      [("channels", " ".intercalate [s.red.shown, s.green.shown, s.blue.shown, s.alpha.shown])]
  | layeredBlend (blends : List BlendType) : Labelled (.layeredBlend blends) "LayeredBlend"
      [("blend_types", " ".intercalate (blends.map BlendType.shown))]
  | add : Labelled .add "Add" []
  | subtract : Labelled .subtract "Subtract" []
  | multiply : Labelled .multiply "Multiply" []
  | divide : Labelled .divide "Divide" []
  | clamp : Labelled .clamp "Clamp" []
  | pow : Labelled .pow "Pow" []
  | interpolate : Labelled .interpolate "Interpolate" []
  | colorCorrection : Labelled .colorCorrection "ColorCorrection" []

theorem Value.parameterTexts_eq_map (items : List (Value α)) :
    parameterTexts items = items.map parameter := by
  induction items with
  | nil => rfl
  | cons v items ih => rw [parameterTexts, ih, List.map_cons]

theorem Value.parameter_list (items : List (Value α)) :
    (list items).parameter = " ".intercalate (items.map parameter) := by
  rw [parameter, parameterTexts_eq_map]

theorem Value.parameter_list_cons_cons (v w : Value α) (items : List (Value α)) :
    (list (v :: w :: items)).parameter =
      v.parameter ++ " " ++ (list (w :: items)).parameter := by
  simp only [parameter_list, List.map_cons, String.intercalate_cons_cons]

theorem Value.Shows.parameter_eq {v : Value α} {s : String} (h : v.Shows s) : v.parameter = s := by
  induction h with
  | absent | yes | no | integer | number | text | empty | entries => rfl
  | last _ ih => exact ih
  | more _ _ ih ihrest => rw [parameter_list_cons_cons, ih, ihrest]

mutual

theorem Value.shows_parameter (v : Value α) : v.Shows v.parameter := by
  cases v with
  | absent => exact .absent
  | flag b =>
    cases b with
    | true => exact .yes
    | false => exact .no
  | integer n => exact .integer n
  | number a => exact .number a
  | text s => exact .text s
  | list items => exact Value.shows_list items
  | entries items => exact .entries items

theorem Value.shows_list (items : List (Value α)) :
    (Value.list items).Shows (Value.list items).parameter := by
  cases items with
  | nil => exact .empty
  | cons v items =>
    cases items with
    | nil => exact .last v.shows_parameter
    | cons w items =>
      rw [parameter_list_cons_cons]
      exact .more v.shows_parameter (Value.shows_list (w :: items))

end

theorem ComponentLabel.parameter_value (c : ComponentLabel) :
    (c.value : Value α).parameter = c.shown := by
  cases c with
  | index c =>
    have hdigit : toString (c.index : Int) = c.digit := by cases c <;> decide
    exact hdigit
  | flag b => cases b <;> rfl
  | number c =>
    have hdigit : toString c.index = c.digit := by cases c <;> decide
    exact congrArg (· ++ ".0") hdigit
  | negativeZero => rfl

end

/-- The parameters of an operation with their texts. -/
def Operation.texts {α : Type} [Scalar α] (operation : Operation α) : List (String × String) :=
  operation.parameters.map fun (key, value) => (key, value.parameter)

section

variable {α : Type} [Scalar α]

theorem Operation.texts_color (v : Rgba α) : (color v).texts = [("color", " ".intercalate
    [Scalar.text v.red, Scalar.text v.green, Scalar.text v.blue, Scalar.text v.alpha])] := rfl

theorem Operation.texts_swizzle (s : Rgba ComponentLabel) :
    (swizzle s : Operation α).texts = [("channels", " ".intercalate
      [s.red.shown, s.green.shown, s.blue.shown, s.alpha.shown])] := by
  simp [texts, parameters, Value.parameter_list, Rgba.toList, ComponentLabel.parameter_value]

theorem Operation.texts_layeredBlend (blends : List BlendType) :
    (layeredBlend blends : Operation α).texts =
      [("blend_types", " ".intercalate (blends.map BlendType.shown))] := by
  have hshown : (fun blend : BlendType => (Value.text blend.name : Value α).parameter) =
      BlendType.shown := funext fun blend => by cases blend <;> rfl
  simp only [texts, parameters, List.map_cons, List.map_nil, Value.parameter_list, List.map_map,
    Function.comp_def, hshown]

/-- The writer labels every operation. -/
theorem Operation.labelled_iff {operation : Operation α} {kind : String}
    {texts : List (String × String)} :
    operation.Labelled kind texts ↔ operation.kind = kind ∧ operation.texts = texts := by
  constructor
  · intro h
    cases h with
    | texture huvSet hsrgb =>
      rw [← huvSet.parameter_eq, ← hsrgb.parameter_eq]
      exact ⟨rfl, rfl⟩
    | color v => exact ⟨rfl, texts_color v⟩
    | swizzle s => exact ⟨rfl, texts_swizzle s⟩
    | layeredBlend blends => exact ⟨rfl, texts_layeredBlend blends⟩
    | _ => exact ⟨rfl, rfl⟩
  · rintro ⟨rfl, rfl⟩
    cases operation with
    | texture t => exact .texture t.uvSet.shows_parameter t.srgb.shows_parameter
    | color v => exact .color v
    | swizzle s =>
      rw [texts_swizzle]
      exact .swizzle s
    | layeredBlend blends =>
      rw [texts_layeredBlend]
      exact .layeredBlend blends
    | add => exact .add
    | subtract => exact .subtract
    | multiply => exact .multiply
    | divide => exact .divide
    | clamp => exact .clamp
    | pow => exact .pow
    | interpolate => exact .interpolate
    | colorCorrection => exact .colorCorrection

end

theorem Operation.texts_notMem_reserved {α : Type} [Scalar α] (operation : Operation α) :
    ∀ p ∈ operation.texts, p.1 ∉ Sketch.reserved := by
  cases operation <;> simp [texts, parameters, Sketch.reserved]

namespace Network

variable {α : Type} [Scalar α] {net : Network α} {order : List NodeId} {id j : NodeId}

/-! ### What is to be read -/

/-- Nodes carry their places as ids, inputs are numbered from zero and refer to earlier nodes. -/
structure Numbered (nodes : List Element) : Prop where
  id : ∀ {i : Nat} {e : Element}, nodes[i]? = some e → e.get? "id" = some (toString i)
  slot : ∀ e ∈ nodes, ∀ {k : Nat} {c : Element}, e.inputElements[k]? = some c →
    c.get? "slot" = some (toString k)
  ref : ∀ {i : Nat} {e : Element}, nodes[i]? = some e →
    ∀ c ∈ e.inputElements, ∃ j < i, c.get? "ref" = some (toString j)

/-- A sketch of a node under this numbering. -/
structure Sketches (number : NodeId → Nat) (node : Node α) (shown : NodeSketch) : Prop where
  label : node.operation.Labelled shown.kind shown.parameters
  name : shown.name = node.name
  inputs : shown.inputs = node.inputs.map number

/-- A sketch shows the nodes at and below the exits of these channels, each once, and nothing else.
The numbering is the isomorphism. -/
structure Pictured (net : Network α) (channels : List (String × NodeId)) (number : NodeId → Nat)
    (s : Sketch) : Prop where
  same_iff : ∀ {id j}, net.Reachable (channels.map (·.2)) id →
    net.Reachable (channels.map (·.2)) j → (number id = number j ↔ id = j)
  lt_iff : ∀ i, i < s.nodes.length ↔ ∃ id, net.Reachable (channels.map (·.2)) id ∧ number id = i
  node : ∀ id, net.Reachable (channels.map (·.2)) id →
    ∃ node shown, net.get? id = some node ∧ s.nodes[number id]? = some shown ∧
      Sketches number node shown
  exits : s.exits = channels.map fun (channel, exit) => (channel, number exit)

/-- A node as the writer shows it. -/
def sketch (number : NodeId → Nat) (node : Node α) : NodeSketch where
  kind := node.operation.kind
  name := node.name
  parameters := node.operation.texts
  inputs := node.inputs.map number

theorem sketches_sketch (number : NodeId → Nat) (node : Node α) :
    Sketches number node (sketch number node) :=
  ⟨Operation.labelled_iff.mpr ⟨rfl, rfl⟩, rfl, rfl⟩

/-! ### Nodes in their places -/

section

variable {α : Type} {net : Network α} {order : List NodeId} {id : NodeId}

/-- The nodes of `order` with their places in the network. -/
def located (net : Network α) (order : List NodeId) : List (NodeId × Node α) :=
  order.filterMap fun id => (net.get? id).map (id, ·)

theorem get?_of_mem_located {e : NodeId × Node α} (h : e ∈ net.located order) :
    net.get? e.1 = some e.2 := by
  obtain ⟨id, _, hid⟩ := List.mem_filterMap.mp h
  obtain ⟨node, hnode, rfl⟩ := Option.map_eq_some_iff.mp hid
  exact hnode

theorem exists_get? (h : id < net.size) : ∃ node, net.get? id = some node :=
  ⟨net.nodes[id], Array.getElem?_eq_getElem h⟩

theorem map_fst_located (h : ∀ id ∈ order, id < net.size) :
    (net.located order).map (·.1) = order := by
  induction order with
  | nil => rfl
  | cons id order ih =>
    obtain ⟨hid, horder⟩ := List.forall_mem_cons.mp h
    obtain ⟨node, hnode⟩ := exists_get? hid
    rw [located, List.filterMap_cons_some (b := (id, node)) (by simp [hnode]), List.map_cons]
    exact congrArg (id :: ·) (ih horder)

/-- A node is at the place that it has in the order. -/
theorem exists_located (h : ∀ id ∈ order, id < net.size) (hid : id ∈ order) :
    ∃ node, net.get? id = some node ∧
      (net.located order)[order.idxOf id]? = some (id, node) := by
  have hplace : ((net.located order).map (·.1))[order.idxOf id]? = some id := by
    rw [map_fst_located h, List.getElem?_idxOf hid]
  rw [List.getElem?_map] at hplace
  obtain ⟨⟨_, node⟩, he, rfl⟩ := Option.map_eq_some_iff.mp hplace
  exact ⟨node, get?_of_mem_located (List.mem_of_getElem? he), he⟩

/-- The order tells where a node is. -/
theorem idxOf_located (h : ∀ id ∈ order, id < net.size) (hnodup : order.Nodup) {i : Nat}
    {e : NodeId × Node α} (he : (net.located order)[i]? = some e) :
    e.1 ∈ order ∧ order.idxOf e.1 = i := by
  have hplace : order[i]? = some e.1 := by
    rw [← map_fst_located h, List.getElem?_map, he, Option.map_some]
  obtain ⟨hi, hfst⟩ := List.getElem?_eq_some_iff.mp hplace
  rw [← hfst]
  exact ⟨List.getElem_mem hi, hnodup.idxOf_getElem i hi⟩

end

/-! ### Elements of nodes -/

theorem describeNodes_eq_map (order : List NodeId) :
    net.describeNodes order = (net.located order).map fun e => describeNode order e.1 e.2 := by
  simp [describeNodes, located, List.map_filterMap, Function.comp_def]

section

variable (order id) (node : Node α)

theorem get?_type_describeNode :
    (describeNode order id node).get? "type" = some node.operation.kind := rfl

theorem get?_name_describeNode :
    ((describeNode order id node).get? "name").getD "" = node.name := by
  have htexts : node.operation.texts.lookup "name" = none := by
    rw [List.lookup_eq_none_iff]
    intro p hp
    have hne := node.operation.texts_notMem_reserved p hp
    simp only [Sketch.reserved, List.mem_cons, not_or] at hne
    simpa using Ne.symm hne.2.2.1
  change ((_ ++ node.operation.texts).lookup "name").getD "" = node.name
  rw [List.lookup_append, htexts, Option.or_none]
  by_cases hname : node.name = "" <;> simp [hname, List.lookup_cons]

theorem parameters_describeNode :
    (describeNode order id node).attributes.filter (fun a => a.1 ∉ Sketch.reserved) =
      node.operation.texts := by
  have htexts : node.operation.texts.filter (fun a => a.1 ∉ Sketch.reserved) =
      node.operation.texts := by
    rw [List.filter_eq_self]
    exact fun p hp => decide_eq_true (node.operation.texts_notMem_reserved p hp)
  change (_ ++ node.operation.texts).filter _ = node.operation.texts
  rw [List.filter_append, htexts]
  by_cases hname : node.name.isEmpty <;> simp [hname, Sketch.reserved]

theorem inputElements_describeNode :
    (describeNode order id node).inputElements = node.inputs.zipIdx.map fun (input, slot) =>
      .mk "Input" [("slot", toString slot), ("ref", written order input)] [] := by
  apply List.filter_eq_self.mpr
  intro e he
  obtain ⟨_, _, rfl⟩ := List.mem_map.mp he
  rfl

end

/-! ### Reading back -/

theorem mapM_eq_some_map {β γ : Type} {f : β → Option γ} {g : β → γ} {l : List β}
    (h : ∀ a ∈ l, f a = some (g a)) : l.mapM f = some (l.map g) := by
  induction l with
  | nil => rfl
  | cons a l ih =>
    obtain ⟨ha, hl⟩ := List.forall_mem_cons.mp h
    simp [ha, ih hl]

theorem toString_inj {m n : Nat} : toString m = toString n ↔ m = n := by
  constructor
  · intro h
    have hdigits : Nat.toDigits 10 m = Nat.toDigits 10 n := by
      simpa using congrArg String.toList h
    simpa using congrArg (fun ds => Nat.ofDigitChars 10 ds 0) hdigits
  · exact congrArg toString

theorem written_inj (hid : id ∈ order) : written order id = written order j ↔ id = j := by
  rw [written, written, toString_inj, List.idxOf_inj hid]

theorem idxOf?_map {β γ : Type} [DecidableEq β] [DecidableEq γ] {f : β → γ} {b : β} {l : List β}
    (hb : b ∈ l) (hinj : ∀ a ∈ l, f a = f b → a = b) :
    (l.map f).idxOf? (f b) = some (l.idxOf b) := by
  induction l with
  | nil => simp at hb
  | cons a l ih =>
    obtain ⟨ha, hl⟩ := List.forall_mem_cons.mp hinj
    rw [List.map_cons, List.idxOf?_cons, List.idxOf_cons]
    by_cases hab : a = b
    · simp [hab]
    · have hmem : b ∈ l := by simpa [Ne.symm hab] using hb
      have hne : f a ≠ f b := fun h => hab (ha h)
      have hbeq : (a == b) = false := by simpa using hab
      simp [hbeq, hne, ih hmem hl]

/-- The id of a written node leads back to its place. -/
theorem idxOf?_written (hid : id ∈ order) :
    (order.map (written order)).idxOf? (written order id) = some (order.idxOf id) :=
  idxOf?_map hid fun _ hj h => (written_inj hj).mp h

theorem place?_written {key : String} {e : Element} (hid : id ∈ order)
    (he : e.get? key = some (written order id)) :
    Sketch.place? (order.map (written order)) key e = some (order.idxOf id) := by
  simp [Sketch.place?, he, idxOf?_written hid]

theorem node?_describeNode {node : Node α} (hinputs : ∀ j ∈ node.inputs, j ∈ order) (id : NodeId) :
    Sketch.node? (order.map (written order)) (describeNode order id node) =
      some (sketch order.idxOf node) := by
  have hplaces : (describeNode order id node).inputElements.mapM
      (Sketch.place? (order.map (written order)) "ref") = some (node.inputs.map order.idxOf) := by
    rw [inputElements_describeNode, List.mapM_map,
      mapM_eq_some_map (g := fun entry => order.idxOf entry.1)]
    · conv_rhs => rw [← List.zipIdx_map_fst 0 node.inputs, List.map_map]
      rfl
    · rintro ⟨input, slot⟩ hentry
      exact place?_written (hinputs input (List.fst_mem_of_mem_zipIdx hentry)) rfl
  simp only [Sketch.node?, get?_type_describeNode, get?_name_describeNode, hplaces,
    parameters_describeNode]
  rfl

/-! ### Whole descriptions -/

section

variable (name : String) (identity : Option String) (channels : List (String × NodeId))

theorem nodeElements_describe : (net.describe name identity channels).nodeElements =
    net.describeNodes (net.reachable (channels.map (·.2))) := by
  have hchannels (order : List NodeId) : (channels.map fun (channel, exit) =>
      Element.mk "Channel" [("name", channel), ("exit", written order exit)] []).filter
        (fun c => c.tag = "Nodes") = [] := by
    rw [List.filter_eq_nil_iff]
    intro e he
    obtain ⟨_, _, rfl⟩ := List.mem_map.mp he
    exact Bool.false_ne_true
  have hnodes (order : List NodeId) :
      (net.describeNodes order).filter (fun c => c.tag = "Node") = net.describeNodes order := by
    rw [describeNodes_eq_map, List.filter_eq_self]
    intro e he
    obtain ⟨_, _, rfl⟩ := List.mem_map.mp he
    rfl
  rw [Element.nodeElements, Element.tagged, describe, Element.children, List.filter_cons_of_pos rfl,
    hchannels, List.flatMap_singleton]
  exact hnodes _

theorem channelElements_describe : (net.describe name identity channels).channelElements =
    channels.map fun (channel, exit) => .mk "Channel" [("name", channel),
      ("exit", written (net.reachable (channels.map (·.2))) exit)] [] := by
  simp [Element.channelElements, Element.tagged, describe, Element.children, Element.tag,
    List.filter_map, Function.comp_def]

end

theorem numbered_describeNodes (h : net.Ordered order) (hlt : ∀ id ∈ order, id < net.size) :
    Numbered (net.describeNodes order) := by
  rw [describeNodes_eq_map]
  constructor
  · intro i e he
    rw [List.getElem?_map] at he
    obtain ⟨⟨id, node⟩, hplace, rfl⟩ := Option.map_eq_some_iff.mp he
    have hi := (idxOf_located hlt h.nodup hplace).2
    exact congrArg (fun i => some (toString i)) hi
  · intro e he k c hc
    obtain ⟨⟨id, node⟩, _, rfl⟩ := List.mem_map.mp he
    rw [inputElements_describeNode, List.getElem?_map] at hc
    obtain ⟨⟨input, slot⟩, hslot, rfl⟩ := Option.map_eq_some_iff.mp hc
    have hk : slot = k := by simp at hslot; omega
    exact congrArg (fun i => some (toString i)) hk
  · intro i e he c hc
    rw [List.getElem?_map] at he
    obtain ⟨⟨id, node⟩, hplace, rfl⟩ := Option.map_eq_some_iff.mp he
    obtain ⟨hid, hi⟩ := idxOf_located hlt h.nodup hplace
    rw [inputElements_describeNode] at hc
    obtain ⟨⟨input, slot⟩, hslot, rfl⟩ := List.mem_map.mp hc
    have hnode := get?_of_mem_located (List.mem_of_getElem? hplace)
    have hinput : input ∈ net.inputs id := by
      rw [inputs_of_get? hnode]
      exact List.fst_mem_of_mem_zipIdx hslot
    exact ⟨order.idxOf input, hi ▸ (h.idxOf_lt hid hinput).2, rfl⟩

theorem mapM_id_describeNodes (h : ∀ id ∈ order, id < net.size) :
    (net.describeNodes order).mapM (·.get? "id") = some (order.map (written order)) := by
  have hids := mapM_eq_some_map (f := fun e => (describeNode order e.1 e.2).get? "id")
    (g := fun e => written order e.1) (l := net.located order) fun _ _ => rfl
  conv_rhs at hids => rw [← Function.comp_def, ← List.map_map, map_fst_located h]
  rwa [describeNodes_eq_map, List.mapM_map]

theorem mapM_node?_describeNodes (h : net.Ordered order) (hlt : ∀ id ∈ order, id < net.size) :
    (net.describeNodes order).mapM (Sketch.node? (order.map (written order))) =
      some ((net.located order).map fun e => sketch order.idxOf e.2) := by
  rw [describeNodes_eq_map, List.mapM_map]
  apply mapM_eq_some_map
  rintro ⟨id, node⟩ he
  obtain ⟨i, hi⟩ := List.getElem?_of_mem he
  have hid := (idxOf_located hlt h.nodup hi).1
  apply node?_describeNode
  intro j hj
  rw [← inputs_of_get? (get?_of_mem_located he)] at hj
  exact (h.idxOf_lt hid hj).1

theorem mapM_exit?_describe {channels : List (String × NodeId)} (h : ∀ c ∈ channels, c.2 ∈ order) :
    (channels.map fun (channel, exit) => Element.mk "Channel" [("name", channel),
      ("exit", written order exit)] []).mapM (Sketch.exit? (order.map (written order))) =
        some (channels.map fun (channel, exit) => (channel, order.idxOf exit)) := by
  rw [List.mapM_map]
  apply mapM_eq_some_map
  rintro ⟨channel, exit⟩ hc
  have hplace : Sketch.place? (order.map (written order)) "exit" (.mk "Channel"
      [("name", channel), ("exit", written order exit)] []) = some (order.idxOf exit) :=
    place?_written (h _ hc) rfl
  simp only [Function.comp, Sketch.exit?, hplace]
  rfl

/-! ### Faithfulness -/

/-- What can be read off a description is the network it was written from. -/
structure Faithful (net : Network α) (channels : List (String × NodeId)) (e : Element) : Prop where
  numbered : Numbered e.nodeElements
  exits : ∀ c ∈ e.channelElements, ∃ i < e.nodeElements.length, c.get? "exit" = some (toString i)
  pictured : ∃ s number, Sketch.ofElement? e = some s ∧ s.nodes.length = e.nodeElements.length ∧
    Pictured net channels number s

/-- The nodes of `order` and the exits of the channels, by their places in that order. -/
def drawn (net : Network α) (order : List NodeId) (channels : List (String × NodeId)) : Sketch where
  nodes := (net.located order).map fun e => sketch order.idxOf e.2
  exits := channels.map fun (channel, exit) => (channel, order.idxOf exit)

theorem length_drawn (h : ∀ id ∈ order, id < net.size) (channels : List (String × NodeId)) :
    (net.drawn order channels).nodes.length = order.length := by
  conv_rhs => rw [← map_fst_located h, List.length_map]
  exact List.length_map _

variable {channels : List (String × NodeId)}

theorem ofElement?_describe (name : String) (identity : Option String)
    (h : ∀ c ∈ channels, c.2 < net.size) :
    Sketch.ofElement? (net.describe name identity channels) =
      some (net.drawn (net.reachable (channels.map (·.2))) channels) := by
  have hlt := lt_size_of_mem_reachable (List.forall_mem_map.mpr h)
  have hnodes := mapM_node?_describeNodes (ordered_reachable (channels.map (·.2))) hlt
  have hexits := mapM_exit?_describe (exit_mem_reachable net channels)
  simp only [Sketch.ofElement?, nodeElements_describe, channelElements_describe,
    mapM_id_describeNodes hlt, Option.bind_eq_bind, Option.bind_some, hnodes, hexits]
  rfl

theorem pictured_drawn (h : net.Ordered order) (hlt : ∀ id ∈ order, id < net.size)
    (hmem : ∀ id, id ∈ order ↔ net.Reachable (channels.map (·.2)) id) :
    Pictured net channels order.idxOf (net.drawn order channels) := by
  constructor
  · intro id j hid _
    exact List.idxOf_inj ((hmem id).mpr hid)
  · intro i
    rw [length_drawn hlt]
    constructor
    · intro hi
      exact ⟨order[i], (hmem _).mp (List.getElem_mem hi), h.nodup.idxOf_getElem i hi⟩
    · rintro ⟨id, hid, rfl⟩
      exact List.idxOf_lt_length_of_mem ((hmem id).mpr hid)
  · intro id hid
    obtain ⟨node, hnode, hplace⟩ := exists_located hlt ((hmem id).mpr hid)
    refine ⟨node, sketch order.idxOf node, hnode, ?_, sketches_sketch _ node⟩
    rw [drawn, List.getElem?_map, hplace, Option.map_some]
  · rfl

/-- The description of a material determines what is at and below its exits: every such node is
written once, behind its inputs, and is the same as another one exactly when their ids are. -/
theorem describe_faithful (net : Network α) (name : String) (identity : Option String)
    (channels : List (String × NodeId)) (h : ∀ c ∈ channels, c.2 < net.size) :
    Faithful net channels (net.describe name identity channels) := by
  have hordered : net.Ordered (net.reachable (channels.map (·.2))) := ordered_reachable _
  have hlt := lt_size_of_mem_reachable (List.forall_mem_map.mpr h)
  have hlength : (net.describeNodes (net.reachable (channels.map (·.2)))).length =
      (net.reachable (channels.map (·.2))).length := by
    rw [describeNodes_eq_map, List.length_map, ← length_drawn hlt channels]
    exact (List.length_map _).symm
  constructor
  · rw [nodeElements_describe]
    exact numbered_describeNodes hordered hlt
  · intro c hc
    rw [channelElements_describe] at hc
    obtain ⟨⟨channel, exit⟩, hexit, rfl⟩ := List.mem_map.mp hc
    have hplace := List.idxOf_lt_length_of_mem (exit_mem_reachable net channels _ hexit)
    rw [nodeElements_describe, hlength]
    exact ⟨_, hplace, rfl⟩
  · refine ⟨_, _, ofElement?_describe name identity h, ?_, pictured_drawn hordered hlt ?_⟩
    · rw [nodeElements_describe, hlength, length_drawn hlt]
    · exact fun id => mem_reachable_iff

/-- A color that one product uses twice, and another color. -/
def products : Network Float :=
  ((((∅ : Network Float).insert { operation := .color ⟨0.5, 0.25, 0.125, 1.0⟩, inputs := [] }).insert
    { operation := .multiply, inputs := [0, 0], name := "square" }).insert
    { operation := .color ⟨1.0, 1.0, 1.0, 1.0⟩, inputs := [] }).insert
    { operation := .multiply, inputs := [1, 0], name := "cube" }

def tiles : List (String × NodeId) := [("base", 3), ("bump", 0), ("glow", 3)]

/-- The other color is not written, and the last product is the exit of two channels. -/
theorem describe_faithful_tiles :
    (∀ c ∈ tiles, c.2 < products.size) ∧
      Faithful products tiles (products.describe "tiles" (some "a") tiles) := by
  have hexits : ∀ c ∈ tiles, c.2 < products.size := by decide +kernel
  exact ⟨hexits, describe_faithful products "tiles" (some "a") tiles hexits⟩

end Network

end ShadeGraph
