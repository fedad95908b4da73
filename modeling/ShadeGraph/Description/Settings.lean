import ShadeGraph.Exchange.Disk
import ShadeGraph.Exchange.Progress
import ShadeGraph.Session.Context
import ShadeGraph.Text.Reading

/-!
# Settings in descriptions

Settings of a user are described by an object; what it leaves out has its usual value.
-/

namespace ShadeGraph

open Json (ReadError)

def Options.ofJson? (j : Json) : Except ReadError (Options Float) := do
  let d : Options Float := .standard
  return {
    time := ← j.numberAt "time" d.time
    defaultSrgb := j.valueAt "default_srgb" d.defaultSrgb
    defaultMappingChannel := j.valueAt "default_mapping_channel" d.defaultMappingChannel
    allowUnsafe := j.flagAt "allow_unsafe_import" d.allowUnsafe
    versioned := j.flagAt "versioned_attachment" d.versioned
    useColorOverrides := j.flagAt "use_material_colors_override" d.useColorOverrides }

def Scope.ofJson (j : Json) : Scope where
  material := j.textAt "material_name"
  channel := j.textAt "channel_name"
  isOpacity := j.flagAt "is_opacity" false
  premultiply := j.flagAt "premultiply" true

/-- A policy whose parts stand under these keys. -/
def RetryPolicy.ofJson? (j : Json) (limit delay maxDelay : String) :
    Except ReadError (RetryPolicy Float) := do
  let d : RetryPolicy Float := .standard
  return {
    limit := j.valueAt limit d.limit
    delay := ← j.numberAt delay d.delay
    maxDelay := ← j.numberAt maxDelay d.maxDelay }

/-- A failure of a disk. -/
def FileError.ofJson (j : Json) : FileError where
  code := (j.get "errno").toValue.whole?
  message := describe (j.textAt "errno") (j.textAt "text")
  sharing := (j.get "winerror").toValue.whole?

/-- The size of a buffer for messages under a key; at most one message need not be a whole number. -/
def Json.bufferSizeAt (j : Json) (key : String) : Except BufferError Int :=
  let whole (size : Int) : Except BufferError Int :=
    if ProcessingState.fits size then .ok size else .error .tooLarge
  match j.valueAt key (.integer 64) with
  | .flag b => whole (if b then 1 else 0)
  | .integer n => whole n
  | .number x => if Scalar.lt 1.0 x then .error .fraction else .ok 1
  | size => .error (.unordered size.kindName)

end ShadeGraph
