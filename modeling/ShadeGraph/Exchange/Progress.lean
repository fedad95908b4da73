import ShadeGraph.Number.Scalar

/-!
# Progress of an engine

An engine reports its progress in percent and logs messages while another thread polls. Between them
stands a state whose buffer of messages is bounded: the oldest message is dropped, and counted, when
a new one finds it full.
-/

namespace ShadeGraph

/-- Why there is no buffer of a size. -/
inductive BufferError where
  | tooLarge
  /-- More than one message, but no whole number of them. -/
  | fraction
  /-- Something that cannot be compared with a whole number. -/
  | unordered (kind : String)
deriving DecidableEq, Repr

def BufferError.message : BufferError → String
  | tooLarge => "The message buffer is too large"
  | fraction => "an integer is required"
  | unordered kind => s!"'>' not supported between instances of '{kind}' and 'int'"

/-- What an engine has reported so far. -/
structure ProcessingState (α ρ : Type) where
  limit : Nat
  progress : α
  messages : List String := []
  dropped : Nat := 0
  result : Option ρ := none
  exception : Option String := none
  finished : Bool := false

namespace ProcessingState

variable {α ρ : Type} [Scalar α]

/-- Whether a buffer of this size can be had: sizes are words of 64 bits with a sign. -/
def fits (size : Int) : Bool := size < 9223372036854775808

/-- Nothing reported yet. The buffer holds at least one message. -/
def start (size : Int) : ProcessingState α ρ := { limit := max 1 size.toNat, progress := 0.0 }

/-- Into the range from 0 to 100. -/
def percent (value : α) : α := Scalar.smaller (Scalar.larger value 0.0) 100.0

variable (s : ProcessingState α ρ)

/-- Raises the progress; it never goes back. -/
def setProgress (value : α) : ProcessingState α ρ :=
  { s with progress := Scalar.larger s.progress (percent value) }

def addLog (text : String) : ProcessingState α ρ :=
  if s.messages.length = s.limit then
    { s with messages := s.messages.tail ++ [text], dropped := s.dropped + 1 }
  else { s with messages := s.messages ++ [text] }

def finish (result : ρ) : ProcessingState α ρ :=
  { s with result := some result, progress := 100.0, finished := true }

def fail (text : String) : ProcessingState α ρ :=
  { s with exception := some text, finished := true }

/-- Takes all buffered messages. -/
def drain : List String × ProcessingState α ρ := (s.messages, { s with messages := [] })

end ProcessingState

end ShadeGraph
