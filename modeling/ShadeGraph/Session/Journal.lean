import ShadeGraph.Text.Value

/-!
# Messages

What a session has to say goes to the console or to a reporter of the host. A reporter that fails
leaves the message to the console. Debug lines are shown only on request. A script may report values
of any kind; the console shows their texts.
-/

namespace ShadeGraph

inductive Level where
  | debug
  | warning
  | error
deriving DecidableEq, Repr

namespace Level

/-- The level that a reporter's name for it stands for; all other labels count as debug. -/
def ofLabel {α : Type} : Value α → Level
  | .text "ERROR" => error
  | .text "WARNING" => warning
  | _ => debug

def heading : Level → String
  | debug => ""
  | warning => "WARNING: "
  | error => "ERROR: "

end Level

/-- A line on the console. -/
structure Line where
  level : Level
  text : String
deriving DecidableEq, Repr

def Line.render (line : Line) : String := line.level.heading ++ line.text ++ "\n"

/-- What is reported to the host. -/
abbrev Message := Value Float

/-- What the host listens with. -/
inductive Reporter where
  | none
  | collecting
  | failing
deriving DecidableEq, Repr

/-- The lines printed and the messages reported so far. -/
structure Journal where
  console : Array Line := #[]
  /-- The messages with the labels of their levels. -/
  reports : Array (Value Float × Message) := #[]

namespace Journal

def print (j : Journal) (level : Level) (text : String) : Journal :=
  { j with console := j.console.push ⟨level, text⟩ }

def debug (j : Journal) (text : String) : Journal := j.print .debug text

def warn (j : Journal) (text : String) : Journal := j.print .warning text

def error (j : Journal) (text : String) : Journal := j.print .error text

/-- Hands a message to the reporter, or else prints it. -/
def report (j : Journal) (reporter : Reporter) (level : Value Float) (message : Message) : Journal :=
  match reporter with
  | .collecting => { j with reports := j.reports.push (level, message) }
  | .none | .failing => j.print (Level.ofLabel level) message.display

/-- What stands on the console; debug lines count only if `verbose`. -/
def render (j : Journal) (verbose : Bool) : String :=
  String.join
    ((j.console.toList.filter fun line => verbose || line.level != .debug).map Line.render)

end Journal

end ShadeGraph
