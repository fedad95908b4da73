import ShadeGraph.Exchange.Timer
import ShadeGraph.Session.Journal
import ShadeGraph.Table
import ShadeGraph.Text.Path
import ShadeGraph.Text.Value

/-!
# Copying files

Other programs hold texture files open for short times, so a copy that fails because a file is in use
is made again after a delay. The delay doubles up to a bound, and the number of further attempts is
bounded too. Any other failure is final, and so are a delay that a clock refuses and a bound that is
no number. Before all attempts the directory of the copy is made, and it is final as well if that
cannot be.

Several paths may lead to one file: where they lead is told by a tree of files, together with what the
system refuses on its own. All other failures wait for the file that is to be copied.
-/

namespace ShadeGraph

/-- What a file system says about a failure. -/
structure FileError where
  /-- The code, if it is a whole number. -/
  code : Option Int
  message : String
  /-- The code of a sharing or lock violation, on systems that have such. -/
  sharing : Option Int := none
deriving DecidableEq, Repr

namespace FileError

def describe (code text : String) : String := s!"[Errno {code}] {text}"

def ofCode (code : Int) (text : String) : FileError := ⟨some code, describe (toString code) text, none⟩

/-- The codes for a busy resource and for a program text in use. -/
def busyCodes : List Int := [16, 26]

/-- The codes for a sharing violation and for a lock violation. -/
def sharingCodes : List Int := [32, 33]

/-- Whether the file is held by another program. -/
def isInUse (e : FileError) : Bool :=
  e.sharing.any sharingCodes.contains || e.code.any busyCodes.contains

def missing : FileError := ofCode 2 "No such file or directory"

/-- A file is to be copied onto itself; there is no code for that. -/
def sameFile (source destination : String) : FileError where
  code := none
  message := s!"{Text.quoted source} and {Text.quoted destination} are the same file"

end FileError

/-- Where paths lead to. -/
structure FileTree where
  /-- The file that a path leads to, whether it is there or not. -/
  place : String → String
  /-- Whether a path leads anywhere once these directories were made. -/
  reaches : List String → String → Bool
  /-- Why a directory cannot be made among these files. -/
  refuses? : List String → String → Option FileError
  /-- Whether it is noticed that a file is to be copied onto itself. -/
  guarded : Bool
  /-- A path with the name of a directory does not lead to where other paths lead. -/
  named : ∀ {path other}, place path = place other → Text.fileName path ∈ ["", ".", ".."] →
    Text.fileName other ∈ ["", ".", ".."]
  reaches_of_subset : ∀ {made later path}, made ⊆ later → reaches made path = true →
    reaches later path = true
  /-- Only the directory of a file is needed for a path to lead there. -/
  reaches_of_mem : ∀ {made path}, Text.directoryName path ∈ "" :: made → reaches made path = true

/-- Every path is that of a file of its own, and nothing is refused. -/
def FileTree.flat : FileTree where
  place path := path
  reaches _ _ := true
  refuses? _ _ := none
  guarded := false
  named h hname := h ▸ hname
  reaches_of_subset _ _ := rfl
  reaches_of_mem _ := rfl

/-- The files at their places in a tree, the failures that wait for the next copies of a file, and what
was done. -/
structure Disk where
  files : List String := []
  failures : Table String (List FileError) := []
  made : List String := []
  copies : List (String × String) := []
  tree : FileTree := .flat

namespace Disk

variable (disk : Disk)

def isFile (path : String) : Bool :=
  disk.tree.reaches disk.made path && disk.files.contains (disk.tree.place path)

/-- The disk with the directory of a path, if that can be made. -/
def prepare? (path : String) : Except FileError Disk :=
  let directory := Text.directoryName path
  if directory.isEmpty then .ok disk
  else
    match disk.tree.refuses? disk.files directory with
    | some e => .error e
    | none => .ok { disk with made := disk.made ++ [directory] }

/-- The failures that wait for the next attempts to copy a file. -/
def waiting (source : String) : List FileError := (disk.failures.get? source).getD []

def setWaiting (source : String) (failures : List FileError) : Disk :=
  { disk with failures := disk.failures.insert source failures }

/-- Why a file cannot be copied, apart from the failures that wait for it. -/
def refuses? (source destination : String) : Option FileError :=
  if !disk.isFile source then some .missing
  else if disk.tree.guarded && disk.tree.place source == disk.tree.place destination then
    some (.sameFile source destination)
  else none

/-- The disk with a copy of a file in a directory that is there, if the file can be copied. -/
def copy? (source destination : String) : Except FileError Disk :=
  match disk.refuses? source destination with
  | some e => .error e
  | none =>
    let place := disk.tree.place destination
    .ok { disk with
      files := if disk.files.contains place then disk.files else disk.files ++ [place]
      copies := disk.copies ++ [(source, destination)] }

end Disk

/-- Why a texture was not copied. -/
inductive CopyError where
  /-- The directory of the copy cannot be made. -/
  | directory (e : FileError)
  | failed (source destination : String) (e : FileError)
  | inUse (source limit : String) (e : FileError)
  | delay (e : DelayError)
  /-- The bound on further attempts is of a kind that has no order. -/
  | unordered (kind : String)
  /-- What should be a path is no text. -/
  | path (kind : String)
deriving DecidableEq, Repr

def CopyError.message : CopyError → String
  | directory e => e.message
  | failed source destination e =>
    s!"Unable to copy texture {source} to {destination}: {e.message}"
  | inUse source limit e =>
    s!"Texture {source} is still in use after {limit} retries: {e.message}"
  | delay e => e.message
  | unordered kind => s!"'>=' not supported between instances of 'int' and '{kind}'"
  | path kind => s!"expected str, bytes or os.PathLike object, not {kind}"

/-- The path that a value is. -/
def Value.path? {α : Type} : Value α → Except CopyError String
  | text s => .ok s
  | v => .error (.path v.kindName)

/-- How often and after which delays a copy is made again. -/
structure RetryPolicy (α : Type) where
  limit : Value α := .integer 10
  delay : α
  maxDelay : α

def RetryPolicy.standard {α : Type} [OfScientific α] : RetryPolicy α :=
  { delay := 0.1, maxDelay := 2.0 }

/-- Whether a number of further attempts reaches the limit, if that is a number. -/
def RetryPolicy.isReached? {α : Type} [Scalar α] (policy : RetryPolicy α) (retries : Nat) :
    Option Bool :=
  match policy.limit with
  | .number x => some (Scalar.le x retries)
  | limit => limit.whole?.map (· ≤ (retries : Int))

/-- A disk with the delays that were written down and the messages on the way. -/
structure Workbench (α : Type) where
  disk : Disk := {}
  timer : Timer := .record
  sleeps : List α := []
  journal : Journal := {}

namespace Workbench

variable {α : Type} [Scalar α]

def log (f : Journal → Journal) : StateM (Workbench α) Unit :=
  modify fun w => { w with journal := f w.journal }

def change (f : Disk → Disk) : StateM (Workbench α) Unit :=
  modify fun w => { w with disk := f w.disk }

/-- Waits, or tells why that cannot be. -/
def sleep (delay : α) : StateM (Workbench α) (Option DelayError) :=
  modifyGet fun w =>
    (w.timer.refuses? delay,
      if w.timer = .record then { w with sleeps := w.sleeps ++ [delay] } else w)

def copiedText (source destination : String) : String :=
  s!"Copied texture {source} -> {destination}"

def failedText (source : String) (e : FileError) : String :=
  s!"Unable to copy texture {source}: {e.message}"

def stillInUseText (source limit : String) : String :=
  s!"Texture {source} is still in use after {limit} retries"

def retryText (source : String) (delay : α) (number : Nat) (limit : String) : String :=
  s!"Texture {source} is in use, retrying in {Scalar.fixedText 2 delay}s ({number}/{limit})"

/-- Copies a file that no failure waits for. -/
def copyNow (source destination : String) : StateM (Workbench α) (Except CopyError Unit) := do
  match (← get).disk.copy? source destination with
  | .ok disk =>
    change fun _ => disk
    log (·.debug (copiedText source destination))
    return .ok ()
  | .error e =>
    log (·.error (failedText source e))
    return .error (.failed source destination e)

/-- Copies a file against the failures that wait for it. Some further attempts were made before, and
the next one is due after `delay`. -/
def copyAgainst (policy : RetryPolicy α) (source destination : String) :
    List FileError → Nat → α → StateM (Workbench α) (Except CopyError Unit)
  | [], _, _ => copyNow source destination
  | e :: failures, retries, delay => do
    let limit := policy.limit.display
    change (·.setWaiting source failures)
    if !e.isInUse then
      log (·.error (failedText source e))
      return .error (.failed source destination e)
    else
      match policy.isReached? retries with
      | none => return .error (.unordered policy.limit.kindName)
      | some true =>
        log (·.error (stillInUseText source limit))
        return .error (.inUse source limit e)
      | some false =>
        log (·.warn (retryText source delay (retries + 1) limit))
        match ← sleep delay with
        | some e => return .error (.delay e)
        | none =>
          copyAgainst policy source destination failures (retries + 1)
            (Scalar.smaller (delay * 2.0) policy.maxDelay)

/-- Copies a file into a directory that is made first. A limit below zero allows no retries. -/
def copy (policy : RetryPolicy α) (source destination : String) :
    StateM (Workbench α) (Except CopyError Unit) := do
  match (← get).disk.prepare? destination with
  | .error e => return .error (.directory e)
  | .ok disk =>
    change fun _ => disk
    copyAgainst policy source destination (disk.waiting source) 0 policy.delay

end Workbench

end ShadeGraph
