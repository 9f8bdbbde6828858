/-!
# The log

Every part of the program reports what it does as messages. A message goes to standard error if
the level in force, and the level of its source, show its channel.

Lines are folded: `Accumulator` holds the last line back until a different one arrives or it is
flushed, and counts how often it was repeated meanwhile. Each thread has an accumulator of its own.

* `Message` — what is reported, by whom and on which channel.
* `Line` — a message once it is known where it goes, if anywhere.
* `Row` — what is printed: a line and how often it occurred.

Lines and rows may go to sinks of any kind; the program has two (`Sink`).
-/

namespace Disasm.Log

/-- The parts of the program that report. -/
inductive Source
  | file | image | terminal | workers | decoder
deriving DecidableEq, Inhabited

/-- Whether a message tells of progress or of a failure. -/
inductive Channel
  | info | error
deriving DecidableEq, Inhabited

/-- How much is shown. -/
inductive Level
  | none | errors | errorsAndInfo
deriving DecidableEq, Inhabited

/-- Where the program prints its rows. -/
inductive Sink
  | standardOutput | standardError
deriving DecidableEq, Inhabited

def Level.shows : Level → Channel → Bool
  | none, _ => false
  | errors, channel => channel == .error
  | errorsAndInfo, _ => true

/-- The lesser of two levels. -/
def Level.min : Level → Level → Level
  | none, _ | _, none => none
  | errors, _ | _, errors => errors
  | errorsAndInfo, errorsAndInfo => errorsAndInfo

namespace Source

/-- The most that a source shows, whatever the level in force: workers report failures only. -/
def level : Source → Level
  | workers => .errors
  | _ => .errorsAndInfo

/-- The name printed in brackets before the messages of a source. The terminal has none. -/
def name? : Source → Option String
  | file => some "File"
  | image => some "PE"
  | terminal => Option.none
  | workers => some "Workers"
  | decoder => some "x86"

end Source

/-! ## Messages and lines -/

/-- Something reported. -/
structure Message where
  source : Source
  channel : Channel
  text : String
deriving DecidableEq, Inhabited

/-- A line on its way to a sink; without one it is discarded. -/
structure Line (σ : Type := Sink) where
  source : Source
  sink : Option σ
  text : String
deriving DecidableEq, Inhabited

/-- Messages that are shown go to standard error, and so leave standard output alone. -/
def Message.line (m : Message) (level : Level) : Line :=
  let shown := (level.min m.source.level).shows m.channel
  ⟨m.source, if shown then some .standardError else none, m.text⟩

/-! ## Rows -/

/-- A printed row: a line and how often it occurred. -/
structure Row (σ : Type := Sink) where
  source : Source
  sink : σ
  text : String
  count : Nat
deriving DecidableEq, Inhabited

section

variable {σ : Type}

/-- The characters of a row. The count is shown only if the line was repeated. -/
def Row.render (r : Row σ) : String :=
  let lead := match r.source.name? with
    | some name => "[" ++ name ++ "] "
    | none => ""
  let trail := if 1 < r.count then " [* " ++ toString r.count ++ "]" else ""
  lead ++ r.text ++ trail ++ "\n"

/-! ## Folding -/

/-- The last line and how often it has occurred. The empty text stands for no line at all, so
empty lines are never printed. -/
structure Accumulator (σ : Type := Sink) where
  text : String := ""
  source : Source := .file
  sink : Option σ := none
  count : Nat := 0
deriving DecidableEq, Inhabited

/-- What happens to an accumulator. -/
inductive Event (σ : Type := Sink)
  | line (l : Line σ)
  | flush
deriving DecidableEq, Inhabited

namespace Accumulator

/-- The row to print for the line held back, if there is one. -/
def row? (a : Accumulator σ) : Option (Row σ) :=
  match a.sink with
  | some sink => if a.text = "" then none else some ⟨a.source, sink, a.text, a.count⟩
  | none => none

/-- Prints the line held back. -/
def flush (a : Accumulator σ) : Option (Row σ) × Accumulator σ :=
  match a.row? with
  | some r => (some r, { a with text := "", count := 0 })
  | none => (none, a)

variable [DecidableEq σ]

/-- Takes a line: one more of the line held back, or else that line is printed and the new one is
held. Discarded lines leave no trace. -/
def append (a : Accumulator σ) (l : Line σ) : Option (Row σ) × Accumulator σ :=
  match l.sink with
  | none => (none, a)
  | some _ =>
    if l.text = a.text ∧ l.source = a.source ∧ l.sink = a.sink then
      (none, { a with count := a.count + 1 })
    else (a.flush.1, ⟨l.text, l.source, l.sink, 1⟩)

def step (a : Accumulator σ) : Event σ → Option (Row σ) × Accumulator σ
  | .line l => a.append l
  | .flush => a.flush

/-- The rows printed in the course of some events. -/
def run (a : Accumulator σ) : List (Event σ) → List (Row σ) × Accumulator σ
  | [] => ([], a)
  | e :: es =>
    let (row, a) := a.step e
    let (rows, a) := a.run es
    (row.toList ++ rows, a)

end Accumulator

end

/-- The rows of a thread that reports these messages and ends. -/
def rowsOfThread (level : Level) (messages : List Message) : List Row :=
  (({} : Accumulator).run (messages.map (fun m => .line (m.line level)) ++ [.flush])).1

/-- What the rows look like one after the other. -/
def renderRows (rows : List Row) : String := String.join (rows.map Row.render)

end Disasm.Log
