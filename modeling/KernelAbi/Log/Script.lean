import KernelAbi.Log.Line

/-! Scripted use of the log: each step says what is done, and its answer what the caller sees. -/
namespace KernelAbi.Log

inductive Step where
  | emit (text : String)
  | emitTimes (text : String) (times : Nat)
  | emitNumber (value : UInt64)
  | endLine
  | lead (mark : String)
  | print (line : Line)
  | contains (needle : Bytes)
  | read (size : Nat) (out : Buffer size)
  | setConsole (console : Console)
  | clearConsole
  | console
deriving Repr

def Step.Answer : Step → Type
  | .contains _ => Bool
  | .read size _ => Nat × Buffer size
  | .setConsole _ | .clearConsole | .console => Option Console
  | _ => Unit

/-- The answer of a step, and the log after it. -/
def perform (log : Log) : (step : Step) → step.Answer × Log
  | .emit text => ((), log.emitText text)
  | .emitTimes text times => ((), log.emitAll (List.replicate times text))
  | .emitNumber value => ((), log.emitText (numeral value))
  | .endLine => ((), log.emitText "\n")
  | .lead mark => ((), log.emitAll (leader mark))
  | .print line => ((), log.print line)
  | .contains needle => (log.ring.contains needle, log)
  | .read _ out => (log.ring.copyTo out, log)
  | .setConsole console => log.setConsole console
  | .clearConsole => log.clearConsole
  | .console => (log.console, log)

/-- A step, its answer, and the chunks that consoles took during it. -/
structure Entry where
  step : Step
  answer : step.Answer
  received : List Receipt

def transcript : List Step → Log → List Entry
  | [], _ => []
  | step :: steps, log =>
    let (answer, after) := log.perform step
    ⟨step, answer, after.received.toList.drop log.received.size⟩ :: transcript steps after

/-- What consoles were given, as one text. -/
def receivedBytes (log : Log) : Bytes := log.received.toList.flatMap (·.chunk)

/-- Runs a computation on a log whose console does nothing but take its chunks, and gives what it took. -/
def collect {α : Type} (run : StateM Log α) : α × Bytes :=
  let (answer, log) := run { console := some ⟨"collector", .none⟩ }
  (answer, log.receivedBytes)

end KernelAbi.Log
