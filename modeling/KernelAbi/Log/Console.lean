import KernelAbi.Log.Ring

/-! The log. Every chunk goes into the ring and then, if a console is installed, to the console, each
byte once and in order. A console may answer a chunk by writing to the log itself or by leaving. -/
namespace KernelAbi

namespace Log

/-- What a console does with a chunk besides taking it. -/
inductive Reaction where
  | none
  /-- Answers with the byte `mark` and `rest`, except to a chunk that begins with `mark`: an answer
  comes back as a chunk, and would be answered for ever. -/
  | echo (mark : UInt8) (rest : Bytes)
  /-- Takes one chunk and has itself removed. -/
  | leave
deriving DecidableEq, Repr

structure Console where
  name : String
  reaction : Reaction := .none
deriving DecidableEq, Repr

/-- A chunk as a console took it. -/
structure Receipt where
  console : Console
  chunk : Bytes
deriving DecidableEq, Repr

end Log

open Log

structure Log where
  ring : Ring := .empty
  console : Option Console := none
  received : Array Receipt := #[]

namespace Log

/-- A chunk reaches the ring first, then the console. -/
def deliver (log : Log) (chunk : Bytes) : Log :=
  { log with
    ring := log.ring.write chunk
    received := match log.console with
      | none => log.received
      | some console => log.received.push ⟨console, chunk⟩ }

def react (log : Log) (chunk : Bytes) : Log :=
  match log.console with
  | none => log
  | some console => match console.reaction with
    | .none => log
    | .echo mark rest => if chunk.head? = some mark then log else log.deliver (mark :: rest)
    | .leave => { log with console := none }

def emit (log : Log) (chunk : Bytes) : Log := (log.deliver chunk).react chunk

def emitText (log : Log) (text : String) : Log := log.emit (.ofText text)

def emitAll (log : Log) (texts : List String) : Log := texts.foldl emitText log

def setConsole (log : Log) (console : Console) : Option Console × Log :=
  (log.console, { log with console := some console })

def clearConsole (log : Log) : Option Console × Log := (log.console, { log with console := none })

end Log
end KernelAbi
