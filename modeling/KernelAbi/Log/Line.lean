import KernelAbi.Hex
import KernelAbi.Log.Console

/-! Lines of the log. A line is its level's mark, the module's name, a message, possibly a number in
hexadecimal, and an end of line; each of these is a chunk of its own. Lines of every level are printed:
builds that leave some levels out of the log are not described. -/
namespace KernelAbi.Log

inductive Level where
  | error
  | warning
  | info
  | debug
  | trace
  | success
deriving DecidableEq, Repr

/-- The mark is coloured for a terminal. -/
def Level.mark : Level → String
  | error => "\x1b[1;31m[ERRO]\x1b[0m "
  | warning => "\x1b[1;33m[WARN]\x1b[0m "
  | info => "\x1b[32m[INFO]\x1b[0m "
  | debug => "\x1b[36m[DEBG]\x1b[0m "
  | trace => "\x1b[35m[TRAC]\x1b[0m "
  | success => "\x1b[32m[OK]\x1b[0m "

def moduleName : String := "KernelSU: "

def leader (mark : String) : List String := [mark, moduleName]

structure Line where
  level : Level
  message : String
  value : Option UInt64 := none
deriving DecidableEq, Repr

def numeral (value : UInt64) : String := Hex.numeral value.toNat

def Line.chunks (line : Line) : List String :=
  leader line.level.mark ++ line.message :: (line.value.map numeral).toList ++ ["\n"]

def print (log : Log) (line : Line) : Log := log.emitAll line.chunks

def printAll (log : Log) (lines : List Line) : Log := lines.foldl print log

end KernelAbi.Log
