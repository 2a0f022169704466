import KernelAbi.Flags.Hooks
import KernelAbi.Object

/-! Security hooks. The module watches two points: a change of credentials, on which its handlers pass a
verdict, and the use of a file, which they may only observe. Handlers have no effects of their own: one that
changes the system while it is called, such as one that switches its toggle off when it has seen enough, is
not described. Toggles are set between calls. -/
namespace KernelAbi

inductive HookPoint where
  | taskFixSetuid
  | filePermission
deriving DecidableEq, Repr

def HookPoint.name : HookPoint → String
  | taskFixSetuid => "task_fix_setuid"
  | filePermission => "file_permission"

/-- The switch that handlers consult before they observe a file: one for all, or one of their own. -/
inductive ToggleKey where
  | common
  | own (id : Nat)
deriving DecidableEq, Repr

abbrev Toggles := ToggleKey → Bool

namespace Toggles

def allOn : Toggles := fun _ => true

def set (toggles : Toggles) (key : ToggleKey) (on : Bool) : Toggles :=
  fun other => if other = key then on else toggles other

end Toggles

/-- The module's side of the hooks, for handlers without effects. Zero allows a change of user, anything else
denies it. -/
structure Handlers where
  id : Nat
  toggle : ToggleKey
  setuid : (new old effective : UInt32) → Int32

/-- An entry of the hook table: a handler at the point whose signature it has. -/
inductive HookEntry where
  | taskFixSetuid (handlers : Handlers)
  | filePermission (handlers : Handlers)

def HookEntry.point : HookEntry → HookPoint
  | taskFixSetuid _ => .taskFixSetuid
  | filePermission _ => .filePermission

/-- The table for the wanted hooks, credentials first. -/
def Handlers.table (h : Handlers) (hooks : HookSet) : List HookEntry :=
  (if hooks.has Hooks.setuid then [.taskFixSetuid h] else [])
  ++ (if hooks.has Hooks.initrc then [.filePermission h] else [])

/-- Registration goes through its stages once. -/
inductive Stage where
  | idle
  | assembling
  | settled
deriving DecidableEq, Repr

structure Registration where
  stage : Stage := .idle
  /-- The table that the kernel was given. -/
  table : Option (List HookEntry) := none

namespace Registration

inductive Outcome where
  /-- The kernel was given a table of `count` entries. -/
  | installed (count : Nat)
  /-- There was nothing to install. -/
  | skipped
  /-- Another request came first. -/
  | refused
deriving DecidableEq, Repr

end Registration
end KernelAbi
