import KernelAbi.Hook
import KernelAbi.Lock
import KernelAbi.Log.Line

/-! The running system: the state that the host keeps for itself, and beside it what the module owns or
shares with it. -/
namespace KernelAbi

/-- What handlers saw, in order. -/
inductive Event where
  | setuid (handlers : Nat) (new old effective : UInt32)
  | initrc (handlers : Nat) (file : File)
  /-- A registration was asked for within another, which stood at `stage`. -/
  | nested (stage : Stage) (outcome : Registration.Outcome)
deriving DecidableEq, Repr

structure Machine (κ : Type) where
  kernel : κ
  log : Log := {}
  locks : LockTable := .allFree
  /-- The number of inodes made so far. -/
  inodes : Nat := 0
  toggles : Toggles := .allOn
  registrations : String → Registration := fun _ => {}
  events : Array Event := #[]

abbrev MachineM (κ : Type) := StateM (Machine κ)

namespace Machine

variable {κ : Type}

section Run

variable {α β : Type} (m : Machine κ)

@[simp high] theorem run_pure (a : α) : (pure a : MachineM κ α).run m = (a, m) := rfl

@[simp high] theorem run_bind (x : MachineM κ α) (f : α → MachineM κ β) :
    (x >>= f).run m = (f (x.run m).1).run (x.run m).2 := rfl

@[simp high] theorem run_map (f : α → β) (x : MachineM κ α) :
    (f <$> x).run m = (f (x.run m).1, (x.run m).2) := rfl

@[simp high] theorem run_get : (get : MachineM κ (Machine κ)).run m = (m, m) := rfl

end Run

def modifyKernel (change : κ → κ) : MachineM κ Unit :=
  modify fun m => { m with kernel := change m.kernel }

/-- Runs a computation on the log alone. -/
def logging {α : Type} (run : StateM Log α) : MachineM κ α :=
  modifyGet fun m => let (answer, log) := run m.log; (answer, { m with log })

def print (line : Log.Line) : MachineM κ Unit := modify fun m => { m with log := m.log.print line }

@[simp] theorem run_print (m : Machine κ) (line : Log.Line) :
    (print line).run m = ((), { m with log := m.log.print line }) := rfl

def setLocks (locks : LockTable) : MachineM κ Unit := modify fun m => { m with locks }

def setToggle (key : ToggleKey) (on : Bool) : MachineM κ Unit :=
  modify fun m => { m with toggles := m.toggles.set key on }

def note (event : Event) : MachineM κ Unit := modify fun m => { m with events := m.events.push event }

def newInode (number : UInt64) (security : Option InodeSecurity) (lock : LockKind) : MachineM κ Inode :=
  modifyGet fun m => (⟨m.inodes, number, security, lock⟩, { m with inodes := m.inodes + 1 })

def acquire (inode : Inode) : MachineM κ Guard :=
  modifyGet fun m => let (guard, locks) := m.locks.acquire inode; (guard, { m with locks })

def setRegistration (name : String) (registration : Registration) : MachineM κ Unit :=
  modify fun m => { m with
    registrations := fun other => if other = name then registration else m.registrations other }

end Machine

namespace Handlers

variable {κ : Type}

/-- The verdict depends on the user ids alone. -/
def fixSetuid (h : Handlers) (new old : Cred) (_flags : Int32) : MachineM κ Int32 := do
  Machine.note (.setuid h.id new.uid old.uid new.euid)
  return h.setuid new.uid old.uid new.euid

/-- Observes the file while the toggle is on. Never denies, and sets no toggle. -/
def filePermission (h : Handlers) (file : File) (_mask : Int32) : MachineM κ Int32 := do
  if (← get).toggles h.toggle then Machine.note (.initrc h.id file)
  return 0

end Handlers

namespace HookEntry

variable {κ : Type}

/-- Asks the entries at the point in turn. The first that denies decides. -/
def callSetuid (new old : Cred) (flags : Int32) : List HookEntry → MachineM κ Int32
  | [] => return 0
  | .taskFixSetuid h :: entries => do
    let verdict ← h.fixSetuid new old flags
    if verdict ≠ 0 then return verdict
    callSetuid new old flags entries
  | .filePermission _ :: entries => callSetuid new old flags entries

def callFilePermission (file : File) (mask : Int32) : List HookEntry → MachineM κ Int32
  | [] => return 0
  | .filePermission h :: entries => do
    let verdict ← h.filePermission file mask
    if verdict ≠ 0 then return verdict
    callFilePermission file mask entries
  | .taskFixSetuid _ :: entries => callFilePermission file mask entries

end HookEntry
end KernelAbi
