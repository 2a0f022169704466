import KernelAbi.Host.Interference
import KernelAbi.Session.Step

/-! Sessions: a machine under a recording host, a bridge whose selection may change, and objects that go
by name. Each step is carried out in turn, and a step that is refused leaves the rest to run. -/
namespace KernelAbi

structure Session where
  machine : Machine Recorder := { kernel := {} }
  selection : Selection
  /-- Where the last transfer stopped. -/
  position : Int64 := 0
  inodes : List (String × Inode) := []
  files : List (String × File) := []
  bitmaps : List (String × Bitmap) := []
  guards : List (String × Guard) := []

namespace Session

/-- What stays the same throughout a session. -/
structure Setting where
  interference : Interference := {}
  commonPolicy : Policy := []
  ownPolicy : Policy := []

def Setting.host (setting : Setting) : Host Recorder := setting.interference.disturb Recorder.host

def Setting.handlers (setting : Setting) : WhichHandlers → Handlers
  | .common => setting.commonPolicy.commonHandlers
  | .own => setting.ownPolicy.ownHandlers

abbrev StepM := ExceptT Refusal (StateM Session)

def run {α : Type} (action : MachineM Recorder α) : StepM α :=
  modifyGet fun s => let (answer, machine) := action s.machine; (answer, { s with machine })

def view {α : Type} (look : Machine Recorder → α) : StepM α := return look (← get).machine

def named {α : Type} (table : Session → List (String × α)) (unknown : String → Refusal) (name : String) :
    StepM α := do
  match (table (← get)).lookup name with
  | some object => return object
  | none => throw (unknown name)

def inode (name : String) : StepM Inode := named inodes .unknownInode name
def file (name : String) : StepM File := named files .unknownFile name
def bitmap (name : String) : StepM Bitmap := named bitmaps .unknownBitmap name

/-- A step that names no file works on one over a new inode. -/
def fileOrNew : Option String → StepM File
  | some name => file name
  | none => return .onInode (← run (Machine.newInode 0 none .shared)) 0

def without {α : Type} (name : String) (table : List (String × α)) : List (String × α) :=
  table.filter (·.1 ≠ name)

def setFile (name : String) (file : File) : StepM Unit :=
  modify fun s => { s with files := (name, file) :: without name s.files }

def setBitmap (name : String) (bitmap : Bitmap) : StepM Unit :=
  modify fun s => { s with bitmaps := (name, bitmap) :: without name s.bitmaps }

/-- Runs an operation of the bridge under the current selection. -/
def bridged {α : Type} (setting : Setting) (operation : Bridge Recorder → MachineM Recorder α) : StepM α := do
  run (operation ⟨setting.host, (← get).selection⟩)

/-- Runs a transfer from the stated position or the last one, and keeps the position after it. -/
def transfer {α : Type} (setting : Setting) (position : Option Int64)
    (move : Bridge Recorder → Int64 → MachineM Recorder (Moved α)) : StepM (Moved α) := do
  let start := position.getD (← get).position
  let moved ← bridged setting fun bridge => move bridge start
  modify fun s => { s with position := moved.position }
  return moved

/-- A bitmap that was there under the name is given up only if there is a new one. -/
def keepBitmap (name : String) (made : Option Bitmap) : StepM (Option Bitmap) := do
  if let some bitmap := made then setBitmap name bitmap
  return made

def orRefuse {ε α : Type} (refusal : ε → Refusal) : Except ε α → StepM α
  | .ok answer => return answer
  | .error e => throw (refusal e)

/-- Replaces the locks if the change is possible, and tells whether the inode is then locked. -/
def changeLocks (name : String) (change : LockTable → Inode → Except LockError LockTable) : StepM Bool := do
  let inode ← inode name
  let locks ← orRefuse .lock (change (← view Machine.locks) inode)
  run (Machine.setLocks locks)
  return locks.isLocked inode

def perform (setting : Setting) : (step : Step) → StepM step.Answer
  | .configure request => do
    let selection ← orRefuse .request request.selection
    modify fun s => { s with selection }
  | .selection => return (← get).selection
  | .configureForBuild => do
    modify fun s => { s with selection := .build }
    return .build
  | .accessOk address size => bridged setting (·.accessOk address size)
  | .forceSignal signal => bridged setting (·.forceSignal signal)
  | .addTaskWork mode pid => do
    let task ← match pid with
      | some pid => pure ⟨pid⟩
      | none => run (setting.host.call .currentTask)
    bridged setting (·.addTaskWork task mode)
  | .closeFd fd => bridged setting (·.closeFd fd)
  | .makeInode name number lock security => do
    let inode ← run (Machine.newInode number security lock)
    modify fun s => { s with inodes := (name, inode) :: without name s.inodes }
  | .openInode name inodeName flags => do
    let file := File.onInode (← inode inodeName) flags
    setFile name file
    return file
  | .makeFile name entryInode fileInode flags => do
    let entryInode ← entryInode.mapM inode
    let fileInode ← fileInode.mapM inode
    setFile name ⟨entryInode, fileInode, flags⟩
  | .fileInode name => do
    let file ← file name
    bridged setting (·.fileInode file)
  | .selinuxInode name => do
    let inode ← inode name
    bridged setting (·.selinuxInode inode)
  | .showCred cred => return cred
  | .selinuxCred cred => bridged setting (·.selinuxCred cred)
  | .initSessionKeyring => bridged setting (·.initSessionKeyring)
  | .copyString buffer address => bridged setting (·.copyString buffer address)
  | .openFile path flags mode name => do
    let opened ← bridged setting (·.openFile path flags mode)
    if let some name := name then
      if let .ok file := opened then setFile name file
    return opened
  | .installedKeyring => view (·.kernel.installedKeyring)
  | .read buffer position name => do
    let file ← fileOrNew name
    transfer setting position (·.read file buffer)
  | .write bytes position name => do
    let file ← fileOrNew name
    transfer setting position (·.write file bytes)
  | .fileData => view (·.kernel.fileData)
  | .grow buffer live wanted flags => bridged setting (·.grow buffer live wanted flags)
  | .allocateBitmap name bits flags => do
    keepBitmap name (← bridged setting (·.allocateBitmap bits flags))
  | .allocateClearBitmap name bits flags => do
    keepBitmap name (← bridged setting (·.allocateClearBitmap bits flags))
  | .bitmap name step => do
    let (answer, after) := (← bitmap name).perform step
    setBitmap name after
    orRefuse .index answer
  | .freeBitmap name => do
    let bitmap ← bitmap name
    modify fun s => { s with bitmaps := without name s.bitmaps }
    bridged setting (·.freeBitmap bitmap)
  | .sameBitmap a b => do
    let bitmaps := (← get).bitmaps
    return decide (bitmaps.lookup a = bitmaps.lookup b)
  | .sortGroups ids => do
    let sorted ← bridged setting (·.sortGroups ids)
    return ⟨Groups.isSorted ids, Groups.isSorted sorted, sorted⟩
  | .lockInode name => do
    let inode ← inode name
    let guard ← orRefuse .lock (← bridged setting (·.lockInode inode))
    modify fun s => { s with guards := (name, guard) :: s.guards }
    return (guard, ← view (·.locks.isLocked inode))
  | .unlockInode name => do
    let inode ← inode name
    match (← get).guards.lookup name with
    | none => throw (.lock .notHeld)
    | some guard =>
      modify fun s => { s with guards := without name s.guards }
      bridged setting (·.unlockInode guard)
      view (·.locks.isLocked inode)
  | .shareInode name => changeLocks name LockTable.acquireShared
  | .unshareInode name => changeLocks name LockTable.releaseShared
  | .isLocked name => do
    let inode ← inode name
    view (·.locks.isLocked inode)
  | .register registration which nested => do
    let selection := (← get).selection
    let host := if nested then
        Registration.nesting setting.host selection (setting.handlers .common) registration
      else setting.host
    run (Registration.register host selection (setting.handlers which) registration)
  | .registration name => view (·.registrations name)
  | .start => run (Registration.start setting.host (setting.handlers .common))
  | .hookTable hooks => return (setting.handlers .common).table hooks
  | .registrationCalls => view fun m => ⟨m.kernel.registrations, m.kernel.calls.size⟩
  | .callSetuid new old flags => do
    run (HookEntry.callSetuid new old flags (← view (·.kernel.hooks)))
  | .callFilePermission mask name => do
    let file ← fileOrNew name
    run (HookEntry.callFilePermission file mask (← view (·.kernel.hooks)))
  | .fixSetuid new old flags which => run ((setting.handlers which).fixSetuid new old flags)
  | .filePermission mask name which => do
    let file ← fileOrNew name
    run ((setting.handlers which).filePermission file mask)
  | .setToggle which on => do
    let key := (setting.handlers which).toggle
    run (Machine.setToggle key on)
    view (·.toggles key)
  | .toggle which => view (·.toggles (setting.handlers which).toggle)
  | .log step => run (Machine.logging fun log => log.perform step)

/-- What a step did, seen from outside. -/
structure Observation (α : Type) where
  answer : α
  /-- The calls that the host recorded. -/
  calls : List Call
  events : List Event
  /-- The text that went to the console. -/
  printed : Bytes

/-- What the machine shows at `after` and did not show at `before`. -/
def observe {α : Type} (answer : α) (before after : Machine Recorder) : Observation α where
  answer := answer
  calls := after.kernel.calls.toList.drop before.kernel.calls.size
  events := after.events.toList.drop before.events.size
  printed := (after.log.received.toList.drop before.log.received.size).flatMap (·.chunk)

def advance (setting : Setting) (step : Step) (s : Session) :
    Observation (Except Refusal step.Answer) × Session :=
  let (answer, after) := (perform setting step).run s
  (observe answer s.machine after.machine, after)

/-- The console of a session collects its log. -/
def collector : Log.Console := ⟨"session", .none⟩

def begin (kernel : Recorder) (selection : Selection) : Session where
  machine := { kernel, log := { console := some collector } }
  selection := selection

/-- A step together with what it did. -/
abbrev Entry := (step : Step) × Observation (Except Refusal step.Answer)

def transcript (setting : Setting) : List Step → Session → List Entry
  | [], _ => []
  | step :: steps, s =>
    let (observation, s) := advance setting step s
    ⟨step, observation⟩ :: transcript setting steps s

end Session
end KernelAbi
