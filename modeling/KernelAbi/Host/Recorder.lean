import KernelAbi.Host

/-! A host that records the calls made to it. It has every form of every primitive, keeps one file
content behind all files and a few texts in user memory, and fails where it is told to. Queries of the
current task are answered without a record. -/
namespace KernelAbi

/-- A recorded call, with the arguments that tell one form from another. -/
inductive Call where
  | accessOk (size : UInt64)
  | accessOkTyped (kind : AccessKind) (size : UInt64)
  | forceSignal (signal : Int32)
  | forceSignalTo (signal : Int32) (pid : UInt32)
  | addTaskWork (pid : UInt32) (mode : NotifyMode)
  | addTaskWorkFlag (pid : UInt32) (notify : Bool)
  | closeFd (fd : UInt32)
  | closeFdIn (files : FileTable) (fd : UInt32)
  | fileInode
  | selinuxInode
  | selinuxCred
  | initSessionKeyring
  | copyStringNofault (count : Nat)
  | copyStringUnsafe (count : Nat)
  | copyString (count : Nat)
  | openFile (flags : Int32) (mode : UInt16)
  | installSessionKeyring (serial : Int32)
  | readMoving (count : Nat) (position : Int64)
  | readAt (count : Nat) (position : Int64)
  | writeMoving (count : Nat) (position : Int64)
  | writeAt (count : Nat) (position : Int64)
  | reallocate (size : UInt64)
  | allocateBitmap (bits : UInt64) (zeroed : Bool)
  | freeBitmap
  | sortGroups
  | lockInode
  | addHooks (count : Nat) (name : String) (points : List HookPoint)
  | addHooksCounted (count : Nat) (points : List HookPoint)
deriving DecidableEq, Repr

def Call.isRegistration : Call → Bool
  | .addHooks .. | .addHooksCounted .. => true
  | _ => false

/-- The bytes stand at the address, and a terminator after them. -/
structure UserText where
  address : UInt64
  bytes : Bytes
deriving DecidableEq, Repr

structure Recorder where
  calls : Array Call := #[]
  hooks : List HookEntry := []
  current : Task := ⟨4242⟩
  files : FileTable := ⟨0xf11e5⟩
  initKeyring : Option Key := some ⟨0x2a⟩
  closeError : Option Errno := none
  ioError : Option Errno := none
  workqueueWorker : Bool := false
  installedKeyring : Option Key := none
  userTexts : List UserText := []
  fileData : Bytes := []

namespace Recorder

/-- User memory ends here. -/
def userLimit : Nat := 0x800000000000

def inUserRange (address size : UInt64) : Bool := address.toNat + size.toNat ≤ userLimit

/-- The text first mapped at the address. -/
def userText (r : Recorder) (address : UInt64) : Result Bytes :=
  match r.userTexts.find? (·.address = address) with
  | some text => .ok text.bytes
  | none => .error .efault

def outcome (error : Option Errno) : Result Unit :=
  match error with
  | some e => .error e
  | none => .ok ()

/-- The bytes of the text that there is room for, and a terminator if there is room behind them. -/
def copyText {size : Nat} (buffer : Buffer size) (text : Bytes) : Nat × Buffer size :=
  let count := min text.length size
  let copied := buffer.overwrite (text.take count)
  (count, if count < size then copied.set count 0 else copied)

/-- Reports the bytes of text copied. -/
def fillText {size : Nat} (buffer : Buffer size) (text : Bytes) : Filled size :=
  let (count, copied) := copyText buffer text
  ⟨.ok count, copied⟩

/-- Reports the bytes copied, terminator included, which takes the last byte when the text leaves no room
for it. -/
def fillTerminated {size : Nat} (buffer : Buffer size) (text : Bytes) : Filled size :=
  if size = 0 then ⟨.ok 0, buffer⟩
  else
    let (count, copied) := copyText buffer text
    if size ≤ count then ⟨.ok size, copied.set (size - 1) 0⟩ else ⟨.ok (count + 1), copied⟩

section Filling

variable {size : Nat} (buffer : Buffer size) (text : Bytes)

/-- The terminator is copied as if it were a byte of the text. -/
theorem copyText_eq : copyText buffer text = (min text.length size, buffer.overwrite (text ++ [0])) := by
  by_cases short : text.length < size
  · have count : min text.length size = text.length := Nat.min_eq_left (Nat.le_of_lt short)
    simp only [copyText, count, List.take_length, short, if_true, buffer.overwrite_set_behind short]
  · have count : min text.length size = size := Nat.min_eq_right (Nat.le_of_not_lt short)
    have noRoom : (text ++ [0]).take size = text.take size :=
      List.take_append_of_le_length (Nat.le_of_not_lt short)
    simp only [copyText, count, Nat.lt_irrefl, if_false]
    rw [← noRoom, buffer.overwrite_take]

theorem fillText_eq : fillText buffer text = ⟨.ok (min text.length size), buffer.overwrite (text ++ [0])⟩ := by
  rw [fillText, copyText_eq]

theorem fillTerminated_eq :
    fillTerminated buffer text =
      ⟨.ok (min (text.length + 1) size), buffer.overwrite (text.take (size - 1) ++ [0])⟩ := by
  rw [fillTerminated, copyText_eq]
  rcases Nat.eq_zero_or_pos size with rfl | nonempty
  · rw [if_pos rfl, Nat.min_zero, buffer.overwrite_roomless]
  · rw [if_neg (Nat.ne_of_gt nonempty)]
    dsimp only
    by_cases long : size ≤ text.length
    · have whole : size ≤ (text ++ [0]).length := by
        rw [List.length_append]
        omega
      have front : (text ++ [0]).take (size - 1) = text.take (size - 1) :=
        List.take_append_of_le_length (by omega)
      rw [Nat.min_eq_right long, if_pos (Nat.le_refl size), buffer.overwrite_set_last nonempty whole, front,
        Nat.min_eq_right (by omega)]
    · rw [Nat.min_eq_left (by omega), if_neg long, Nat.min_eq_left (by omega),
        List.take_of_length_le (by omega)]

end Filling

def copyWith {size : Nat} (fill : Buffer size → Bytes → Filled size) (r : Recorder)
    (buffer : Buffer size) (address : UInt64) : Filled size :=
  match r.userText address with
  | .ok text => fill buffer text
  | .error e => ⟨.error e, buffer⟩

/-- A position before the start of the file is invalid. -/
def offset (position : Int64) : Result Nat :=
  if position < 0 then .error .einval else .ok position.toNatClampNeg

/-- Where a transfer starts, if it may take place. -/
def transferFrom (r : Recorder) (position : Int64) : Result Nat :=
  match outcome r.ioError with
  | .error e => .error e
  | .ok () => offset position

def read {size : Nat} (r : Recorder) (position : Int64) (buffer : Buffer size) : Filled size :=
  match r.transferFrom position with
  | .error e => ⟨.error e, buffer⟩
  | .ok start =>
    let found := (r.fileData.drop start).take size
    ⟨.ok found.length, buffer.overwrite found⟩

/-- Cut, or extended with zeros. -/
def resize (bytes : Bytes) (size : Nat) : Bytes :=
  bytes.take size ++ List.replicate (size - bytes.length) 0

theorem length_resize (bytes : Bytes) (size : Nat) : (resize bytes size).length = size := by
  simp only [resize, List.length_append, List.length_take, List.length_replicate]
  omega

theorem resize_extends {bytes : Bytes} {size : Nat} (grows : bytes.length ≤ size) :
    resize bytes size = bytes ++ List.replicate (size - bytes.length) 0 := by
  rw [resize, List.take_of_length_le grows]

/-- `data` with `bytes` from `start` on. Data that does not reach so far is extended first, so that a gap
before `start` is filled with zeros. -/
def overwriteAt (data : Bytes) (start : Nat) (bytes : Bytes) : Bytes :=
  let past := start + bytes.length
  let reaching := if data.length < past then resize data past else data
  reaching.take start ++ bytes ++ reaching.drop past

def write (r : Recorder) (position : Int64) (bytes : Bytes) : Result Nat × Recorder :=
  match r.transferFrom position with
  | .error e => (.error e, r)
  | .ok start => (.ok bytes.length, { r with fileData := overwriteAt r.fileData start bytes })

/-- A position moves only when the transfer succeeds. -/
def advance (position : Int64) : Result Nat → Int64
  | .ok count => position + .ofNat count
  | .error _ => position

def record (call : Call) : MachineM Recorder Unit :=
  Machine.modifyKernel fun r => { r with calls := r.calls.push call }

/-- The first `count` hooks join those installed before. -/
def install (hooks : List HookEntry) (count : Nat) : MachineM Recorder (List HookPoint) := do
  let added := hooks.take count
  Machine.modifyKernel fun r => { r with hooks := r.hooks ++ added }
  return added.map (·.point)

def observe {α : Type} (view : Recorder → α) : MachineM Recorder α := return view (← get).kernel

def store (position : Int64) (bytes : Bytes) : MachineM Recorder (Result Nat) :=
  modifyGet fun m => let (result, kernel) := m.kernel.write position bytes; (result, { m with kernel })

def answer {α : Type} : Primitive α → MachineM Recorder α
  | .accessOk address size => do
    record (.accessOk size)
    return inUserRange address size
  | .accessOkTyped kind address size => do
    record (.accessOkTyped kind size)
    return inUserRange address size
  | .currentTask => observe Recorder.current
  | .forceSignal signal => record (.forceSignal signal)
  | .forceSignalTo signal task => record (.forceSignalTo signal task.pid)
  | .addTaskWork task mode => do
    record (.addTaskWork task.pid mode)
    return .ok ()
  | .addTaskWorkFlag task notify => do
    record (.addTaskWorkFlag task.pid notify)
    return .ok ()
  | .currentFiles => observe Recorder.files
  | .closeFd fd => do
    record (.closeFd fd)
    observe fun r => outcome r.closeError
  | .closeFdIn files fd => do
    record (.closeFdIn files fd)
    observe fun r => outcome r.closeError
  | .fileInode file => do
    record .fileInode
    return file.inode
  | .selinuxInode inode => do
    record .selinuxInode
    return inode.security
  | .selinuxCred cred => do
    record .selinuxCred
    return cred.security
  | .initSessionKeyring => do
    record .initSessionKeyring
    observe Recorder.initKeyring
  | .copyStringNofault buffer address => do
    record (.copyStringNofault buffer.bytes.length)
    observe fun r => copyWith fillTerminated r buffer address
  | .copyStringUnsafe buffer address => do
    record (.copyStringUnsafe buffer.bytes.length)
    observe fun r => copyWith fillTerminated r buffer address
  | .copyString buffer address => do
    record (.copyString buffer.bytes.length)
    observe fun r => copyWith fillText r buffer address
  | .openFile _ flags mode => do
    record (.openFile flags mode)
    match ← observe Recorder.ioError with
    | some e => return .error e
    | none =>
      let inode ← Machine.newInode 0x100 none .shared
      return .ok (.onInode inode flags.toUInt32)
  | .isWorkqueueWorker => observe Recorder.workqueueWorker
  | .sessionKeyring => observe Recorder.installedKeyring
  | .installSessionKeyring key => do
    record (.installSessionKeyring key.serial)
    Machine.modifyKernel fun r => { r with installedKeyring := some key }
    return .ok ()
  | .readMoving _ buffer position => do
    record (.readMoving buffer.bytes.length position)
    let filled ← observe fun r => r.read position buffer
    return ⟨filled, advance position filled.result⟩
  | .readAt _ position buffer => do
    record (.readAt buffer.bytes.length position)
    observe fun r => r.read position buffer
  | .writeMoving _ bytes position => do
    record (.writeMoving bytes.length position)
    let result ← store position bytes
    return ⟨result, advance position result⟩
  | .writeAt _ bytes position => do
    record (.writeAt bytes.length position)
    let result ← store position bytes
    return result
  | .reallocate buffer size _ => do
    record (.reallocate size)
    return .ok (resize buffer size.toNat)
  | .allocateBitmap bits flags => do
    record (.allocateBitmap bits (flags.has Allocation.zeroed))
    Machine.logging (Bitmap.allocate bits flags)
  | .freeBitmap _ => record .freeBitmap
  | .sortGroups ids => do
    record .sortGroups
    return Groups.sort ids
  | .lockInode inode => do
    record .lockInode
    Machine.acquire inode
  | .addHooks hooks count name => do
    let points ← install hooks count
    record (.addHooks count name points)
  | .addHooksCounted hooks count => do
    let points ← install hooks count
    record (.addHooksCounted count points)

def host : Host Recorder := ⟨answer⟩

def registrations (r : Recorder) : Nat := r.calls.countP Call.isRegistration

end Recorder
end KernelAbi
