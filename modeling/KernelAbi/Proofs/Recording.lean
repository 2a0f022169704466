import KernelAbi.Bridge
import KernelAbi.Host.Recorder

/-! The bridge over a recording host. Each operation is given by the calls that it leaves in the record
and by what it does besides. The calls follow the selection; for most operations the rest does not
mention it. -/
namespace KernelAbi

namespace Recorder

variable (r : Recorder)

/-- The recorder with `calls` at the end of its record. -/
def recorded (calls : List Call) : Recorder := { r with calls := r.calls ++ calls }

@[simp] theorem recorded_nil : r.recorded [] = r := rfl

@[simp] theorem recorded_recorded (first later : List Call) :
    (r.recorded first).recorded later = r.recorded (first ++ later) := by
  simp [recorded, ← Array.toList_inj]

@[simp] theorem recorded_calls (calls : List Call) :
    (r.recorded calls).calls.toList = r.calls.toList ++ calls := by
  simp [recorded]

/-- The recorder with `key` as the session keyring of the current task. -/
def holding (key : Option Key) : Recorder := { r with installedKeyring := key }

theorem holding_eq (key : Option Key) (held : r.installedKeyring = key) : r.holding key = r := by
  subst key
  rfl

/-- A write neither reads the record nor changes it. -/
theorem write_withCalls (calls : Array Call) (position : Int64) (bytes : Bytes) :
    ({ r with calls } : Recorder).write position bytes =
      ((r.write position bytes).1, { (r.write position bytes).2 with calls }) := by
  have start : ({ r with calls } : Recorder).transferFrom position = r.transferFrom position := rfl
  simp only [write, start]
  split <;> rfl

theorem write_calls (position : Int64) (bytes : Bytes) :
    (r.write position bytes).2.calls = r.calls :=
  congrArg (·.2.calls) (r.write_withCalls r.calls position bytes)

end Recorder

namespace Machine

/-- The machine with `calls` at the end of its host's record. -/
def recording (m : Machine Recorder) (calls : List Call) : Machine Recorder :=
  { m with kernel := m.kernel.recorded calls }

end Machine

/-- The host is asked for a helper only if it is the one that supplies it. -/
def Supplier.calls (supplier : Supplier) (call : Call) : List Call :=
  match supplier with
  | .kernel => [call]
  | .substitute => []

theorem Supplier.mem_calls {supplier : Supplier} {call other : Call}
    (member : other ∈ supplier.calls call) : other = call ∧ supplier = .kernel := by
  cases supplier with
  | kernel => exact ⟨List.mem_singleton.mp member, rfl⟩
  | substitute => exact absurd member List.not_mem_nil

namespace Selection

variable (s : Selection)

/-- The bridge to a recording host. -/
abbrev bridge : Bridge Recorder := ⟨Recorder.host, s⟩

def accessCall (size : UInt64) : Call :=
  if s.access = .untyped then .accessOk size else .accessOkTyped .read size

def signalCall (signal : Int32) (current : Task) : Call :=
  if s.signal = .implicit then .forceSignal signal else .forceSignalTo signal current.pid

def notifyCall (task : Task) (mode : NotifyMode) : Call :=
  if s.notify = .mode then .addTaskWork task.pid mode
  else .addTaskWorkFlag task.pid (mode = .resume)

def closeCall (files : FileTable) (fd : UInt32) : Call :=
  if s.close = .direct then .closeFd fd else .closeFdIn files fd

/-- The substitute does not ask for a copy into an empty destination. -/
def copyCalls (size : Nat) : List Call :=
  match s.stringCopy with
  | .nofault => [.copyStringNofault size]
  | .unsafeUser => [.copyStringUnsafe size]
  | .substitute => if size = 0 then [] else [.copyString size]

def readCall (count : Nat) (position : Int64) : Call :=
  if s.fileIo = .moving then .readMoving count position else .readAt count position

def writeCall (count : Nat) (position : Int64) : Call :=
  if s.fileIo = .moving then .writeMoving count position else .writeAt count position

/-- An open gives the current task a keyring first. -/
def Provides (r : Recorder) : Prop :=
  s.initKeyring ∧ r.workqueueWorker ∧ r.installedKeyring = none

instance (r : Recorder) : Decidable (s.Provides r) :=
  inferInstanceAs (Decidable (s.initKeyring ∧ r.workqueueWorker ∧ r.installedKeyring = none))

def keyringCalls (r : Recorder) : List Call :=
  if s.Provides r then
    .initSessionKeyring :: (r.initKeyring.map fun key => .installSessionKeyring key.serial).toList
  else []

def keyringAfter (r : Recorder) : Option Key :=
  if s.Provides r then r.initKeyring else r.installedKeyring

end Selection

namespace Recording

variable (s : Selection) (m : Machine Recorder)

theorem accessOk_run (address size : UInt64) :
    (s.bridge.accessOk address size).run m =
      (Recorder.inUserRange address size, m.recording [s.accessCall size]) := by
  simp only [Bridge.accessOk, Selection.accessCall]
  cases s.access <;> rfl

theorem forceSignal_run (signal : Int32) :
    (s.bridge.forceSignal signal).run m =
      ((), m.recording [s.signalCall signal m.kernel.current]) := by
  simp only [Bridge.forceSignal, Selection.signalCall]
  cases s.signal <;> rfl

theorem addTaskWork_run (task : Task) (mode : NotifyMode) :
    (s.bridge.addTaskWork task mode).run m =
      (.ok (), m.recording [s.notifyCall task mode]) := by
  simp only [Bridge.addTaskWork, Selection.notifyCall]
  cases s.notify <;> rfl

theorem closeFd_run (fd : UInt32) :
    (s.bridge.closeFd fd).run m =
      (Recorder.outcome m.kernel.closeError, m.recording [s.closeCall m.kernel.files fd]) := by
  simp only [Bridge.closeFd, Selection.closeCall]
  cases s.close <;> rfl

/-- The two ways to the inode agree on a file that was opened over one. -/
theorem fileInode_run (inode : Inode) (flags : UInt32) :
    (s.bridge.fileInode (.onInode inode flags)).run m =
      (some inode, m.recording (s.fileInode.calls .fileInode)) := by
  simp only [Bridge.fileInode, Supplier.calls]
  cases s.fileInode <;> rfl

theorem fileInode_kernel (file : File) :
    ((s.bridge.fileInode file).run m).2.kernel = m.kernel.recorded (s.fileInode.calls .fileInode) := by
  simp only [Bridge.fileInode, Supplier.calls]
  cases s.fileInode <;> rfl

theorem selinuxInode_run (inode : Inode) :
    (s.bridge.selinuxInode inode).run m =
      (inode.security, m.recording (s.selinuxInode.calls .selinuxInode)) := by
  simp only [Bridge.selinuxInode, Supplier.calls]
  cases s.selinuxInode <;> rfl

theorem selinuxCred_run (cred : Cred) :
    (s.bridge.selinuxCred cred).run m =
      (cred.security, m.recording (s.selinuxCred.calls .selinuxCred)) := by
  simp only [Bridge.selinuxCred, Supplier.calls]
  cases s.selinuxCred <;> rfl

theorem initSessionKeyring_kernel :
    ((s.bridge.initSessionKeyring).run m).2.kernel =
      m.kernel.recorded (if s.initKeyring then [.initSessionKeyring] else []) := by
  simp only [Bridge.initSessionKeyring]
  cases s.initKeyring <;> rfl

theorem copyString_kernel {size : Nat} (buffer : Buffer size) (address : UInt64) :
    ((s.bridge.copyString buffer address).run m).2.kernel =
      m.kernel.recorded (s.copyCalls size) := by
  obtain ⟨bytes, rfl⟩ := buffer
  simp only [Bridge.copyString, Bridge.copyStringSubstitute, Selection.copyCalls]
  cases s.stringCopy with
  | nofault => rfl
  | unsafeUser => rfl
  | substitute => by_cases empty : bytes.length = 0 <;> simp only [empty, ite_true, ite_false] <;> rfl

@[simp] theorem record_run (call : Call) :
    (Recorder.record call).run m = ((), m.recording [call]) := rfl

@[simp] theorem observe_run {α : Type} (view : Recorder → α) :
    (Recorder.observe view).run m = (view m.kernel, m) := rfl

@[simp] theorem isWorkqueueWorker_run :
    (Recorder.host.call .isWorkqueueWorker).run m = (m.kernel.workqueueWorker, m) := rfl

@[simp] theorem sessionKeyring_run :
    (Recorder.host.call .sessionKeyring).run m = (m.kernel.installedKeyring, m) := rfl

@[simp] theorem hostKeyring_run :
    (Recorder.host.call .initSessionKeyring).run m =
      (m.kernel.initKeyring, m.recording [.initSessionKeyring]) := rfl

theorem provideKeyring_idle (idle : ¬ s.Provides m.kernel) :
    (s.bridge.provideKeyring).run m = (.ok (), m) := by
  unfold Bridge.provideKeyring
  by_cases declared : s.initKeyring
  · by_cases worker : m.kernel.workqueueWorker
    · have installed : m.kernel.installedKeyring ≠ none :=
        fun absent => idle ⟨declared, worker, absent⟩
      simp [declared, worker, installed, Option.isSome_iff_ne_none]
    · simp [declared, worker]
  · simp [declared]

theorem provideKeyring_kernel :
    ((s.bridge.provideKeyring).run m).1 = .ok () ∧
    ((s.bridge.provideKeyring).run m).2.kernel =
      (m.kernel.holding (s.keyringAfter m.kernel)).recorded (s.keyringCalls m.kernel) := by
  by_cases provides : s.Provides m.kernel
  · obtain ⟨declared, worker, absent⟩ := id provides
    simp only [Selection.keyringAfter, Selection.keyringCalls, if_pos provides, Bridge.provideKeyring]
    cases reachable : m.kernel.initKeyring with
    | none =>
      simp [declared, worker, absent, reachable, m.kernel.holding_eq none absent]
      rfl
    | some key =>
      simp [declared, worker, absent, reachable]
      exact ⟨rfl, rfl⟩
  · rw [provideKeyring_idle s m provides]
    simp [Selection.keyringAfter, Selection.keyringCalls, provides, Recorder.holding_eq]

theorem hostOpen_kernel (path : String) (flags : Int32) (mode : UInt16) :
    ((Recorder.host.call (.openFile path flags mode)).run m).2.kernel =
      m.kernel.recorded [.openFile flags mode] := by
  have unchanged : (m.recording [.openFile flags mode]).kernel.ioError = m.kernel.ioError := rfl
  simp only [Recorder.host, Recorder.answer, Machine.run_bind, record_run, observe_run, unchanged]
  cases m.kernel.ioError <;> rfl

theorem openFile_kernel (path : String) (flags : Int32) (mode : UInt16) :
    ((s.bridge.openFile path flags mode).run m).2.kernel =
      (m.kernel.holding (s.keyringAfter m.kernel)).recorded
        (s.keyringCalls m.kernel ++ [.openFile flags mode]) := by
  obtain ⟨provided, kernel⟩ := provideKeyring_kernel s m
  simp [Bridge.openFile, provided, hostOpen_kernel, kernel]

theorem read_run (file : File) {size : Nat} (buffer : Buffer size) (position : Int64) :
    (s.bridge.read file buffer position).run m =
      (⟨m.kernel.read position buffer, Recorder.advance position (m.kernel.read position buffer).result⟩,
        m.recording [s.readCall size position]) := by
  obtain ⟨bytes, rfl⟩ := buffer
  simp only [Bridge.read, Selection.readCall]
  cases s.fileIo <;> rfl

theorem write_run (file : File) (bytes : Bytes) (position : Int64) :
    (s.bridge.write file bytes position).run m =
      (⟨(m.kernel.write position bytes).1, Recorder.advance position (m.kernel.write position bytes).1⟩,
        { m with kernel := (m.kernel.write position bytes).2 }.recording
          [s.writeCall bytes.length position]) := by
  let recorder := m.kernel.recorded [s.writeCall bytes.length position]
  have run : (s.bridge.write file bytes position).run m =
      (⟨(recorder.write position bytes).1, Recorder.advance position (recorder.write position bytes).1⟩,
        { m with kernel := (recorder.write position bytes).2 }) := by
    simp only [Bridge.write, recorder, Selection.writeCall]
    cases s.fileIo <;> rfl
  have recorded : recorder.write position bytes =
      ((m.kernel.write position bytes).1,
        (m.kernel.write position bytes).2.recorded [s.writeCall bytes.length position]) := by
    rw [Recorder.recorded, m.kernel.write_calls]
    exact m.kernel.write_withCalls recorder.calls position bytes
  rw [run, recorded]
  rfl

theorem grow_kernel (buffer : Bytes) (live wanted : UInt64) (flags : AllocationFlags) :
    ((s.bridge.grow buffer live wanted flags).run m).2.kernel =
      m.kernel.recorded (s.growth.calls (.reallocate wanted)) := by
  simp only [Bridge.grow, Supplier.calls]
  cases s.growth <;> rfl

theorem allocateBitmap_run (bits : UInt64) (flags : AllocationFlags) :
    (s.bridge.allocateBitmap bits flags).run m =
      (((Bitmap.allocate bits flags).run m.log).1,
        { m with log := ((Bitmap.allocate bits flags).run m.log).2 }.recording
          (s.bitmaps.calls (.allocateBitmap bits (flags.has Allocation.zeroed)))) := by
  simp only [Bridge.allocateBitmap, Supplier.calls]
  cases s.bitmaps <;> rfl

theorem freeBitmap_run (bitmap : Bitmap) :
    (s.bridge.freeBitmap bitmap).run m = ((), m.recording (s.bitmaps.calls .freeBitmap)) := by
  simp only [Bridge.freeBitmap, Supplier.calls]
  cases s.bitmaps <;> rfl

theorem sortGroups_kernel (ids : List UInt32) :
    ((s.bridge.sortGroups ids).run m).2.kernel = m.kernel.recorded (s.groupSort.calls .sortGroups) := by
  simp only [Bridge.sortGroups, Supplier.calls]
  cases s.groupSort <;> rfl

theorem lockInode_held (inode : Inode) (held : m.locks.isFree inode = false) :
    (s.bridge.lockInode inode).run m = (.error .wouldBlock, m) := by
  simp [Bridge.lockInode, held]

theorem lockInode_free (inode : Inode) (free : m.locks.isFree inode = true) :
    (s.bridge.lockInode inode).run m =
      (.ok ⟨inode⟩,
        { m with locks := m.locks.set inode .held }.recording (s.inodeLock.calls .lockInode)) := by
  simp only [Bridge.lockInode, Supplier.calls]
  cases s.inodeLock <;> simp [free] <;> rfl

theorem unlockInode_run (guard : Guard) :
    (s.bridge.unlockInode guard).run m = ((), { m with locks := m.locks.release guard }) := rfl

end Recording
end KernelAbi
