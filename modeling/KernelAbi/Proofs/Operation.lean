import KernelAbi.Proofs.Registration

/-! The operations of the module as data, and the clients that use them. What a client asks for next may
depend on every answer so far, so the runs of clients are all the finite runs there are. Each operation
of a run finds a selection of its own. -/
namespace KernelAbi

inductive Operation where
  | accessOk (address size : UInt64)
  | forceSignal (signal : Int32)
  | addTaskWork (task : Task) (mode : NotifyMode)
  | closeFd (fd : UInt32)
  | fileInode (file : File)
  | selinuxInode (inode : Inode)
  | selinuxCred (cred : Cred)
  | initSessionKeyring
  | copyString {size : Nat} (buffer : Buffer size) (address : UInt64)
  | openFile (path : String) (flags : Int32) (mode : UInt16)
  | read {size : Nat} (file : File) (buffer : Buffer size) (position : Int64)
  | write (file : File) (bytes : Bytes) (position : Int64)
  | grow (buffer : Bytes) (live wanted : UInt64) (flags : AllocationFlags)
  | allocateBitmap (bits : UInt64) (flags : AllocationFlags)
  | allocateClearBitmap (bits : UInt64) (flags : AllocationFlags)
  | freeBitmap (bitmap : Bitmap)
  | sortGroups (ids : List UInt32)
  | lockInode (inode : Inode)
  | unlockInode (guard : Guard)
  | register (name : String) (handlers : Handlers)

namespace Operation

def Answer : Operation → Type
  | .accessOk .. => Bool
  | .forceSignal _ | .freeBitmap _ | .unlockInode _ => Unit
  | .addTaskWork .. | .closeFd _ => Result Unit
  | .fileInode _ => Option Inode
  | .selinuxInode _ => Option InodeSecurity
  | .selinuxCred _ => Option TaskSecurity
  | .initSessionKeyring => Option Key
  | @copyString size _ _ => Filled size
  | .openFile .. => Result File
  | @read size _ _ _ => Moved (Filled size)
  | .write .. => Moved (Result Nat)
  | .grow .. => Except Bytes Bytes
  | .allocateBitmap .. | .allocateClearBitmap .. => Option Bitmap
  | .sortGroups _ => List UInt32
  | .lockInode _ => Except LockError Guard
  | .register .. => Registration.Outcome

def perform (s : Selection) : (op : Operation) → MachineM Recorder op.Answer
  | .accessOk address size => s.bridge.accessOk address size
  | .forceSignal signal => s.bridge.forceSignal signal
  | .addTaskWork task mode => s.bridge.addTaskWork task mode
  | .closeFd fd => s.bridge.closeFd fd
  | .fileInode file => s.bridge.fileInode file
  | .selinuxInode inode => s.bridge.selinuxInode inode
  | .selinuxCred cred => s.bridge.selinuxCred cred
  | .initSessionKeyring => s.bridge.initSessionKeyring
  | .copyString buffer address => s.bridge.copyString buffer address
  | .openFile path flags mode => s.bridge.openFile path flags mode
  | .read file buffer position => s.bridge.read file buffer position
  | .write file bytes position => s.bridge.write file bytes position
  | .grow buffer live wanted flags => s.bridge.grow buffer live wanted flags
  | .allocateBitmap bits flags => s.bridge.allocateBitmap bits flags
  | .allocateClearBitmap bits flags => s.bridge.allocateClearBitmap bits flags
  | .freeBitmap bitmap => s.bridge.freeBitmap bitmap
  | .sortGroups ids => s.bridge.sortGroups ids
  | .lockInode inode => s.bridge.lockInode inode
  | .unlockInode guard => s.bridge.unlockInode guard
  | .register name handlers => Registration.register Recorder.host s handlers name

/-- A registration reaches the host only as the first of its name, and not empty-handed. -/
def registerCalls (s : Selection) (m : Machine Recorder) (name : String) (h : Handlers) : List Call :=
  if (m.registrations name).stage = .idle ∧ h.table s.hooks ≠ [] then
    [s.hookForm.call (h.table s.hooks)]
  else []

/-- The calls by which an operation is carried out. -/
def calls (s : Selection) (m : Machine Recorder) : Operation → List Call
  | .accessOk _ size => [s.accessCall size]
  | .forceSignal signal => [s.signalCall signal m.kernel.current]
  | .addTaskWork task mode => [s.notifyCall task mode]
  | .closeFd fd => [s.closeCall m.kernel.files fd]
  | .fileInode _ => s.fileInode.calls .fileInode
  | .selinuxInode _ => s.selinuxInode.calls .selinuxInode
  | .selinuxCred _ => s.selinuxCred.calls .selinuxCred
  | .initSessionKeyring => if s.initKeyring then [.initSessionKeyring] else []
  | @copyString size _ _ => s.copyCalls size
  | .openFile _ flags mode => s.keyringCalls m.kernel ++ [.openFile flags mode]
  | @read size _ _ position => [s.readCall size position]
  | .write _ bytes position => [s.writeCall bytes.length position]
  | .grow _ _ wanted _ => s.growth.calls (.reallocate wanted)
  | .allocateBitmap bits flags => s.bitmaps.calls (.allocateBitmap bits (flags.has Allocation.zeroed))
  | .allocateClearBitmap bits flags =>
    s.bitmaps.calls (.allocateBitmap bits ((flags.insert Allocation.zeroed).has Allocation.zeroed))
  | .freeBitmap _ => s.bitmaps.calls .freeBitmap
  | .sortGroups _ => s.groupSort.calls .sortGroups
  | .lockInode inode => if m.locks.isFree inode then s.inodeLock.calls .lockInode else []
  | .unlockInode _ => []
  | .register name handlers => registerCalls s m name handlers

variable (s : Selection) (m : Machine Recorder)

theorem register_calls (name : String) (h : Handlers) :
    ((Registration.register Recorder.host s h name).run m).2.kernel.calls.toList =
      m.kernel.calls.toList ++ registerCalls s m name h := by
  by_cases idle : (m.registrations name).stage = .idle
  · by_cases empty : h.table s.hooks = []
    · obtain ⟨log, run⟩ := Registration.register_skipped Recorder.host s h name m idle empty
      rw [run]
      simp [registerCalls, empty]
    · obtain ⟨log, run⟩ := Registration.register_installs Recorder.host s h name m idle empty
      rw [Registration.install_run] at run
      rw [run]
      simp [registerCalls, idle, empty, Recorder.given]
  · obtain ⟨log, run⟩ := Registration.register_refused Recorder.host s h name m idle
    rw [run]
    simp [registerCalls, idle]

/-- What an operation does to its host besides does not touch the record. -/
theorem calls_of_kernel {m after : Machine Recorder} {kernel : Recorder} {calls : List Call}
    (recorded : after.kernel = kernel.recorded calls) (unchanged : kernel.calls = m.kernel.calls) :
    after.kernel.calls.toList = m.kernel.calls.toList ++ calls := by
  rw [recorded, Recorder.recorded_calls, unchanged]

theorem calls_of_run {α : Type} {m after : Machine Recorder} {run : MachineM Recorder α} {answer : α}
    {calls : List Call} (recorded : run.run m = (answer, after.recording calls))
    (unchanged : after.kernel.calls = m.kernel.calls) :
    (run.run m).2.kernel.calls.toList = m.kernel.calls.toList ++ calls := by
  rw [recorded]
  exact calls_of_kernel rfl unchanged

theorem perform_calls (op : Operation) :
    ((op.perform s).run m).2.kernel.calls.toList = m.kernel.calls.toList ++ op.calls s m := by
  cases op with
  | accessOk address size => exact calls_of_run (Recording.accessOk_run s m address size) rfl
  | forceSignal signal => exact calls_of_run (Recording.forceSignal_run s m signal) rfl
  | addTaskWork task mode => exact calls_of_run (Recording.addTaskWork_run s m task mode) rfl
  | closeFd fd => exact calls_of_run (Recording.closeFd_run s m fd) rfl
  | fileInode file => exact calls_of_kernel (Recording.fileInode_kernel s m file) rfl
  | selinuxInode inode => exact calls_of_run (Recording.selinuxInode_run s m inode) rfl
  | selinuxCred cred => exact calls_of_run (Recording.selinuxCred_run s m cred) rfl
  | initSessionKeyring => exact calls_of_kernel (Recording.initSessionKeyring_kernel s m) rfl
  | copyString buffer address => exact calls_of_kernel (Recording.copyString_kernel s m buffer address) rfl
  | openFile path flags mode => exact calls_of_kernel (Recording.openFile_kernel s m path flags mode) rfl
  | read file buffer position => exact calls_of_run (Recording.read_run s m file buffer position) rfl
  | write file bytes position =>
    exact calls_of_run (Recording.write_run s m file bytes position) (m.kernel.write_calls position bytes)
  | grow buffer live wanted flags =>
    exact calls_of_kernel (Recording.grow_kernel s m buffer live wanted flags) rfl
  | allocateBitmap bits flags => exact calls_of_run (Recording.allocateBitmap_run s m bits flags) rfl
  | allocateClearBitmap bits flags =>
    exact calls_of_run (Recording.allocateBitmap_run s m bits (flags.insert Allocation.zeroed)) rfl
  | freeBitmap bitmap => exact calls_of_run (Recording.freeBitmap_run s m bitmap) rfl
  | sortGroups ids => exact calls_of_kernel (Recording.sortGroups_kernel s m ids) rfl
  | lockInode inode =>
    simp only [perform, calls]
    cases free : m.locks.isFree inode with
    | false => exact calls_of_run (Recording.lockInode_held s m inode free) rfl
    | true => exact calls_of_run (Recording.lockInode_free s m inode free) rfl
  | unlockInode guard => exact (List.append_nil _).symm
  | register name handlers => exact register_calls s m name handlers

end Operation

/-- A client stops, or asks for an operation and goes on with its answer. -/
inductive Client where
  | stop
  | ask (op : Operation) (next : op.Answer → Client)

/-- An operation that was carried out, with its answer and the calls that it took. -/
structure Exchange where
  operation : Operation
  answer : operation.Answer
  calls : List Call

namespace Client

/-- Carries out what the client asks for. The selection may be another one at each operation. -/
def run : Client → (Nat → Selection) → Machine Recorder → List Exchange × Machine Recorder
  | .stop, _, m => ([], m)
  | .ask op next, selections, m =>
    let (answer, after) := (op.perform (selections 0)).run m
    let calls := after.kernel.calls.toList.drop m.kernel.calls.size
    let (exchanges, last) := (next answer).run (fun i => selections (i + 1)) after
    (⟨op, answer, calls⟩ :: exchanges, last)

theorem run_ask (op : Operation) (next : op.Answer → Client) (selections : Nat → Selection)
    (m : Machine Recorder) :
    let after := (op.perform (selections 0)).run m
    let rest := (next after.1).run (fun i => selections (i + 1)) after.2
    (ask op next).run selections m =
      (⟨op, after.1, op.calls (selections 0) m⟩ :: rest.1, rest.2) := by
  intro after rest
  have calls : after.2.kernel.calls.toList.drop m.kernel.calls.size = op.calls (selections 0) m := by
    rw [op.perform_calls, ← Array.length_toList, List.drop_left]
  rw [← calls]
  rfl

/-- The record of a run is that of its operations, one after another. -/
theorem run_calls (client : Client) (selections : Nat → Selection) (m : Machine Recorder) :
    (client.run selections m).2.kernel.calls.toList =
      m.kernel.calls.toList ++ (client.run selections m).1.flatMap (·.calls) := by
  induction client generalizing selections m with
  | stop => exact (List.append_nil _).symm
  | ask op next ih =>
    rw [run_ask, ih, op.perform_calls, List.append_assoc, List.flatMap_cons]

end Client
end KernelAbi
