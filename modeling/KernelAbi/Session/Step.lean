import KernelAbi.Bridge
import KernelAbi.Hook.Policy
import KernelAbi.Hook.Registration
import KernelAbi.Host.Recorder
import KernelAbi.Log.Script
import KernelAbi.Memory.Script
import KernelAbi.Selection.Request

/-! The steps of a session. A step names the objects that it uses, and says of what type its answer
is. -/
namespace KernelAbi.Session

/-- The handlers that a step installs or calls. -/
inductive WhichHandlers where
  | common
  | own
deriving DecidableEq, Repr

inductive Step where
  | configure (request : Selection.Request)
  | selection
  | configureForBuild
  | accessOk (address size : UInt64)
  | forceSignal (signal : Int32)
  /-- Without a process the work is for the current task. -/
  | addTaskWork (mode : NotifyMode) (pid : Option UInt32)
  | closeFd (fd : UInt32)
  | makeInode (name : String) (number : UInt64) (lock : LockKind) (security : Option InodeSecurity)
  | openInode (name inode : String) (flags : UInt32)
  | makeFile (name : String) (entryInode inode : Option String) (flags : UInt32)
  | fileInode (file : String)
  | selinuxInode (inode : String)
  | showCred (cred : Cred)
  | selinuxCred (cred : Cred)
  | initSessionKeyring
  | copyString {size : Nat} (buffer : Buffer size) (address : UInt64)
  | openFile (path : String) (flags : Int32) (mode : UInt16) (name : Option String)
  | installedKeyring
  /-- Without a position a transfer goes on where the last one stopped. -/
  | read {size : Nat} (buffer : Buffer size) (position : Option Int64) (file : Option String)
  | write (bytes : Bytes) (position : Option Int64) (file : Option String)
  | fileData
  | grow (buffer : Bytes) (live wanted : UInt64) (flags : AllocationFlags)
  | allocateBitmap (name : String) (bits : UInt64) (flags : AllocationFlags)
  | allocateClearBitmap (name : String) (bits : UInt64) (flags : AllocationFlags)
  | bitmap (name : String) (step : Bitmap.Step)
  | freeBitmap (name : String)
  | sameBitmap (a b : String)
  | sortGroups (ids : List UInt32)
  | lockInode (inode : String)
  | unlockInode (inode : String)
  | shareInode (inode : String)
  | unshareInode (inode : String)
  | isLocked (inode : String)
  | register (registration : String) (handlers : WhichHandlers) (nested : Bool)
  | registration (name : String)
  | start
  | hookTable (hooks : HookSet)
  | registrationCalls
  | callSetuid (new old : Cred) (flags : Int32)
  | callFilePermission (mask : Int32) (file : Option String)
  | fixSetuid (new old : Cred) (flags : Int32) (handlers : WhichHandlers)
  | filePermission (mask : Int32) (file : Option String) (handlers : WhichHandlers)
  | setToggle (handlers : WhichHandlers) (on : Bool)
  | toggle (handlers : WhichHandlers)
  | log (step : Log.Step)

/-- Groups after a sort, and whether they were and are in order. -/
structure Sorted where
  before : Bool
  after : Bool
  ids : List UInt32
deriving DecidableEq, Repr

/-- Calls that registered hooks, and all calls. -/
structure CallCount where
  registrations : Nat
  all : Nat
deriving DecidableEq, Repr

def Step.Answer : Step → Type
  | .selection | .configureForBuild => Selection
  | .accessOk .. | .sameBitmap .. | .unlockInode _ | .shareInode _ | .unshareInode _ | .isLocked _
  | .setToggle .. | .toggle _ => Bool
  | .addTaskWork .. | .closeFd _ => Result Unit
  | .openInode .. => File
  | .fileInode _ => Option Inode
  | .selinuxInode _ => Option InodeSecurity
  | .showCred _ => Cred
  | .selinuxCred _ => Option TaskSecurity
  | .initSessionKeyring | .installedKeyring => Option Key
  | @Step.copyString size _ _ => Filled size
  | .openFile .. => Result File
  | @Step.read size _ _ _ => Moved (Filled size)
  | .write .. => Moved (Result Nat)
  | .fileData => Bytes
  | .grow .. => Except Bytes Bytes
  | .allocateBitmap .. | .allocateClearBitmap .. => Option Bitmap
  | .bitmap _ step => step.Answer
  | .sortGroups _ => Sorted
  | .lockInode _ => Guard × Bool
  | .register .. | .start => Registration.Outcome
  | .registration _ => Registration
  | .hookTable _ => List HookEntry
  | .registrationCalls => CallCount
  | .callSetuid .. | .callFilePermission .. | .fixSetuid .. | .filePermission .. => Int32
  | .log step => step.Answer
  | _ => Unit

/-- Why a step is not carried out. -/
inductive Refusal where
  | unknownInode (name : String)
  | unknownFile (name : String)
  | unknownBitmap (name : String)
  | request (error : Selection.RequestError)
  | index (error : Bitmap.OutOfRange)
  | lock (error : LockError)
deriving DecidableEq, Repr

end KernelAbi.Session
