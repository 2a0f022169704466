import KernelAbi.Log.Line
import KernelAbi.Selection

/-! The report of a selection, printed once when the module starts. It is that of a module whose log is built
with all its levels, down to `trace`. Builds whose log leaves out the lines below some level, or all lines,
print a part of this report or nothing of it, and are not described. -/
namespace KernelAbi.Selection

open Log

def accessNote : AccessForm → String
  | .untyped => "(Probe) access_ok: 2 argumentos"
  | .typed => "(Probe) access_ok: VERIFY_READ"

def signalNote : SignalForm → String
  | .implicit => "(Probe) force_sig: current implicito"
  | .explicit => "(Probe) force_sig: task explicita"

def notifyNote : NotifyForm → String
  | .mode => "(Probe) task_work_add: enum"
  | .flag => "(Probe) task_work_add: bool"

def closeNote : CloseForm → String
  | .direct => "(Probe) close_fd(fd)"
  | .inTable => "(Probe) __close_fd(files, fd)"

def stringCopyNote : StringCopyForm → String
  | .nofault => "(Probe) strncpy_from_user_nofault"
  | .unsafeUser => "(Probe) strncpy_from_unsafe_user"
  | .substitute => "(Probe) strncpy_from_user local"

def fileIoNote : FileIoForm → String
  | .moving => "(Probe) kernel_read/write: loff_t *pos"
  | .offset => "(Probe) kernel_read/write: offset"

def word {width : Nat} (bits : BitVec width) : Option UInt64 := some (.ofNat bits.toNat)

/-- A line that is printed only when `shown` holds. -/
def noteIf (shown : Bool) (line : Line) : List Line := if shown then [line] else []

def report (s : Selection) : List Line :=
  [⟨.info, "(Probe) LINUX_VERSION_CODE=", some s.version.code.toUInt64⟩,
   ⟨.debug, "(Probe) VendorFlags=", word s.flags.bits⟩]
  ++ noteIf s.hisilicon ⟨.info, "(Probe) CONFIG_IS_HW_HISI ativo", none⟩
  ++ [⟨.debug, accessNote s.access, none⟩,
      ⟨.debug, signalNote s.signal, none⟩,
      ⟨.debug, notifyNote s.notify, none⟩,
      ⟨.debug, closeNote s.close, none⟩,
      ⟨.debug, stringCopyNote s.stringCopy, none⟩,
      ⟨.debug, fileIoNote s.fileIo, none⟩,
      ⟨.debug, "(Probe) Shims locais=", word s.substitutes.bits⟩]
  ++ noteIf s.initKeyring ⟨.debug, "(Probe) extern init_session_keyring", none⟩
  ++ [⟨.info, "(Probe) HookSet=", word s.hooks.bits⟩]

end KernelAbi.Selection
