import KernelAbi.Version

/-! The versions at which the kernel's primitives changed. -/
namespace KernelAbi.Threshold

def fileInode : Version := .make 3 9 0

/-- Before it, the session keyring of the first process is a global of the kernel. -/
def keyringHidden : Version := .make 4 10 0

def namedHooks : Version := .make 4 11 0
def movingFileIo : Version := .make 4 14 0
def groupSort : Version := .make 4 15 0
def bitmaps : Version := .make 4 19 0
def untypedAccess : Version := .make 5 0 0
def selinuxAccessors : Version := .make 5 1 0
def implicitSignal : Version := .make 5 3 0
def unsafeUserCopy : Version := .make 5 3 0
def notifyMode : Version := .make 5 7 0
def nofaultCopy : Version := .make 5 8 0
def directClose : Version := .make 5 11 0
def growth : Version := .make 6 12 0

/-- The series in which the HiSilicon vendor trees keep their policy database read-only. -/
def hisiliconSeries : List Version.Window :=
  [⟨.make 4 9 0, .make 4 10 0⟩, ⟨.make 4 14 0, .make 4 15 0⟩]

end KernelAbi.Threshold
