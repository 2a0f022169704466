import KernelAbi.Host
import KernelAbi.Log.Line
import KernelAbi.Selection.Report
import KernelAbi.Selection.Resolve

/-! Registration of the hook table. The first request of a name takes it, builds the table and hands it
to the kernel; every later one is refused, also one that comes while the first is still at work. The
table stays for good, since the kernel keeps it. -/
namespace KernelAbi.Registration

variable {κ : Type}

/-- The name under which the kernel knows the module. -/
def securityName : String := "ksu"

/-- Hands `table` to the kernel in the form that it takes. -/
def install (host : Host κ) (form : HookForm) (table : List HookEntry) : MachineM κ Unit :=
  match form with
  | .named => host.call (.addHooks table table.length securityName)
  | .counted => host.call (.addHooksCounted table table.length)

def register (host : Host κ) (s : Selection) (h : Handlers) (name : String) : MachineM κ Outcome := do
  if ((← get).registrations name).stage ≠ .idle then
    Machine.print ⟨.warning, "(LSM) Hooks ja registrados, ignorando", none⟩
    return .refused
  let table := h.table s.hooks
  if table.isEmpty then
    Machine.print ⟨.info, "(LSM) Nenhum hook selecionado, registro ignorado", none⟩
    Machine.setRegistration name ⟨.settled, none⟩
    return .skipped
  Machine.setRegistration name ⟨.assembling, some table⟩
  install host s.hookForm table
  Machine.setRegistration name ⟨.settled, some table⟩
  Machine.print ⟨.info, "(LSM) Hooks registrados=", some (.ofNat table.length)⟩
  return .installed table.length

/-- The registration that the module itself makes. -/
def moduleName : String := "KSU_LSM"

/-- Start of the module: reports what it was built for, then registers its hooks. -/
def start (host : Host κ) (h : Handlers) : MachineM κ Outcome := do
  modify fun m => { m with log := m.log.printAll Selection.build.report }
  register host Selection.build h moduleName

/-- A host that asks for the registration `name` once more whenever it is given hooks. -/
def nesting (host : Host κ) (s : Selection) (h : Handlers) (name : String) : Host κ where
  call primitive := do
    if primitive.addsHooks then
      let stage := ((← get).registrations name).stage
      let outcome ← register host s h name
      Machine.note (.nested stage outcome)
    host.call primitive

end KernelAbi.Registration
