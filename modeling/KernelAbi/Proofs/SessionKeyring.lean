import KernelAbi.Proofs.Operation

/-! The session keyring over whole runs. The selection may be another one at each turn. A keyring is given
only on the way to an open, to a worker that has none, and at most once in a run; where it can be given, no
worker's file is opened without it. -/
namespace KernelAbi

namespace Call

def installs : Call → Bool
  | .installSessionKeyring _ => true
  | _ => false

def opens : Call → Bool
  | .openFile .. => true
  | _ => false

/-- Neither installs a keyring nor opens a file. -/
def isPlain (call : Call) : Bool := !call.installs && !call.opens

end Call

namespace Operation

/-- The one call by which the host opens what the operation opens. -/
def openCall : Operation → Option Call
  | .openFile _ flags mode => some (.openFile flags mode)
  | _ => none

variable (s : Selection) (m : Machine Recorder)

theorem openCall_eq_some {op : Operation} {call : Call} (opens : op.openCall = some call) :
    ∃ path flags mode, op = .openFile path flags mode ∧ call = .openFile flags mode := by
  cases op with
  | openFile path flags mode => exact ⟨path, flags, mode, rfl, (Option.some.inj opens).symm⟩
  | _ => contradiction

/-- Of the operations only an open has to do with keyrings or files to open. -/
theorem calls_isPlain {op : Operation} (other : op.openCall = none) :
    ∀ call ∈ op.calls s m, call.isPlain := by
  intro call member
  cases op with
  | openFile path flags mode => contradiction
  | unlockInode guard => contradiction
  | fileInode file | selinuxInode inode | selinuxCred cred | grow buffer live wanted flags
  | allocateBitmap bits flags | allocateClearBitmap bits flags | freeBitmap bitmap | sortGroups ids =>
    obtain ⟨rfl, -⟩ := Supplier.mem_calls member
    rfl
  | accessOk address size | forceSignal signal | addTaskWork task mode | closeFd fd
  | read file buffer position | write file bytes position =>
    rw [List.mem_singleton.mp member]
    simp only [Selection.accessCall, Selection.signalCall, Selection.notifyCall, Selection.closeCall,
      Selection.readCall, Selection.writeCall]
    split <;> rfl
  | initSessionKeyring =>
    simp only [calls] at member
    split at member
    · rw [List.mem_singleton.mp member]
      rfl
    · contradiction
  | @copyString size buffer address =>
    simp only [calls, Selection.copyCalls] at member
    split at member
    · rw [List.mem_singleton.mp member]
      rfl
    · rw [List.mem_singleton.mp member]
      rfl
    · split at member
      · contradiction
      · rw [List.mem_singleton.mp member]
        rfl
  | lockInode inode =>
    simp only [calls] at member
    split at member
    · obtain ⟨rfl, -⟩ := Supplier.mem_calls member
      rfl
    · contradiction
  | register name handlers =>
    simp only [calls, registerCalls] at member
    split at member
    · rw [List.mem_singleton.mp member, HookForm.call]
      split <;> rfl
    · contradiction

end Operation

/-- What an open looks at before it opens. -/
structure Standing where
  worker : Bool
  /-- The keyring of the first process. -/
  offered : Option Key
  installed : Option Key

namespace Recorder

def standing (r : Recorder) : Standing := ⟨r.workqueueWorker, r.initKeyring, r.installedKeyring⟩

theorem write_standing (r : Recorder) (position : Int64) (bytes : Bytes) :
    (r.write position bytes).2.standing = r.standing := by
  unfold write
  split <;> rfl

end Recorder

namespace Operation

variable (s : Selection) (m : Machine Recorder)

theorem standing_of_kernel {m after : Machine Recorder} {kernel : Recorder} {calls : List Call}
    (recorded : after.kernel = kernel.recorded calls) (unchanged : kernel.standing = m.kernel.standing) :
    after.kernel.standing = m.kernel.standing := by
  rw [recorded]
  exact unchanged

theorem standing_of_run {α : Type} {m after : Machine Recorder} {run : MachineM Recorder α} {answer : α}
    {calls : List Call} (recorded : run.run m = (answer, after.recording calls))
    (unchanged : after.kernel.standing = m.kernel.standing) :
    (run.run m).2.kernel.standing = m.kernel.standing := by
  rw [recorded]
  exact standing_of_kernel rfl unchanged

theorem register_standing (name : String) (h : Handlers) :
    ((Registration.register Recorder.host s h name).run m).2.kernel.standing = m.kernel.standing := by
  by_cases idle : (m.registrations name).stage = .idle
  · by_cases empty : h.table s.hooks = []
    · obtain ⟨log, run⟩ := Registration.register_skipped Recorder.host s h name m idle empty
      rw [run]
      rfl
    · obtain ⟨log, run⟩ := Registration.register_installs Recorder.host s h name m idle empty
      rw [Registration.install_run] at run
      rw [run]
      rfl
  · obtain ⟨log, run⟩ := Registration.register_refused Recorder.host s h name m idle
    rw [run]

theorem perform_standing {op : Operation} (other : op.openCall = none) :
    ((op.perform s).run m).2.kernel.standing = m.kernel.standing := by
  cases op with
  | accessOk address size => exact standing_of_run (Recording.accessOk_run s m address size) rfl
  | forceSignal signal => exact standing_of_run (Recording.forceSignal_run s m signal) rfl
  | addTaskWork task mode => exact standing_of_run (Recording.addTaskWork_run s m task mode) rfl
  | closeFd fd => exact standing_of_run (Recording.closeFd_run s m fd) rfl
  | fileInode file => exact standing_of_kernel (Recording.fileInode_kernel s m file) rfl
  | selinuxInode inode => exact standing_of_run (Recording.selinuxInode_run s m inode) rfl
  | selinuxCred cred => exact standing_of_run (Recording.selinuxCred_run s m cred) rfl
  | initSessionKeyring => exact standing_of_kernel (Recording.initSessionKeyring_kernel s m) rfl
  | copyString buffer address =>
    exact standing_of_kernel (Recording.copyString_kernel s m buffer address) rfl
  | openFile path flags mode => contradiction
  | read file buffer position => exact standing_of_run (Recording.read_run s m file buffer position) rfl
  | write file bytes position =>
    exact standing_of_run (Recording.write_run s m file bytes position)
      (m.kernel.write_standing position bytes)
  | grow buffer live wanted flags =>
    exact standing_of_kernel (Recording.grow_kernel s m buffer live wanted flags) rfl
  | allocateBitmap bits flags => exact standing_of_run (Recording.allocateBitmap_run s m bits flags) rfl
  | allocateClearBitmap bits flags =>
    exact standing_of_run (Recording.allocateBitmap_run s m bits (flags.insert Allocation.zeroed)) rfl
  | freeBitmap bitmap => exact standing_of_run (Recording.freeBitmap_run s m bitmap) rfl
  | sortGroups ids => exact standing_of_kernel (Recording.sortGroups_kernel s m ids) rfl
  | lockInode inode =>
    simp only [perform]
    cases free : m.locks.isFree inode with
    | false => exact congrArg (·.2.kernel.standing) (Recording.lockInode_held s m inode free)
    | true => exact standing_of_run (Recording.lockInode_free s m inode free) rfl
  | unlockInode guard => rfl
  | register name handlers => exact register_standing s m name handlers

/-- An open is the host's own, behind what gives the worker its keyring. -/
theorem openFile_run (path : String) (flags : Int32) (mode : UInt16) :
    ∃ ready : Machine Recorder,
      (s.bridge.openFile path flags mode).run m =
        (Recorder.host.call (.openFile path flags mode)).run ready ∧
      ready.kernel.installedKeyring = s.keyringAfter m.kernel := by
  obtain ⟨provided, kernel⟩ := Recording.provideKeyring_kernel s m
  refine ⟨((s.bridge.provideKeyring).run m).2, ?_, ?_⟩
  · simp only [Bridge.openFile, Machine.run_bind, provided]
  · rw [kernel]
    rfl

theorem openFile_standing (path : String) (flags : Int32) (mode : UInt16) :
    ((s.bridge.openFile path flags mode).run m).2.kernel.standing =
      { m.kernel.standing with installed := s.keyringAfter m.kernel } := by
  rw [Recording.openFile_kernel]
  rfl

end Operation

namespace Selection

/-- What an open does about the keyring of its task: the calls that it makes for it, and the keyring that
the task has then. -/
inductive Provision (s : Selection) (r : Recorder) : List Call → Option Key → Prop where
  | idle (idle : ¬ s.Provides r) : Provision s r [] r.installedKeyring
  | unanswered (provides : s.Provides r) (unoffered : r.initKeyring = none) :
      Provision s r [.initSessionKeyring] none
  | given (key : Key) (provides : s.Provides r) (offered : r.initKeyring = some key) :
      Provision s r [.initSessionKeyring, .installSessionKeyring key.serial] (some key)

theorem provision (s : Selection) (r : Recorder) : s.Provision r (s.keyringCalls r) (s.keyringAfter r) := by
  by_cases provides : s.Provides r
  · rw [keyringCalls, keyringAfter, if_pos provides, if_pos provides]
    cases offered : r.initKeyring with
    | none => exact .unanswered provides offered
    | some key => exact .given key provides offered
  · rw [keyringCalls, keyringAfter, if_neg provides, if_neg provides]
    exact .idle provides

namespace Provision

variable {s : Selection} {r : Recorder} {calls : List Call} {installed : Option Key}

/-- A keyring is installed by the one call that a worker without one makes, and never replaced. -/
theorem balance (provision : s.Provision r calls installed) :
    installed.toList.length = r.installedKeyring.toList.length + calls.countP Call.installs := by
  cases provision with
  | idle => rfl
  | unanswered provides => rw [provides.2.2]; rfl
  | given key provides => rw [provides.2.2]; rfl

theorem kept (provision : s.Provision r calls installed) {key : Key}
    (held : r.installedKeyring = some key) : installed = some key := by
  cases provision with
  | idle => exact held
  | unanswered provides => exact absurd (provides.2.2.symm.trans held) (by simp)
  | given other provides => exact absurd (provides.2.2.symm.trans held) (by simp)

theorem isSome (provision : s.Provision r calls installed) (declared : s.initKeyring)
    (worker : r.workqueueWorker) (offered : r.initKeyring.isSome) : installed.isSome := by
  cases provision with
  | idle idle =>
    have held : r.installedKeyring ≠ none := fun absent => idle ⟨declared, worker, absent⟩
    exact Option.isSome_iff_ne_none.mpr held
  | unanswered provides unoffered => simp [unoffered] at offered
  | given key => rfl

theorem opens_nothing (provision : s.Provision r calls installed) : calls.filter Call.opens = [] := by
  cases provision <;> rfl

/-- The keyring that is given is the one that the host answered with. -/
theorem installs_origin (provision : s.Provision r calls installed) {serial : Int32}
    (member : .installSessionKeyring serial ∈ calls) :
    ∃ key, s.Provides r ∧ r.initKeyring = some key ∧ serial = key.serial ∧ installed = some key ∧
      calls = [.initSessionKeyring, .installSessionKeyring serial] := by
  cases provision with
  | idle => contradiction
  | unanswered => simp at member
  | given key provides offered =>
    obtain rfl : serial = key.serial := by simpa using member
    exact ⟨key, provides, offered, rfl, rfl, rfl⟩

end Provision
end Selection

/-- An operation and the selection that it is carried out under. -/
structure Turn where
  selection : Selection
  operation : Operation

namespace Turn

/-- The machine that the turn leaves. -/
def next (turn : Turn) (m : Machine Recorder) : Machine Recorder :=
  ((turn.operation.perform turn.selection).run m).2

def calls (turn : Turn) (m : Machine Recorder) : List Call := turn.operation.calls turn.selection m

/-- The turns in order. Gives for each the calls that it left in the record. -/
def run : List Turn → Machine Recorder → List (List Call) × Machine Recorder
  | [], m => ([], m)
  | turn :: turns, m =>
    let after := turn.next m
    let (shares, last) := run turns after
    (after.kernel.calls.toList.drop m.kernel.calls.size :: shares, last)

theorem next_calls (turn : Turn) (m : Machine Recorder) :
    (turn.next m).kernel.calls.toList = m.kernel.calls.toList ++ turn.calls m :=
  turn.operation.perform_calls turn.selection m

theorem run_cons (turn : Turn) (turns : List Turn) (m : Machine Recorder) :
    run (turn :: turns) m =
      (turn.calls m :: (run turns (turn.next m)).1, (run turns (turn.next m)).2) := by
  have share : (turn.next m).kernel.calls.toList.drop m.kernel.calls.size = turn.calls m := by
    rw [next_calls, ← Array.length_toList, List.drop_left]
  rw [← share]
  rfl

theorem run_length (turns : List Turn) (m : Machine Recorder) : (run turns m).1.length = turns.length := by
  induction turns generalizing m with
  | nil => rfl
  | cons turn turns ih => rw [run_cons, List.length_cons, List.length_cons, ih]

/-- The record of a run is what its turns left there, one after another. -/
theorem run_calls (turns : List Turn) (m : Machine Recorder) :
    (run turns m).2.kernel.calls.toList = m.kernel.calls.toList ++ (run turns m).1.flatten := by
  induction turns generalizing m with
  | nil => exact (List.append_nil _).symm
  | cons turn turns ih => rw [run_cons, ih, next_calls, List.append_assoc, List.flatten_cons]

theorem run_append (earlier later : List Turn) (m : Machine Recorder) :
    (run (earlier ++ later) m).2 = (run later (run earlier m).2).2 := by
  induction earlier generalizing m with
  | nil => rfl
  | cons turn turns ih => rw [List.cons_append, run_cons, run_cons, ih]

theorem run_share (earlier later : List Turn) (turn : Turn) (m : Machine Recorder) :
    (run (earlier ++ turn :: later) m).1[earlier.length]? = some (turn.calls (run earlier m).2) := by
  induction earlier generalizing m with
  | nil =>
    rw [List.nil_append, run_cons]
    rfl
  | cons first turns ih =>
    rw [List.cons_append, run_cons, run_cons]
    exact ih (first.next m)

/-- What a turn comes to: it opens a file, or leaves keyrings and files alone. -/
inductive Step (turn : Turn) (m : Machine Recorder) : Prop where
  | opens (path : String) (flags : Int32) (mode : UInt16) (provision : List Call) (installed : Option Key)
      (operation : turn.operation = .openFile path flags mode)
      (provides : turn.selection.Provision m.kernel provision installed)
      (calls : turn.calls m = provision ++ [.openFile flags mode])
      (standing : (turn.next m).kernel.standing = { m.kernel.standing with installed })
  | plain (other : turn.operation.openCall = none) (calls : ∀ call ∈ turn.calls m, call.isPlain)
      (standing : (turn.next m).kernel.standing = m.kernel.standing)

theorem step (turn : Turn) (m : Machine Recorder) : turn.Step m := by
  obtain ⟨s, op⟩ := turn
  cases opened : op.openCall with
  | none => exact .plain opened (Operation.calls_isPlain s m opened) (Operation.perform_standing s m opened)
  | some call =>
    obtain ⟨path, flags, mode, rfl, rfl⟩ := Operation.openCall_eq_some opened
    exact .opens path flags mode _ _ rfl (s.provision m.kernel) rfl
      (Operation.openFile_standing s m path flags mode)

section Steps

variable {turn : Turn} {m : Machine Recorder}

theorem Step.balance (step : turn.Step m) :
    (turn.next m).kernel.installedKeyring.toList.length =
      m.kernel.installedKeyring.toList.length + (turn.calls m).countP Call.installs := by
  cases step with
  | opens path flags mode provision installed operation provides calls standing =>
    have after : (turn.next m).kernel.installedKeyring = installed := congrArg Standing.installed standing
    rw [after, provides.balance, calls, List.countP_append]
    rfl
  | plain other calls standing =>
    have after : (turn.next m).kernel.installedKeyring = m.kernel.installedKeyring :=
      congrArg Standing.installed standing
    have none : (turn.calls m).countP Call.installs = 0 := by
      apply List.countP_eq_zero.mpr
      intro call member installs
      simpa [Call.isPlain, installs] using calls call member
    rw [after, none, Nat.add_zero]

/-- Neither who runs nor which keyring is offered changes, and a keyring stays. -/
theorem Step.standing (step : turn.Step m) :
    ∃ installed, (turn.next m).kernel.standing = { m.kernel.standing with installed } ∧
      ∀ key, m.kernel.installedKeyring = some key → installed = some key := by
  cases step with
  | opens path flags mode provision installed operation provides calls standing =>
    exact ⟨installed, standing, fun key held => provides.kept held⟩
  | plain other calls standing => exact ⟨_, standing, fun key held => held⟩

end Steps

/-- The open that meets `m` is the host's own on `ready`, where the keyring is in place. -/
structure OpensOn (turn : Turn) (path : String) (flags : Int32) (mode : UInt16)
    (m ready : Machine Recorder) : Prop where
  host : (turn.selection.bridge.openFile path flags mode).run m =
    (Recorder.host.call (.openFile path flags mode)).run ready
  kept : ready.kernel.installedKeyring = (turn.next m).kernel.installedKeyring
  provided : turn.selection.initKeyring → m.kernel.workqueueWorker → m.kernel.initKeyring.isSome →
    ready.kernel.installedKeyring.isSome

/-- How a turn that meets `m` deals with keyrings and files, where `calls` are those that it leaves in the
record. -/
structure Accounts (turn : Turn) (m : Machine Recorder) (calls : List Call) : Prop where
  recorded : (turn.next m).kernel.calls.toList = m.kernel.calls.toList ++ calls
  /-- The host offers a keyring, which is installed, and then the file is opened. -/
  installs : ∀ serial, .installSessionKeyring serial ∈ calls →
    ∃ path flags mode key, turn.operation = .openFile path flags mode ∧
      turn.selection.initKeyring ∧ m.kernel.workqueueWorker ∧ m.kernel.installedKeyring = none ∧
      ((Recorder.host.call .initSessionKeyring).run m).1 = some key ∧ serial = key.serial ∧
      (turn.next m).kernel.installedKeyring = some key ∧
      calls = [.initSessionKeyring, .installSessionKeyring serial, .openFile flags mode]
  opens : calls.filter Call.opens = turn.operation.openCall.toList
  ready : ∀ path flags mode, turn.operation = .openFile path flags mode →
    ∃ ready, turn.OpensOn path flags mode m ready

theorem openFile_ready {turn : Turn} {path : String} {flags : Int32} {mode : UInt16}
    (operation : turn.operation = .openFile path flags mode) (m : Machine Recorder) :
    ∃ ready, turn.OpensOn path flags mode m ready := by
  obtain ⟨s, op⟩ := turn
  obtain rfl : op = .openFile path flags mode := operation
  obtain ⟨ready, run, held⟩ := Operation.openFile_run s m path flags mode
  have after : (next ⟨s, .openFile path flags mode⟩ m).kernel.installedKeyring = s.keyringAfter m.kernel :=
    congrArg Standing.installed (Operation.openFile_standing s m path flags mode)
  refine ⟨ready, run, held.trans after.symm, ?_⟩
  rw [held]
  exact (s.provision m.kernel).isSome

theorem accounts (turn : Turn) (m : Machine Recorder) : turn.Accounts m (turn.calls m) := by
  have recorded := turn.next_calls m
  cases turn.step m with
  | opens path flags mode provision installed operation provides calls standing =>
    have after : (turn.next m).kernel.installedKeyring = installed := congrArg Standing.installed standing
    exact {
      recorded
      installs := by
        intro serial member
        rw [calls] at member ⊢
        have given : .installSessionKeyring serial ∈ provision := by simpa using member
        obtain ⟨key, ⟨declared, worker, absent⟩, offered, same, rfl, rfl⟩ := provides.installs_origin given
        exact ⟨path, flags, mode, key, operation, declared, worker, absent, offered, same, after, rfl⟩
      opens := by
        rw [calls, operation, List.filter_append, provides.opens_nothing]
        rfl
      ready := fun path flags mode operation => openFile_ready operation m }
  | plain other calls standing =>
    exact {
      recorded
      installs := fun serial member => absurd (calls _ member) (by simp [Call.isPlain, Call.installs])
      opens := by
        rw [other]
        apply List.filter_eq_nil_iff.mpr
        intro call member opens
        simpa [Call.isPlain, opens] using calls call member
      ready := fun path flags mode operation => openFile_ready operation m }

/-- A run installs a keyring exactly when it ends with one that it did not begin with. -/
theorem run_balance (turns : List Turn) (m : Machine Recorder) :
    (run turns m).2.kernel.installedKeyring.toList.length =
      m.kernel.installedKeyring.toList.length + (run turns m).1.flatten.countP Call.installs := by
  induction turns generalizing m with
  | nil => rfl
  | cons turn turns ih =>
    rw [run_cons, List.flatten_cons, List.countP_append, ih, (turn.step m).balance, Nat.add_assoc]

theorem run_standing (turns : List Turn) (m : Machine Recorder) :
    ∃ installed, (run turns m).2.kernel.standing = { m.kernel.standing with installed } ∧
      ∀ key, m.kernel.installedKeyring = some key → installed = some key := by
  induction turns generalizing m with
  | nil => exact ⟨_, rfl, fun key held => held⟩
  | cons turn turns ih =>
    obtain ⟨first, standing, kept⟩ := (turn.step m).standing
    obtain ⟨last, later, keeps⟩ := ih (turn.next m)
    refine ⟨last, ?_, ?_⟩
    · rw [run_cons, later, standing]
    · intro key held
      have after : (turn.next m).kernel.installedKeyring = first := congrArg Standing.installed standing
      exact keeps key (after.trans (kept key held))

/-- A run installs at most one keyring, on the way to an open by a worker that has none, and keeps it. An
open is recorded once, as it was asked for. Where a worker can be given a keyring, its opens find one. -/
theorem run_keyring (turns : List Turn) (m : Machine Recorder) :
    let shares := (run turns m).1
    let last := (run turns m).2
    shares.length = turns.length ∧
    last.kernel.calls.toList = m.kernel.calls.toList ++ shares.flatten ∧
    shares.flatten.countP Call.installs ≤ 1 ∧
    (∀ earlier turn later, turns = earlier ++ turn :: later →
      ∃ calls, shares[earlier.length]? = some calls ∧ turn.Accounts (run earlier m).2 calls) ∧
    ∀ earlier later, turns = earlier ++ later →
      let before := (run earlier m).2.kernel
      before.workqueueWorker = m.kernel.workqueueWorker ∧ before.initKeyring = m.kernel.initKeyring ∧
      ∀ key, before.installedKeyring = some key → last.kernel.installedKeyring = some key := by
  refine ⟨run_length turns m, run_calls turns m, ?_, ?_, ?_⟩
  · have balance := run_balance turns m
    have one : (run turns m).2.kernel.installedKeyring.toList.length ≤ 1 := Option.length_toList_le
    omega
  · rintro earlier turn later rfl
    exact ⟨_, run_share earlier later turn m, turn.accounts (run earlier m).2⟩
  · rintro earlier later rfl
    obtain ⟨_, reached, -⟩ := run_standing earlier m
    obtain ⟨installed, last, kept⟩ := run_standing later (run earlier m).2
    refine ⟨congrArg Standing.worker reached, congrArg Standing.offered reached, ?_⟩
    intro key held
    rw [run_append]
    exact (congrArg Standing.installed last).trans (kept key held)

/-- A worker opens a file under a selection that has no keyring to give, asks for the keyring, and opens
two more under one that has. The first of these two gives it the keyring. -/
theorem run_keyring_late :
    let recent := Selection.of (.make 6 12 0) .empty
    let old := Selection.of (.make 4 9 0) .empty
    let m : Machine Recorder := { kernel := { workqueueWorker := true } }
    let earlier : List Turn := [⟨recent, .openFile "/data" 0 0⟩, ⟨old, .initSessionKeyring⟩]
    let turn : Turn := ⟨old, .openFile "/data" 2 0⟩
    let turns := earlier ++ [turn, ⟨old, .openFile "/system" 0 0⟩]
    let calls := [.initSessionKeyring, .installSessionKeyring 0x2a, .openFile 2 0]
    (run turns m).1 = [[.openFile 0 0], [.initSessionKeyring], calls, [.openFile 0 0]] ∧
    turn.Accounts (run earlier m).2 calls ∧
    (run turns m).2.kernel.installedKeyring = some ⟨0x2a⟩ := by
  intro recent old m earlier turn turns calls
  obtain ⟨-, -, -, accounts, kept⟩ := run_keyring turns m
  have shares : (run turns m).1 = [[.openFile 0 0], [.initSessionKeyring], calls, [.openFile 0 0]] := rfl
  obtain ⟨share, found, accounts⟩ := accounts earlier turn [⟨old, .openFile "/system" 0 0⟩] rfl
  obtain rfl : calls = share := Option.some.inj found
  obtain ⟨-, -, kept⟩ := kept (earlier ++ [turn]) [⟨old, .openFile "/system" 0 0⟩] rfl
  exact ⟨shares, accounts, kept ⟨0x2a⟩ rfl⟩

end Turn
end KernelAbi
