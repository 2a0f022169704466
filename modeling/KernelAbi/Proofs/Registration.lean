import KernelAbi.Hook.Registration
import KernelAbi.Proofs.Recording
import Mathlib.Algebra.BigOperators.Group.Finset.Piecewise
import Mathlib.Algebra.Order.BigOperators.Group.Finset

/-! Registration over whole sequences of requests. A request may be made of any host of a fleet, under
any selection and for any handlers. The first one settles the registration; no later one reaches a host
or changes the table. -/
namespace KernelAbi

namespace Machine

variable {κ : Type} (m : Machine κ)

def withRegistration (name : String) (registration : Registration) : Machine κ :=
  { m with
    registrations := fun other => if other = name then registration else m.registrations other }

variable (name : String) (registration other : Registration)

@[simp] theorem run_setRegistration :
    (setRegistration name registration).run m = ((), m.withRegistration name registration) := rfl

@[simp] theorem withRegistration_same :
    (m.withRegistration name registration).registrations name = registration := if_pos rfl

@[simp] theorem withRegistration_kernel :
    (m.withRegistration name registration).kernel = m.kernel := rfl

end Machine

/-- Recording hosts side by side. -/
abbrev Fleet (ι : Type) := ι → Recorder

namespace Fleet

variable {ι : Type} [DecidableEq ι]

/-- The host `i` of a fleet. A call to it leaves the others as they were. -/
def host (i : ι) : Host (Fleet ι) where
  call primitive := modifyGet fun m =>
    let (answer, after) := (Recorder.host.call primitive).run { m with kernel := m.kernel i }
    (answer, { after with kernel := Function.update m.kernel i after.kernel })

end Fleet

/-- The call by which a host is given `table`. -/
def HookForm.call (form : HookForm) (table : List HookEntry) : Call :=
  if form = .named then .addHooks table.length Registration.securityName (table.map (·.point))
  else .addHooksCounted table.length (table.map (·.point))

/-- The recorder after it was given `table`. -/
def Recorder.given (r : Recorder) (form : HookForm) (table : List HookEntry) : Recorder :=
  { r with hooks := r.hooks ++ table }.recorded [form.call table]

namespace Registration

section Request

variable {κ : Type} (host : Host κ) (s : Selection) (h : Handlers) (name : String) (m : Machine κ)

theorem register_refused (taken : (m.registrations name).stage ≠ .idle) :
    ∃ log, (register host s h name).run m = (.refused, { m with log }) := by
  constructor
  simp only [register, Machine.run_bind, Machine.run_get, taken, if_true, ne_eq, not_false_eq_true]
  rfl

theorem register_skipped (idle : (m.registrations name).stage = .idle) (empty : h.table s.hooks = []) :
    ∃ log, (register host s h name).run m =
      (.skipped, { m.withRegistration name ⟨.settled, none⟩ with log }) := by
  constructor
  simp [register, idle, empty]
  rfl

/-- While the host is at work the registration is taken and already has its table. -/
theorem register_installs (idle : (m.registrations name).stage = .idle)
    (filled : h.table s.hooks ≠ []) :
    let table := h.table s.hooks
    let before := m.withRegistration name ⟨.assembling, table⟩
    let after := ((install host s.hookForm table).run before).2
    ∃ log, (register host s h name).run m =
      (.installed table.length, { after.withRegistration name ⟨.settled, table⟩ with log }) := by
  constructor
  simp [register, idle, filled]
  rfl

end Request

theorem add_run (table : List HookEntry) (m : Machine Recorder) :
    (Recorder.install table table.length).run m =
      (table.map (·.point), { m with kernel := { m.kernel with hooks := m.kernel.hooks ++ table } }) := by
  have whole : table.take table.length = table := List.take_length
  simp only [Recorder.install, Machine.run_bind, Machine.run_pure, whole]
  rfl

theorem install_run (form : HookForm) (table : List HookEntry) (m : Machine Recorder) :
    (install Recorder.host form table).run m = ((), { m with kernel := m.kernel.given form table }) := by
  cases form <;>
    simp only [install, Recorder.host, Recorder.answer, Machine.run_bind, add_run, Recording.record_run] <;>
    rfl

theorem install_fleet {ι : Type} [DecidableEq ι] (i : ι) (form : HookForm) (table : List HookEntry)
    (m : Machine (Fleet ι)) :
    (install (Fleet.host i) form table).run m =
      ((), { m with kernel := Function.update m.kernel i ((m.kernel i).given form table) }) := by
  have run : (install (Fleet.host i) form table).run m =
      let after := ((install Recorder.host form table).run { m with kernel := m.kernel i }).2
      ((), { after with kernel := Function.update m.kernel i after.kernel }) := by
    cases form <;> rfl
  rw [run, install_run]

/-- The points of the wanted hooks, credentials first. -/
def points (hooks : HookSet) : List HookPoint :=
  (if hooks.has Hooks.setuid then [.taskFixSetuid] else []) ++
  (if hooks.has Hooks.initrc then [.filePermission] else [])

theorem table_points (h : Handlers) (hooks : HookSet) :
    (h.table hooks).map (·.point) = points hooks := by
  unfold Handlers.table points
  cases hooks.has Hooks.setuid <;> cases hooks.has Hooks.initrc <;> rfl

theorem table_eq_nil_iff (h : Handlers) (hooks : HookSet) :
    h.table hooks = [] ↔ ¬ (hooks.has Hooks.setuid ∨ hooks.has Hooks.initrc) := by
  unfold Handlers.table
  cases hooks.has Hooks.setuid <;> cases hooks.has Hooks.initrc <;> simp

/-- A request for a registration, and the host of the fleet that it is made of. -/
structure Request (ι : Type) where
  target : ι
  selection : Selection
  handlers : Handlers

namespace Request

variable {ι : Type} [DecidableEq ι]

def table (r : Request ι) : List HookEntry := r.handlers.table r.selection.hooks

def make (r : Request ι) (name : String) : MachineM (Fleet ι) Outcome :=
  register (Fleet.host r.target) r.selection r.handlers name

/-- The requests in turn, each with its outcome. -/
def makeAll (name : String) :
    List (Request ι) → Machine (Fleet ι) → List Outcome × Machine (Fleet ι)
  | [], m => ([], m)
  | r :: requests, m =>
    let (outcome, m) := (r.make name).run m
    let (outcomes, m) := makeAll name requests m
    (outcome :: outcomes, m)

def Wanted (r : Request ι) : Prop :=
  r.selection.hooks.has Hooks.setuid ∨ r.selection.hooks.has Hooks.initrc

/-- What the first request comes to that meets `m`, answers `outcome` and leaves `after`. -/
structure Settles (r : Request ι) (name : String) (m : Machine (Fleet ι)) (outcome : Outcome)
    (after : Machine (Fleet ι)) : Prop where
  installed_iff : (∃ n, 1 ≤ n ∧ outcome = .installed n) ↔ r.Wanted
  skipped : ¬ r.Wanted → outcome = .skipped
  /-- The one host that is called gets the table, in the form that the selection names. -/
  given : r.Wanted →
    outcome = .installed r.table.length ∧
    (after.registrations name).table = some r.table ∧
    r.table.map (·.point) = points r.selection.hooks ∧
    after.kernel = Function.update m.kernel r.target ((m.kernel r.target).given
      r.selection.hookForm r.table)
  untouched : ¬ r.Wanted → after.kernel = m.kernel ∧ (after.registrations name).table = none
  settled : (after.registrations name).stage = .settled

variable (name : String) (m : Machine (Fleet ι))

theorem makeAll_cons (r : Request ι) (requests : List (Request ι)) :
    makeAll name (r :: requests) m =
      (((r.make name).run m).1 :: (makeAll name requests ((r.make name).run m).2).1,
        (makeAll name requests ((r.make name).run m).2).2) := rfl

theorem make_settles (r : Request ι) (idle : (m.registrations name).stage = .idle) :
    r.Settles name m ((r.make name).run m).1 ((r.make name).run m).2 := by
  have empty_iff := table_eq_nil_iff r.handlers r.selection.hooks
  have shape := table_points r.handlers r.selection.hooks
  by_cases wanted : r.Wanted
  · have filled : r.table ≠ [] := fun empty => empty_iff.mp empty wanted
    obtain ⟨log, run⟩ := register_installs (Fleet.host r.target) r.selection r.handlers name m idle filled
    have positive : 1 ≤ r.table.length := List.length_pos_iff.mpr filled
    rw [install_fleet] at run
    rw [make, run]
    exact {
      installed_iff := ⟨fun _ => wanted, fun _ => ⟨_, positive, rfl⟩⟩
      skipped := fun unwanted => absurd wanted unwanted
      given := fun _ => ⟨rfl, by simp [table], shape, rfl⟩
      untouched := fun unwanted => absurd wanted unwanted
      settled := by simp }
  · obtain ⟨log, run⟩ := register_skipped (Fleet.host r.target) r.selection r.handlers name m idle
      (empty_iff.mpr wanted)
    rw [make, run]
    exact {
      installed_iff := ⟨by simp, fun yes => absurd yes wanted⟩
      skipped := fun _ => rfl
      given := fun yes => absurd yes wanted
      untouched := fun _ => ⟨rfl, by simp⟩
      settled := by simp }

theorem make_refused (r : Request ι) (taken : (m.registrations name).stage ≠ .idle) :
    ((r.make name).run m).1 = .refused ∧ ((r.make name).run m).2.kernel = m.kernel ∧
    ((r.make name).run m).2.registrations = m.registrations := by
  obtain ⟨log, run⟩ := register_refused (Fleet.host r.target) r.selection r.handlers name m taken
  rw [make, run]
  exact ⟨rfl, rfl, rfl⟩

/-- Once the registration is taken no sequence of requests gets past it. -/
theorem makeAll_refused (requests : List (Request ι)) (taken : (m.registrations name).stage ≠ .idle) :
    (makeAll name requests m).1 = requests.map (fun _ => .refused) ∧
    (makeAll name requests m).2.kernel = m.kernel ∧
    (makeAll name requests m).2.registrations = m.registrations := by
  induction requests generalizing m with
  | nil => exact ⟨rfl, rfl, rfl⟩
  | cons r requests ih =>
    obtain ⟨outcome, kernel, registrations⟩ := make_refused name m r taken
    obtain ⟨outcomes, kernels, rest⟩ := ih ((r.make name).run m).2 (by rw [registrations]; exact taken)
    refine ⟨?_, kernels.trans kernel, rest.trans registrations⟩
    rw [makeAll_cons, outcome, outcomes, List.map_cons]

theorem given_registrations (r : Recorder) (form : HookForm) (table : List HookEntry) :
    (r.given form table).registrations = r.registrations + 1 := by
  have counted : (form.call table).isRegistration = true := by cases form <;> rfl
  have calls : (r.given form table).calls = r.calls.push (form.call table) := rfl
  rw [Recorder.registrations, calls, Array.countP_push, if_pos counted]
  rfl

/-- The hosts together hear of one registration at most. -/
theorem settles_registrations {r : Request ι} {outcome : Outcome} {after : Machine (Fleet ι)}
    (settles : r.Settles name m outcome after) (hosts : Finset ι) :
    ∑ i ∈ hosts, (after.kernel i).registrations ≤ ∑ i ∈ hosts, (m.kernel i).registrations + 1 := by
  by_cases wanted : r.Wanted
  · obtain ⟨-, -, -, kernel⟩ := settles.given wanted
    have each : ∀ i, (after.kernel i).registrations =
        (m.kernel i).registrations + if i = r.target then 1 else 0 := by
      intro i
      by_cases target : i = r.target
      · subst target
        simp [kernel, given_registrations]
      · simp [kernel, target]
    have extra : ∑ i ∈ hosts, (if i = r.target then 1 else 0) ≤ 1 := by
      rw [Finset.sum_ite_eq']
      split <;> omega
    calc ∑ i ∈ hosts, (after.kernel i).registrations
        = ∑ i ∈ hosts, (m.kernel i).registrations + ∑ i ∈ hosts, (if i = r.target then 1 else 0) := by
          simp only [each, Finset.sum_add_distrib]
      _ ≤ ∑ i ∈ hosts, (m.kernel i).registrations + 1 := Nat.add_le_add_left extra _
  · rw [(settles.untouched wanted).1]
    exact Nat.le_add_right _ _

theorem Settles.outcome_installed {r : Request ι} {outcome : Outcome} {after : Machine (Fleet ι)}
    (settles : r.Settles name m outcome after) : (∃ n, outcome = .installed n) ↔ r.Wanted := by
  constructor
  · rintro ⟨n, installed⟩
    by_contra unwanted
    rw [settles.skipped unwanted] at installed
    contradiction
  · exact fun wanted => ⟨_, (settles.given wanted).1⟩

theorem wanted_of_resolve {κ : Type} (r : Request κ) {v : Version} {f : VendorFlags}
    (resolved : Selection.resolve v f = .ok r.selection) :
    r.Wanted ↔ f.has Vendor.setuidHook ∨ f.has Vendor.initrcHook := by
  rw [Request.Wanted, Selection.eq_of_resolve resolved]
  simp [Selection.of]

/-- Registration happens once. The first request settles it; every later one is refused, and after each
of them the hosts and the registration stand as the first request left them. Under a resolved selection
the first request is the one that installs exactly if the selection has hooks. -/
theorem makeAll_once (fresh : m.registrations name = {}) (first : Request ι)
    (later : List (Request ι)) :
    let outcome := ((first.make name).run m).1
    let after := ((first.make name).run m).2
    first.Settles name m outcome after ∧
    (makeAll name (first :: later) m).1 = outcome :: later.map (fun _ => .refused) ∧
    (∀ earlier rest, later = earlier ++ rest →
      (makeAll name (first :: earlier) m).2.kernel = after.kernel ∧
      (makeAll name (first :: earlier) m).2.registrations name = after.registrations name) ∧
    (∀ hosts : Finset ι,
      ∑ i ∈ hosts, ((makeAll name (first :: later) m).2.kernel i).registrations ≤
        ∑ i ∈ hosts, (m.kernel i).registrations + 1) ∧
    (∀ v f, Selection.resolve v f = .ok first.selection →
      ((∃ n, outcome = .installed n) ↔ first.selection.hasHooks) ∧
      ((∃ n, outcome = .installed n) ↔ f.has Vendor.setuidHook ∨ f.has Vendor.initrcHook)) := by
  intro outcome after
  have settles : first.Settles name m outcome after :=
    make_settles name m first (by rw [fresh])
  have taken : (after.registrations name).stage ≠ .idle := by
    rw [settles.settled]
    decide
  have refused := makeAll_refused name after
  refine ⟨settles, ?_, ?_, ?_, ?_⟩
  · rw [makeAll_cons, (refused later taken).1]
  · intro earlier rest _
    obtain ⟨-, kernel, registrations⟩ := refused earlier taken
    rw [makeAll_cons]
    exact ⟨kernel, congrFun registrations name⟩
  · intro hosts
    rw [makeAll_cons, (refused later taken).2.1]
    exact settles_registrations name m settles hosts
  · intro v f resolved
    have installed := settles.outcome_installed
    have wanted := wanted_of_resolve first resolved
    have hasHooks : first.selection.hasHooks ↔ f.has Vendor.setuidHook ∨ f.has Vendor.initrcHook := by
      rw [Selection.eq_of_resolve resolved, Selection.hasHooks_of, Bool.or_eq_true]
    exact ⟨(installed.trans wanted).trans hasHooks.symm, installed.trans wanted⟩

/-- A first request for both hooks, and another that comes too late. -/
theorem makeAll_once_both :
    let m : Machine (Fleet Bool) := { kernel := fun _ => {} }
    let both := Selection.of (.make 5 10 0) ⟨Vendor.setuidHook ||| Vendor.initrcHook⟩
    let first : Request Bool := ⟨true, both, ⟨0, .common, fun _ _ _ => 0⟩⟩
    let second : Request Bool := ⟨false, both, ⟨1, .own 1, fun _ _ _ => -1⟩⟩
    m.registrations "lsm" = {} ∧
    (makeAll "lsm" [first, second] m).1 = [.installed 2, .refused] := by
  intro m both first second
  obtain ⟨settles, outcomes, -⟩ := makeAll_once "lsm" m rfl first [second]
  have installed := (settles.given (.inl (by decide))).1
  have length : first.table.length = 2 := by decide
  refine ⟨rfl, outcomes.trans ?_⟩
  rw [installed, length]
  rfl

end Request

end Registration
end KernelAbi
