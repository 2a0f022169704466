import KernelAbi.Proofs.HookDispatch
import KernelAbi.Proofs.Registration

/-! Runs of hooks. Between registrations under any names, for any handlers and selections, toggles change
and the recorder calls the hooks that it was given. Every such run gives a report of each of its actions.
Only a registration that installs adds hooks, and it adds its whole table behind those that are there.
Handlers without effects set no toggle, so that the setting of a toggle is always an action of its own. -/
namespace KernelAbi

inductive HookAction where
  | register (name : String) (selection : Selection) (handlers : Handlers)
  | setToggle (key : ToggleKey) (on : Bool)
  | changeUser (new old : Cred) (flags : Int32)
  | useFile (file : File) (mask : Int32)

namespace HookAction

def Answer : HookAction → Type
  | .register .. => Registration.Outcome
  | .setToggle .. => Unit
  | .changeUser .. | .useFile .. => Int32

/-- The recorder calls all hooks that it has. -/
def perform : (action : HookAction) → MachineM Recorder action.Answer
  | .register name s h => Registration.register Recorder.host s h name
  | .setToggle key on => Machine.setToggle key on
  | .changeUser new old flags => do HookEntry.callSetuid new old flags (← get).kernel.hooks
  | .useFile file mask => do HookEntry.callFilePermission file mask (← get).kernel.hooks

end HookAction

/-- The handlers that would see a use of a file, in the order of their hooks. -/
def Machine.watching (m : Machine Recorder) : List Handlers :=
  HookEntry.observers m.toggles m.kernel.hooks

/-- An action, its answer, and what handlers saw during it. -/
structure HookReport where
  action : HookAction
  answer : action.Answer
  events : List Event

/-- The name that installed its hooks by the action, and its table. -/
def HookReport.installed? : HookReport → Option (String × List HookEntry)
  | ⟨.register name s h, .installed _, _⟩ => some (name, h.table s.hooks)
  | _ => none

namespace HookAction

def report (action : HookAction) (m : Machine Recorder) : HookReport × Machine Recorder :=
  let (answer, after) := action.perform.run m
  (⟨action, answer, after.events.toList.drop m.events.size⟩, after)

def run : List HookAction → Machine Recorder → List HookReport × Machine Recorder
  | [], m => ([], m)
  | action :: actions, m =>
    let (report, after) := action.report m
    let (reports, last) := run actions after
    (report :: reports, last)

theorem run_cons (action : HookAction) (actions : List HookAction) (m : Machine Recorder) :
    run (action :: actions) m =
      ((action.report m).1 :: (run actions (action.report m).2).1, (run actions (action.report m).2).2) :=
  rfl

theorem run_append (earlier later : List HookAction) (m : Machine Recorder) :
    run (earlier ++ later) m =
      ((run earlier m).1 ++ (run later (run earlier m).2).1, (run later (run earlier m).2).2) := by
  induction earlier generalizing m with
  | nil => rfl
  | cons action earlier ih => rw [List.cons_append, run_cons, run_cons, ih, List.cons_append]

theorem run_length (actions : List HookAction) (m : Machine Recorder) :
    (run actions m).1.length = actions.length := by
  induction actions generalizing m with
  | nil => rfl
  | cons action actions ih => rw [run_cons, List.length_cons, List.length_cons, ih]

/-- The report of an action within a run is that of the action after the earlier ones. -/
theorem run_report (earlier later : List HookAction) (action : HookAction) (m : Machine Recorder) :
    (run (earlier ++ action :: later) m).1[earlier.length]? =
      some (action.report (run earlier m).2).1 := by
  have length := run_length earlier m
  rw [run_append, run_cons, List.getElem?_append_right (Nat.le_of_eq length), length, Nat.sub_self]
  rfl

/-- A report is determined by where the action leads. -/
theorem report_of_run {action : HookAction} {m after : Machine Recorder} {answer : action.Answer}
    {events : List Event} (run : action.perform.run m = (answer, after))
    (seen : after.events.toList = m.events.toList ++ events) :
    action.report m = (⟨action, answer, events⟩, after) := by
  have behind : after.events.toList.drop m.events.size = events := by
    rw [seen, ← Array.length_toList, List.drop_left]
  simp only [report, run, behind]

section Report

variable (m : Machine Recorder)

theorem setToggle_report (key : ToggleKey) (on : Bool) :
    (setToggle key on).report m = (⟨.setToggle key on, (), []⟩, { m with toggles := m.toggles.set key on }) :=
  report_of_run rfl (List.append_nil _).symm

theorem changeUser_report (new old : Cred) (flags : Int32) :
    ∃ (answer : Int32) (consulted : List Handlers), (changeUser new old flags).report m =
      (⟨.changeUser new old flags, answer, consulted.map (·.asked new old)⟩,
        m.noting (consulted.map (·.asked new old))) := by
  obtain ⟨consulted, after⟩ := HookEntry.callSetuid_after m new old flags m.kernel.hooks
  have run : (changeUser new old flags).perform.run m =
      (((HookEntry.callSetuid new old flags m.kernel.hooks).run m).1,
        m.noting (consulted.map (·.asked new old))) := by
    rw [← after]
    rfl
  exact ⟨_, consulted, report_of_run run (m.noting_events _)⟩

theorem useFile_report (file : File) (mask : Int32) :
    (useFile file mask).report m =
      (⟨.useFile file mask, (0 : Int32), m.watching.map (·.saw file)⟩,
        m.noting (m.watching.map (·.saw file))) :=
  report_of_run (HookEntry.callFilePermission_run m file mask m.kernel.hooks) (m.noting_events _)

end Report

section Register

variable (name : String) (s : Selection) (h : Handlers) (m : Machine Recorder)

/-- The three things that a request comes to. Handlers see nothing of it. -/
inductive Registers : Registration.Outcome → Machine Recorder → Prop where
  | refused (log : Log) (taken : (m.registrations name).stage ≠ .idle) :
      Registers .refused { m with log }
  | skipped (log : Log) (idle : (m.registrations name).stage = .idle) (empty : h.table s.hooks = []) :
      Registers .skipped { m.withRegistration name ⟨.settled, none⟩ with log }
  | installed (log : Log) (idle : (m.registrations name).stage = .idle) (filled : h.table s.hooks ≠ []) :
      Registers (.installed (h.table s.hooks).length)
        { m.withRegistration name ⟨.settled, some (h.table s.hooks)⟩ with
          kernel := m.kernel.given s.hookForm (h.table s.hooks), log }

theorem register_registers :
    Registers name s h m ((Registration.register Recorder.host s h name).run m).1
      ((Registration.register Recorder.host s h name).run m).2 := by
  by_cases idle : (m.registrations name).stage = .idle
  · by_cases empty : h.table s.hooks = []
    · obtain ⟨log, run⟩ := Registration.register_skipped Recorder.host s h name m idle empty
      rw [run]
      exact .skipped log idle empty
    · obtain ⟨log, run⟩ := Registration.register_installs Recorder.host s h name m idle empty
      rw [Registration.install_run] at run
      have after : ({ m.withRegistration name ⟨.assembling, some (h.table s.hooks)⟩ with
            kernel := m.kernel.given s.hookForm (h.table s.hooks) } : Machine Recorder).withRegistration
            name ⟨.settled, some (h.table s.hooks)⟩ =
          { m.withRegistration name ⟨.settled, some (h.table s.hooks)⟩ with
            kernel := m.kernel.given s.hookForm (h.table s.hooks) } := by
        simp only [Machine.withRegistration, Machine.mk.injEq, true_and, and_true]
        funext other
        split <;> rfl
      rw [run]
      exact after ▸ .installed log idle empty
  · obtain ⟨log, run⟩ := Registration.register_refused Recorder.host s h name m idle
    rw [run]
    exact .refused log idle

end Register

/-- The toggles after an action. -/
def toggles (before : Toggles) : HookAction → Toggles
  | .setToggle key on => before.set key on
  | _ => before

/-- What an action, reported by `report`, makes of `m`. -/
structure Effect (action : HookAction) (m : Machine Recorder) (report : HookReport)
    (after : Machine Recorder) : Prop where
  hooks : after.kernel.hooks = m.kernel.hooks ++ report.installed?.toList.flatMap (·.2)
  toggles : after.toggles = action.toggles m.toggles
  installs : ∀ name table, report.installed? = some (name, table) →
    (m.registrations name).stage = .idle ∧ after.registrations name = ⟨.settled, some table⟩
  settled : ∀ name, (m.registrations name).stage ≠ .idle →
    after.registrations name = m.registrations name
  seen : ∀ handlers file, .initrc handlers file ∈ report.events → ∃ mask, action = .useFile file mask

/-- An action that installs nothing and takes no name. -/
theorem Effect.of_kept {action : HookAction} {m after : Machine Recorder} {report : HookReport}
    (nothing : report.installed? = none) (hooks : after.kernel.hooks = m.kernel.hooks)
    (registrations : after.registrations = m.registrations)
    (toggles : after.toggles = action.toggles m.toggles)
    (seen : ∀ handlers file, .initrc handlers file ∈ report.events → ∃ mask, action = .useFile file mask) :
    Effect action m report after where
  hooks := by simp [nothing, hooks]
  toggles := toggles
  installs := by simp [nothing]
  settled := fun name _ => congrFun registrations name
  seen := seen

/-- An idle name that is taken leaves alone those taken before. -/
theorem withRegistration_taken {name other : String} {m : Machine Recorder}
    (idle : (m.registrations name).stage = .idle) (taken : (m.registrations other).stage ≠ .idle)
    (registration : Registration) :
    (m.withRegistration name registration).registrations other = m.registrations other := by
  have apart : other ≠ name := by
    rintro rfl
    exact taken idle
  exact if_neg apart

theorem register_effect (name : String) (s : Selection) (h : Handlers) (m : Machine Recorder) :
    Effect (.register name s h) m ((HookAction.register name s h).report m).1
      ((HookAction.register name s h).report m).2 := by
  have registers := register_registers name s h m
  have run : (HookAction.register name s h).perform.run m =
      (((Registration.register Recorder.host s h name).run m).1,
        ((Registration.register Recorder.host s h name).run m).2) := rfl
  generalize ((Registration.register Recorder.host s h name).run m).1 = outcome at registers run
  generalize ((Registration.register Recorder.host s h name).run m).2 = after at registers run
  cases registers with
  | refused log taken =>
    rw [report_of_run run (List.append_nil _).symm]
    exact .of_kept rfl rfl rfl rfl (by simp)
  | skipped log idle empty =>
    rw [report_of_run run (List.append_nil _).symm]
    exact {
      hooks := (List.append_nil _).symm
      toggles := rfl
      installs := by simp [HookReport.installed?]
      settled := fun other taken => withRegistration_taken idle taken _
      seen := by simp }
  | installed log idle filled =>
    rw [report_of_run run (List.append_nil _).symm]
    exact {
      hooks := by simp [HookReport.installed?, Recorder.given, Recorder.recorded]
      toggles := rfl
      installs := by
        intro other table installed
        obtain ⟨rfl, rfl⟩ := Prod.mk.inj (Option.some.inj installed)
        exact ⟨idle, if_pos rfl⟩
      settled := fun other taken => withRegistration_taken idle taken _
      seen := by simp }

theorem report_effect (action : HookAction) (m : Machine Recorder) :
    Effect action m (action.report m).1 (action.report m).2 := by
  cases action with
  | register name s h => exact register_effect name s h m
  | setToggle key on =>
    rw [setToggle_report]
    exact .of_kept rfl rfl rfl rfl (by simp)
  | changeUser new old flags =>
    obtain ⟨answer, consulted, report⟩ := changeUser_report m new old flags
    rw [report]
    refine .of_kept rfl rfl rfl rfl ?_
    intro handlers file member
    obtain ⟨h, -, other⟩ := List.mem_map.mp member
    contradiction
  | useFile file mask =>
    rw [useFile_report]
    refine .of_kept rfl rfl rfl rfl ?_
    intro handlers seen member
    obtain ⟨h, -, same⟩ := List.mem_map.mp member
    obtain ⟨-, rfl⟩ := Event.initrc.inj same
    exact ⟨mask, rfl⟩

section Run

variable (actions : List HookAction) (m : Machine Recorder)

/-- The tables that were installed stand behind the hooks that were there, in the order of the run. -/
theorem run_hooks : (run actions m).2.kernel.hooks =
    m.kernel.hooks ++ ((run actions m).1.filterMap HookReport.installed?).flatMap (·.2) := by
  induction actions generalizing m with
  | nil => exact (List.append_nil _).symm
  | cons action actions ih =>
    have first := (report_effect action m).hooks
    rw [run_cons, ih, first, List.append_assoc, List.filterMap_cons]
    cases (action.report m).1.installed? with
    | none => rfl
    | some installed => simp

/-- What each action of a run keeps of the toggles is kept by the run. -/
theorem run_toggles {P : Toggles → Prop} (start : P m.toggles)
    (kept : ∀ action ∈ actions, ∀ before, P before → P (action.toggles before)) :
    P (run actions m).2.toggles := by
  induction actions generalizing m with
  | nil => exact start
  | cons action actions ih =>
    obtain ⟨first, later⟩ := List.forall_mem_cons.mp kept
    rw [run_cons]
    refine ih _ ?_ later
    rw [(report_effect action m).toggles]
    exact first _ start

/-- Once a name is taken its registration stays as it is. -/
theorem run_settled {name : String} (taken : (m.registrations name).stage ≠ .idle) :
    (run actions m).2.registrations name = m.registrations name := by
  induction actions generalizing m with
  | nil => rfl
  | cons action actions ih =>
    have kept := (report_effect action m).settled name taken
    rw [run_cons, ih _ (by rwa [kept]), kept]

/-- A name that is taken installs nothing more. -/
theorem run_taken {name : String} (taken : (m.registrations name).stage ≠ .idle) :
    name ∉ ((run actions m).1.filterMap HookReport.installed?).map (·.1) := by
  induction actions generalizing m with
  | nil => exact List.not_mem_nil
  | cons action actions ih =>
    have effect := report_effect action m
    have later := ih _ (by rwa [effect.settled name taken])
    rw [run_cons, List.filterMap_cons]
    cases first : (action.report m).1.installed? with
    | none => exact later
    | some installed =>
      rw [List.map_cons, List.mem_cons, not_or]
      refine ⟨?_, later⟩
      rintro rfl
      exact taken (effect.installs installed.1 installed.2 first).1

theorem run_once : (((run actions m).1.filterMap HookReport.installed?).map (·.1)).Nodup := by
  induction actions generalizing m with
  | nil => exact List.nodup_nil
  | cons action actions ih =>
    rw [run_cons, List.filterMap_cons]
    cases first : (action.report m).1.installed? with
    | none => exact ih _
    | some installed =>
      obtain ⟨-, settled⟩ := (report_effect action m).installs installed.1 installed.2 first
      rw [List.map_cons, List.nodup_cons]
      exact ⟨run_taken actions _ (by simp [settled]), ih _⟩

/-- Who has installed a table keeps it for good. -/
theorem run_installed {name : String} {table : List HookEntry}
    (member : (name, table) ∈ (run actions m).1.filterMap HookReport.installed?) :
    (run actions m).2.registrations name = ⟨.settled, some table⟩ := by
  induction actions generalizing m with
  | nil => exact absurd member List.not_mem_nil
  | cons action actions ih =>
    obtain ⟨report, reported, installed⟩ := List.mem_filterMap.mp member
    rcases List.mem_cons.mp reported with rfl | later
    · obtain ⟨-, settled⟩ := (report_effect action m).installs name table installed
      rw [run_cons, run_settled actions _ (by simp [settled]), settled]
    · exact ih _ (List.mem_filterMap.mpr ⟨report, later, installed⟩)

theorem run_seen {report : HookReport} (member : report ∈ (run actions m).1) {handlers : Nat} {file : File}
    (seen : .initrc handlers file ∈ report.events) : ∃ mask, report.action = .useFile file mask := by
  induction actions generalizing m with
  | nil => exact absurd member List.not_mem_nil
  | cons action actions ih =>
    rcases List.mem_cons.mp member with rfl | later
    · exact (report_effect action m).seen handlers file seen
    · exact ih _ later

end Run

/-- After any run the hooks are the tables of the names that installed, in the order of their requests, and
each name has its table once. A change of user asks the handlers at its point in the order of the hooks; the
first that denies decides for all. It depends on no more than those handlers and the three user ids. -/
theorem run_decides (actions : List HookAction) (m : Machine Recorder) :
    let last := (run actions m).2
    let installed := (run actions m).1.filterMap HookReport.installed?
    let asked := last.kernel.hooks.filterMap HookEntry.setuidHandlers?
    last.kernel.hooks = m.kernel.hooks ++ installed.flatMap (·.2) ∧
    (installed.map (·.1)).Nodup ∧
    (∀ entry ∈ installed, (last.registrations entry.1).table = some entry.2) ∧
    ∀ new old flags,
      let call := (HookEntry.callSetuid new old flags last.kernel.hooks).run last
      HookEntry.Decides asked new old last call.1 call.2 ∧
      ∀ new' old' flags' hooks', hooks'.filterMap HookEntry.setuidHandlers? = asked →
        new'.uid = new.uid → old'.uid = old.uid → new'.euid = new.euid →
        (HookEntry.callSetuid new' old' flags' hooks').run last = call := by
  intro last installed asked
  refine ⟨run_hooks actions m, run_once actions m, ?_, ?_⟩
  · intro entry member
    rw [run_installed actions m member]
  · intro new old flags call
    refine ⟨HookEntry.callSetuid_decides last new old flags last.kernel.hooks, ?_⟩
    intro new' old' flags' hooks' same newUid oldUid newEuid
    exact HookEntry.callSetuid_congr last same newUid oldUid newEuid flags flags'

/-- Two names install, one of them asks again, and one has nothing to install. The handlers of the first
allow what those of the second deny. -/
theorem run_decides_second :
    let both := Selection.of (.make 5 10 0) ⟨Vendor.setuidHook ||| Vendor.initrcHook⟩
    let allow : Handlers := ⟨0, .common, fun _ _ _ => 0⟩
    let deny : Handlers := ⟨1, .own 1, fun new old _ => if new = 0 ∧ old ≠ 0 then -1 else 0⟩
    let actions : List HookAction := [.register "first" both allow, .register "none" .build deny,
      .register "second" both deny, .register "first" both deny]
    let last := (run actions { kernel := {} }).2
    let root := Cred.of 0 0
    let user := Cred.of 1000 1000
    let call := (HookEntry.callSetuid root user 4 last.kernel.hooks).run last
    last.kernel.hooks = allow.table both.hooks ++ deny.table both.hooks ∧
    call.1 = -1 ∧ call.2 = last.noting [allow.asked root user, deny.asked root user] ∧
    (HookEntry.callSetuid { root with gid := 5, egid := 6 } user 0 last.kernel.hooks).run last = call := by
  intro both allow deny actions
  have installed : (run actions { kernel := {} }).1.filterMap HookReport.installed? =
      [("first", allow.table both.hooks), ("second", deny.table both.hooks)] := by
    simp only [actions, both, allow, deny]
    rfl
  have law := run_decides actions { kernel := {} }
  rw [installed] at law
  -- What follows is not about how the hooks came to be installed.
  generalize (run actions { kernel := {} }).2 = reached at law ⊢
  intro last root user call
  obtain ⟨hooks, -, -, dispatch⟩ := law
  obtain ⟨decides, same⟩ := dispatch root user 4
  have tables : last.kernel.hooks = allow.table both.hooks ++ deny.table both.hooks := by
    simpa using hooks
  have asked : last.kernel.hooks.filterMap HookEntry.setuidHandlers? = [allow] ++ deny :: [] := by
    simp only [tables, both, allow, deny]
    rfl
  have allowed : ∀ h ∈ [allow], h.verdict root user = 0 := by simp [allow, Handlers.verdict]
  obtain ⟨answer, after⟩ := decides.denied [allow] deny [] asked allowed (by decide)
  exact ⟨tables, answer, after, same _ user 0 last.kernel.hooks rfl rfl rfl rfl⟩

end HookAction
end KernelAbi
