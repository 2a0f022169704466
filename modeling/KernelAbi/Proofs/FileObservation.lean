import KernelAbi.Proofs.HookRun

/-! The observation of files. Over a run of hooks a use of a file is never denied, and it is seen by the
handlers whose toggle is on when it happens and by nobody else. A toggle keeps its setting until it is set
again, and says nothing about handlers that consult another one. Handlers that set a toggle while they observe
are not described. -/
namespace KernelAbi

def HookAction.Sets (key : ToggleKey) : HookAction → Prop
  | .setToggle other _ => other = key
  | _ => False

instance (key : ToggleKey) : DecidablePred (HookAction.Sets key)
  | .setToggle other _ => inferInstanceAs (Decidable (other = key))
  | .register .. | .changeUser .. | .useFile .. => .isFalse id

namespace HookAction

theorem Sets.eq_setToggle {key : ToggleKey} {action : HookAction} (sets : action.Sets key) :
    ∃ on, action = .setToggle key on := by
  cases action with
  | setToggle other on =>
    obtain rfl : other = key := sets
    exact ⟨on, rfl⟩
  | register name s h => contradiction
  | changeUser new old flags => contradiction
  | useFile file mask => contradiction

section Toggles

variable {key : ToggleKey} {actions : List HookAction} {m : Machine Recorder}

theorem toggles_unset {action : HookAction} (unset : ¬ action.Sets key) (toggles : Toggles) :
    action.toggles toggles key = toggles key := by
  cases action with
  | setToggle other on => exact if_neg fun same => unset same.symm
  | register name s h => rfl
  | changeUser new old flags => rfl
  | useFile file mask => rfl

theorem run_unset (unset : ∀ action ∈ actions, ¬ action.Sets key) :
    (run actions m).2.toggles key = m.toggles key := by
  refine run_toggles actions m (P := fun toggles => toggles key = m.toggles key) rfl ?_
  intro action member toggles same
  rw [toggles_unset (unset action member), same]

/-- A toggle that is off stays so unless it is set on. -/
theorem run_off (off : m.toggles key = false) (never : .setToggle key true ∉ actions) :
    (run actions m).2.toggles key = false := by
  refine run_toggles actions m (P := fun toggles => toggles key = false) off ?_
  intro action member toggles off
  by_cases sets : action.Sets key
  · obtain ⟨on, rfl⟩ := sets.eq_setToggle
    cases on with
    | true => exact absurd member never
    | false => exact if_pos rfl
  · rw [toggles_unset sets, off]

theorem toggles_set (key : ToggleKey) (on : Bool) (m : Machine Recorder) :
    ((setToggle key on).report m).2.toggles key = on := by
  rw [(report_effect (setToggle key on) m).toggles]
  exact if_pos rfl

theorem watching_on {h : Handlers} (watches : h ∈ m.watching) : m.toggles h.toggle = true :=
  (List.mem_filter.mp watches).2

end Toggles

section Separation

variable {key : ToggleKey} {m m' m'' : Machine Recorder}

/-- The machines differ in no hook, in no registration, and in no toggle but `key`. -/
structure AlikeBut (key : ToggleKey) (m m' : Machine Recorder) : Prop where
  hooks : m.kernel.hooks = m'.kernel.hooks
  registrations : m.registrations = m'.registrations
  toggles : ∀ other, other ≠ key → m.toggles other = m'.toggles other

theorem AlikeBut.trans (first : AlikeBut key m m') (second : AlikeBut key m' m'') :
    AlikeBut key m m'' where
  hooks := first.hooks.trans second.hooks
  registrations := first.registrations.trans second.registrations
  toggles := fun other apart => (first.toggles other apart).trans (second.toggles other apart)

theorem sets_alike {action : HookAction} (sets : action.Sets key) (m : Machine Recorder) :
    AlikeBut key (action.report m).2 m := by
  obtain ⟨on, rfl⟩ := sets.eq_setToggle
  exact { hooks := rfl, registrations := rfl, toggles := fun other apart => if_neg apart }

theorem AlikeBut.noting (alike : AlikeBut key m m') (events events' : List Event) :
    AlikeBut key (m.noting events) (m'.noting events') :=
  ⟨alike.hooks, alike.registrations, alike.toggles⟩

theorem AlikeBut.withRegistration (alike : AlikeBut key m m') (name : String)
    (registration : Registration) :
    (m.withRegistration name registration).registrations =
      (m'.withRegistration name registration).registrations := by
  simp only [Machine.withRegistration, alike.registrations]

/-- A request comes to the same on both machines, since it does not consult toggles. -/
theorem Registers.alike {name : String} {s : Selection} {h : Handlers}
    {outcome outcome' : Registration.Outcome} {after after' : Machine Recorder}
    (first : Registers name s h m outcome after) (second : Registers name s h m' outcome' after')
    (alike : AlikeBut key m m') : AlikeBut key after after' := by
  have stage : (m.registrations name).stage = (m'.registrations name).stage := by
    rw [alike.registrations]
  cases first with
  | refused log taken =>
    cases second with
    | refused log' taken' => exact ⟨alike.hooks, alike.registrations, alike.toggles⟩
    | skipped log' idle' empty => exact absurd (stage.trans idle') taken
    | installed log' idle' filled => exact absurd (stage.trans idle') taken
  | skipped log idle empty =>
    cases second with
    | refused log' taken' => exact absurd (stage.symm.trans idle) taken'
    | skipped log' idle' empty' =>
      exact ⟨alike.hooks, alike.withRegistration name ⟨.settled, none⟩, alike.toggles⟩
    | installed log' idle' filled => exact absurd empty filled
  | installed log idle filled =>
    cases second with
    | refused log' taken' => exact absurd (stage.symm.trans idle) taken'
    | skipped log' idle' empty => exact absurd empty filled
    | installed log' idle' filled' =>
      refine ⟨?_, alike.withRegistration name ⟨.settled, some (h.table s.hooks)⟩, alike.toggles⟩
      exact congrArg (· ++ h.table s.hooks) alike.hooks

theorem report_alike (action : HookAction) (alike : AlikeBut key m m') :
    AlikeBut key (action.report m).2 (action.report m').2 := by
  cases action with
  | register name s h => exact (register_registers name s h m).alike (register_registers name s h m') alike
  | setToggle set on =>
    rw [setToggle_report, setToggle_report]
    refine ⟨alike.hooks, alike.registrations, ?_⟩
    intro other apart
    simp only [Toggles.set, alike.toggles other apart]
  | changeUser new old flags =>
    obtain ⟨_, _, report⟩ := changeUser_report m new old flags
    obtain ⟨_, _, report'⟩ := changeUser_report m' new old flags
    rw [report, report']
    exact alike.noting _ _
  | useFile file mask =>
    rw [useFile_report, useFile_report]
    exact alike.noting _ _

/-- Left out of a run, the settings of one toggle are missed by nobody who does not consult it. -/
theorem run_without (actions : List HookAction) (alike : AlikeBut key m m') :
    AlikeBut key (run actions m).2 (run (actions.filter fun action => ¬ action.Sets key) m').2 := by
  induction actions generalizing m m' with
  | nil => exact alike
  | cons action actions ih =>
    rw [run_cons]
    by_cases sets : action.Sets key
    · rw [List.filter_cons_of_neg (by simpa using sets)]
      exact ih ((sets_alike sets m).trans alike)
    · rw [List.filter_cons_of_pos (by simpa using sets)]
      exact ih (report_alike action alike)

theorem AlikeBut.watching (alike : AlikeBut key m m') :
    m.watching.filter (·.toggle ≠ key) = m'.watching.filter (·.toggle ≠ key) := by
  simp only [Machine.watching, HookEntry.observers, List.filter_filter, alike.hooks]
  apply List.filter_congr
  intro h _
  by_cases apart : h.toggle ≠ key
  · rw [alike.toggles _ apart]
  · simp [apart]

end Separation

/-- What a use of a file comes to behind the actions `earlier`, which began on `m`. -/
structure Observes (m : Machine Recorder) (earlier : List HookAction) (file : File) (mask : Int32)
    (report : HookReport) : Prop where
  report_eq : report =
    ⟨.useFile file mask, (0 : Int32), (run earlier m).2.watching.map (·.saw file)⟩
  /-- Hooks are in the order of the registrations that installed them. -/
  hooks : (run earlier m).2.kernel.hooks =
    m.kernel.hooks ++ ((run earlier m).1.filterMap HookReport.installed?).flatMap (·.2)
  lastSet : ∀ key first on rest, earlier = first ++ .setToggle key on :: rest →
    (∀ action ∈ rest, ¬ action.Sets key) → (run earlier m).2.toggles key = on
  unset : ∀ key, (∀ action ∈ earlier, ¬ action.Sets key) →
    (run earlier m).2.toggles key = m.toggles key
  disabled : ∀ key first rest, earlier = first ++ .setToggle key false :: rest →
    .setToggle key true ∉ rest → ∀ h ∈ (run earlier m).2.watching, h.toggle ≠ key
  separate : ∀ key, (run earlier m).2.watching.filter (·.toggle ≠ key) =
    (run (earlier.filter fun action => ¬ action.Sets key) m).2.watching.filter (·.toggle ≠ key)

/-- In any run a use of a file is allowed, and is seen once by each hook at its point whose handlers have
their toggle on just then. Nothing else shows a file to handlers. -/
theorem run_observes (actions : List HookAction) (m : Machine Recorder) :
    (∀ earlier file mask later, actions = earlier ++ .useFile file mask :: later →
      ∃ report, (run actions m).1[earlier.length]? = some report ∧
        Observes m earlier file mask report) ∧
    ∀ report ∈ (run actions m).1, (∀ file mask, report.action ≠ .useFile file mask) →
      ∀ handlers file, .initrc handlers file ∉ report.events := by
  constructor
  · intro earlier file mask later split
    refine ⟨_, split ▸ run_report earlier later (.useFile file mask) m, ?_⟩
    exact {
      report_eq := congrArg Prod.fst (useFile_report (run earlier m).2 file mask)
      hooks := run_hooks earlier m
      lastSet := by
        rintro key first on rest rfl unset
        rw [run_append, run_cons, run_unset unset, toggles_set]
      unset := fun key unset => run_unset unset
      disabled := by
        rintro key first rest rfl never h watches rfl
        have on := watching_on watches
        rw [run_append, run_cons, run_off (toggles_set h.toggle false _) never] at on
        contradiction
      separate := fun key => (run_without earlier ⟨rfl, rfl, fun _ _ => rfl⟩).watching }
  · intro report member other handlers file seen
    obtain ⟨mask, action⟩ := run_seen actions m member seen
    exact other file mask action

/-- Two names install the same hooks. The handlers of the first share a toggle that has been disabled, and
only those of the second see the file. -/
theorem run_observes_disabled :
    let both := Selection.of (.make 5 10 0) ⟨Vendor.setuidHook ||| Vendor.initrcHook⟩
    let shared : Handlers := ⟨0, .common, fun _ _ _ => 0⟩
    let apart : Handlers := ⟨1, .own 1, fun _ _ _ => 0⟩
    let file : File := ⟨none, none, 2⟩
    let earlier : List HookAction := [.register "first" both shared, .register "second" both apart,
      .setToggle .common false, .setToggle (.own 1) true]
    let actions := earlier ++ [.useFile file 4]
    (run actions { kernel := {} }).1[4]? = some ⟨.useFile file 4, (0 : Int32), [apart.saw file]⟩ := by
  intro both shared apart file earlier actions
  have installed : (run earlier { kernel := {} }).1.filterMap HookReport.installed? =
      [("first", shared.table both.hooks), ("second", apart.table both.hooks)] := by
    simp only [earlier, both, shared, apart]
    rfl
  obtain ⟨report, found, observes⟩ :=
    (run_observes actions { kernel := {} }).1 earlier file 4 [] rfl
  have disabled := observes.lastSet .common (earlier.take 2) false [.setToggle (.own 1) true] rfl
    (by simp [HookAction.Sets])
  have enabled := observes.lastSet (.own 1) (earlier.take 3) true [] rfl (by simp)
  have hooks := observes.hooks
  rw [installed] at hooks
  have last : earlier.length = 4 := rfl
  rw [last, observes.report_eq] at found
  -- How the machine came about no longer matters.
  generalize (run earlier { kernel := {} }).2 = before at disabled enabled hooks found
  have table (h : Handlers) : h.table both.hooks = [.taskFixSetuid h, .filePermission h] := by
    simp only [both]
    rfl
  have watching : before.watching = [apart] := by
    simp [Machine.watching, HookEntry.observers, List.filterMap_cons, hooks, table,
      HookEntry.fileHandlers?, shared, apart, disabled, enabled]
  rw [watching] at found
  exact found

end HookAction
end KernelAbi
