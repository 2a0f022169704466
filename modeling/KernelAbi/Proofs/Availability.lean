import KernelAbi.Proofs.Operation

/-! A module that is built for its kernel never asks that kernel for a primitive it does not have,
whatever the operations, their order and the state of the host. -/
namespace KernelAbi

/-- The session keyring of the first process is within the module's reach, by the kernel's age, by the
vendor's read-only policy in the two series that have it, or as the module's own options say. -/
def KeyringExposed (v : Version) (f : VendorFlags) : Prop :=
  v < .make 4 10 0 ∨
  (f.has Vendor.hisiliconReadOnly ∧
    (.make 4 9 0 ≤ v ∧ v < .make 4 10 0 ∨ .make 4 14 0 ≤ v ∧ v < .make 4 15 0)) ∨
  f.has Vendor.allowlistWorkaround

/-- The calls that a kernel of version `v` with the additions `f` can take. -/
def Call.Available (v : Version) (f : VendorFlags) : Call → Prop
  | .accessOk _ => .make 5 0 0 ≤ v
  | .accessOkTyped .. => v < .make 5 0 0
  | .forceSignal _ => .make 5 3 0 ≤ v
  | .forceSignalTo .. => v < .make 5 3 0
  | .addTaskWork .. => .make 5 7 0 ≤ v
  | .addTaskWorkFlag .. => v < .make 5 7 0
  | .closeFd _ => .make 5 11 0 ≤ v
  | .closeFdIn .. => v < .make 5 11 0
  | .fileInode => .make 3 9 0 ≤ v ∨ f.has Vendor.backportedFileInode
  | .selinuxInode => .make 5 1 0 ≤ v ∨ f.has Vendor.backportedSelinuxInode
  | .selinuxCred => .make 5 1 0 ≤ v ∨ f.has Vendor.backportedSelinuxCred
  | .initSessionKeyring | .installSessionKeyring _ => KeyringExposed v f
  | .copyStringNofault _ => .make 5 8 0 ≤ v
  | .copyStringUnsafe _ => .make 5 3 0 ≤ v ∧ v < .make 5 8 0
  | .copyString _ => v < .make 5 3 0
  | .openFile .. => True
  | .readMoving .. | .writeMoving .. => .make 4 14 0 ≤ v
  | .readAt .. | .writeAt .. => v < .make 4 14 0
  | .reallocate _ => .make 6 12 0 ≤ v
  | .allocateBitmap .. | .freeBitmap => .make 4 19 0 ≤ v
  | .sortGroups => .make 4 15 0 ≤ v
  | .lockInode => f.has Vendor.inodeLockHelpers
  | .addHooks .. => .make 4 11 0 ≤ v
  | .addHooksCounted .. => v < .make 4 11 0

namespace Selection

/-- Each form is the one that the kernel has, and each helper is asked for exactly where it is there. -/
structure Fits (s : Selection) (v : Version) (f : VendorFlags) : Prop where
  access : s.access = .untyped ↔ .make 5 0 0 ≤ v
  signal : s.signal = .implicit ↔ .make 5 3 0 ≤ v
  notify : s.notify = .mode ↔ .make 5 7 0 ≤ v
  close : s.close = .direct ↔ .make 5 11 0 ≤ v
  nofault : s.stringCopy = .nofault ↔ .make 5 8 0 ≤ v
  unsafeUser : s.stringCopy = .unsafeUser ↔ .make 5 3 0 ≤ v ∧ v < .make 5 8 0
  fileIo : s.fileIo = .moving ↔ .make 4 14 0 ≤ v
  fileInode : s.fileInode = .kernel ↔ .make 3 9 0 ≤ v ∨ f.has Vendor.backportedFileInode
  selinuxInode : s.selinuxInode = .kernel ↔ .make 5 1 0 ≤ v ∨ f.has Vendor.backportedSelinuxInode
  selinuxCred : s.selinuxCred = .kernel ↔ .make 5 1 0 ≤ v ∨ f.has Vendor.backportedSelinuxCred
  bitmaps : s.bitmaps = .kernel ↔ .make 4 19 0 ≤ v
  groupSort : s.groupSort = .kernel ↔ .make 4 15 0 ≤ v
  inodeLock : s.inodeLock = .kernel ↔ f.has Vendor.inodeLockHelpers
  growth : s.growth = .kernel ↔ .make 6 12 0 ≤ v
  initKeyring : s.initKeyring ↔ KeyringExposed v f
  hookForm : s.hookForm = .named ↔ .make 4 11 0 ≤ v

theorem form_since {α : Type} {recent old : α} (different : old ≠ recent) (threshold v : Version) :
    (if threshold ≤ v then recent else old) = recent ↔ threshold ≤ v := by
  simp [different]

theorem substituteIf_eq_kernel (missing : Bool) : substituteIf missing = .kernel ↔ missing = false := by
  cases missing <;> simp [substituteIf]

/-- A helper is there from a version on, or where a vendor carried it back. -/
theorem supplier_since (threshold v : Version) (backported : Bool) :
    substituteIf (v < threshold && !backported) = .kernel ↔ threshold ≤ v ∨ backported := by
  rw [substituteIf_eq_kernel, ← Version.not_lt]
  cases backported <;> simp

theorem supplier_from (threshold v : Version) :
    substituteIf (v < threshold) = .kernel ↔ threshold ≤ v := by
  rw [substituteIf_eq_kernel, decide_eq_false_iff_not, Version.not_lt]

theorem stringCopyFor_nofault (v : Version) :
    stringCopyFor v = .nofault ↔ Threshold.nofaultCopy ≤ v := by
  unfold stringCopyFor
  by_cases recent : Threshold.nofaultCopy ≤ v
  · simp only [recent, if_true]
  · simp only [recent, if_false, iff_false]
    split <;> simp

theorem stringCopyFor_unsafeUser (v : Version) :
    stringCopyFor v = .unsafeUser ↔ Threshold.unsafeUserCopy ≤ v ∧ v < Threshold.nofaultCopy := by
  unfold stringCopyFor
  rw [← Version.not_le]
  by_cases recent : Threshold.nofaultCopy ≤ v
  · simp [recent]
  · simp [recent]

theorem isHisilicon_iff (v : Version) (f : VendorFlags) :
    isHisilicon v f = true ↔ f.has Vendor.hisiliconReadOnly ∧
      (.make 4 9 0 ≤ v ∧ v < .make 4 10 0 ∨ .make 4 14 0 ≤ v ∧ v < .make 4 15 0) := by
  simp only [isHisilicon, Threshold.hisiliconSeries, List.any_cons, List.any_nil, Bool.or_false,
    Bool.and_eq_true, Bool.or_eq_true, decide_eq_true_eq]
  rfl

theorem keyringExposed_iff (v : Version) (f : VendorFlags) :
    KeyringExposed v f ↔
      v < Threshold.keyringHidden ∨ isHisilicon v f = true ∨ f.has Vendor.allowlistWorkaround = true := by
  rw [isHisilicon_iff]
  rfl

theorem fits_of (v : Version) (f : VendorFlags) : (of v f).Fits v f where
  access := form_since (by simp) Threshold.untypedAccess v
  signal := form_since (by simp) Threshold.implicitSignal v
  notify := form_since (by simp) Threshold.notifyMode v
  close := form_since (by simp) Threshold.directClose v
  nofault := stringCopyFor_nofault v
  unsafeUser := stringCopyFor_unsafeUser v
  fileIo := form_since (by simp) Threshold.movingFileIo v
  fileInode := supplier_since Threshold.fileInode v _
  selinuxInode := supplier_since Threshold.selinuxAccessors v _
  selinuxCred := supplier_since Threshold.selinuxAccessors v _
  bitmaps := supplier_from Threshold.bitmaps v
  groupSort := supplier_from Threshold.groupSort v
  inodeLock := by simp [of, substituteIf_eq_kernel]
  growth := supplier_from Threshold.growth v
  initKeyring := by
    rw [keyringExposed_iff]
    simp only [of, Bool.or_eq_true, decide_eq_true_eq, or_assoc]
  hookForm := form_since (by simp) Threshold.namedHooks v

theorem fits_of_resolve {v : Version} {f : VendorFlags} {s : Selection} (resolved : resolve v f = .ok s) :
    s.Fits v f := by
  rw [eq_of_resolve resolved]
  exact fits_of v f

end Selection

namespace Availability

variable {v : Version} {f : VendorFlags} {s : Selection}

/-- The form that is not the recent one is from before it. -/
theorem older {α : Type} {form recent : α} {threshold : Version} (since : form = recent ↔ threshold ≤ v)
    (other : form ≠ recent) : v < threshold :=
  Version.not_le.mp fun reached => other (since.mpr reached)

/-- Of two forms a fitting selection names the one of its kernel. -/
theorem form_available {α : Type} {form recent : α} {threshold : Version} [Decidable (form = recent)]
    {call old : Call} (since : form = recent ↔ threshold ≤ v)
    (available : threshold ≤ v → call.Available v f) (availableBefore : v < threshold → old.Available v f) :
    (if form = recent then call else old).Available v f := by
  by_cases chosen : form = recent
  · rw [if_pos chosen]
    exact available (since.mp chosen)
  · rw [if_neg chosen]
    exact availableBefore (older since chosen)

/-- A kernel with neither of the later copies is older than both. -/
theorem copyCalls_available (fits : s.Fits v f) (size : Nat) :
    ∀ call ∈ s.copyCalls size, call.Available v f := by
  intro call member
  unfold Selection.copyCalls at member
  split at member
  next nofault =>
    rw [List.mem_singleton.mp member]
    exact fits.nofault.mp nofault
  next unsafeUser =>
    rw [List.mem_singleton.mp member]
    exact fits.unsafeUser.mp unsafeUser
  next substitute =>
    split at member
    · contradiction
    · rw [List.mem_singleton.mp member]
      have beforeNofault := older fits.nofault (by simp [substitute])
      have notBetween : ¬ Threshold.unsafeUserCopy ≤ v := by
        intro reached
        have unsafeUser := fits.unsafeUser.mpr ⟨reached, beforeNofault⟩
        simp [substitute] at unsafeUser
      exact Version.not_le.mp notBetween

/-- The second way to the keyring, by way of an open, is as guarded as the first. -/
theorem keyringCalls_available (fits : s.Fits v f) (r : Recorder) :
    ∀ call ∈ s.keyringCalls r, call.Available v f := by
  intro call member
  unfold Selection.keyringCalls at member
  split at member
  next provides =>
    have exposed := fits.initKeyring.mp provides.1
    rcases List.mem_cons.mp member with rfl | member
    · exact exposed
    · obtain ⟨key, -, rfl⟩ := by simpa using member
      exact exposed
  next => contradiction

theorem registerCalls_available (fits : s.Fits v f) (m : Machine Recorder) (name : String)
    (h : Handlers) : ∀ call ∈ Operation.registerCalls s m name h, call.Available v f := by
  intro call member
  unfold Operation.registerCalls at member
  split at member
  · rw [List.mem_singleton.mp member]
    exact form_available fits.hookForm id id
  · contradiction

theorem calls_available (fits : s.Fits v f) (m : Machine Recorder) (op : Operation) :
    ∀ call ∈ op.calls s m, call.Available v f := by
  intro call member
  cases op with
  | accessOk address size =>
    rw [List.mem_singleton.mp member]
    exact form_available fits.access id id
  | forceSignal signal =>
    rw [List.mem_singleton.mp member]
    exact form_available fits.signal id id
  | addTaskWork task mode =>
    rw [List.mem_singleton.mp member]
    exact form_available fits.notify id id
  | closeFd fd =>
    rw [List.mem_singleton.mp member]
    exact form_available fits.close id id
  | fileInode file =>
    obtain ⟨rfl, supplied⟩ := Supplier.mem_calls member
    exact fits.fileInode.mp supplied
  | selinuxInode inode =>
    obtain ⟨rfl, supplied⟩ := Supplier.mem_calls member
    exact fits.selinuxInode.mp supplied
  | selinuxCred cred =>
    obtain ⟨rfl, supplied⟩ := Supplier.mem_calls member
    exact fits.selinuxCred.mp supplied
  | initSessionKeyring =>
    simp only [Operation.calls] at member
    split at member
    next declared =>
      rw [List.mem_singleton.mp member]
      exact fits.initKeyring.mp declared
    next => contradiction
  | copyString buffer address => exact copyCalls_available fits _ call member
  | openFile path flags mode =>
    rcases List.mem_append.mp member with member | member
    · exact keyringCalls_available fits m.kernel call member
    · rw [List.mem_singleton.mp member]
      trivial
  | read file buffer position =>
    rw [List.mem_singleton.mp member]
    exact form_available fits.fileIo id id
  | write file bytes position =>
    rw [List.mem_singleton.mp member]
    exact form_available fits.fileIo id id
  | grow buffer live wanted flags =>
    obtain ⟨rfl, supplied⟩ := Supplier.mem_calls member
    exact fits.growth.mp supplied
  | allocateBitmap bits flags | allocateClearBitmap bits flags | freeBitmap bitmap =>
    obtain ⟨rfl, supplied⟩ := Supplier.mem_calls member
    exact fits.bitmaps.mp supplied
  | sortGroups ids =>
    obtain ⟨rfl, supplied⟩ := Supplier.mem_calls member
    exact fits.groupSort.mp supplied
  | lockInode inode =>
    simp only [Operation.calls] at member
    split at member
    · obtain ⟨rfl, supplied⟩ := Supplier.mem_calls member
      exact fits.inodeLock.mp supplied
    · contradiction
  | unlockInode guard => contradiction
  | register name handlers => exact registerCalls_available fits m name handlers call member

theorem exchanges_available (client : Client) (selections : Nat → Selection)
    (fits : ∀ i, (selections i).Fits v f) (m : Machine Recorder) :
    ∀ exchange ∈ (client.run selections m).1, ∀ call ∈ exchange.calls, call.Available v f := by
  induction client generalizing selections m with
  | stop =>
    intro exchange member
    contradiction
  | ask op next ih =>
    intro exchange member
    rw [Client.run_ask] at member
    rcases List.mem_cons.mp member with rfl | member
    · exact calls_available (fits 0) m op
    · exact ih _ (fun i => selections (i + 1)) (fun i => fits (i + 1)) _ exchange member

/-- Whatever a client does under the selection for a kernel, its run adds to the record only calls that
this kernel can take. -/
theorem run_available (resolved : Selection.resolve v f = .ok s) (client : Client)
    (m : Machine Recorder) :
    ∃ recorded,
      (client.run (fun _ => s) m).2.kernel.calls.toList = m.kernel.calls.toList ++ recorded ∧
      ∀ call ∈ recorded, call.Available v f := by
  have fits := Selection.fits_of_resolve resolved
  refine ⟨_, client.run_calls (fun _ => s) m, ?_⟩
  intro call member
  obtain ⟨exchange, made, member⟩ := List.mem_flatMap.mp member
  exact exchanges_available client (fun _ => s) (fun _ => fits) m exchange made call member

/-- A worker on an old kernel gets its keyring with the first open, and then a lock that the kernel has
no helper for. -/
theorem run_available_worker :
    let v : Version := .make 4 9 0
    let f : VendorFlags := ⟨Vendor.hisiliconReadOnly ||| Vendor.setuidHook⟩
    let s := Selection.of v f
    let client : Client :=
      .ask (.openFile "/data" 0 0) fun _ =>
      .ask (.lockInode ⟨7, 7, none, .mutex⟩) fun _ =>
      .ask (.register "lsm" ⟨0, .common, fun _ _ _ => 0⟩) fun _ => .stop
    let m : Machine Recorder := { kernel := { workqueueWorker := true } }
    let recorded : List Call := [.initSessionKeyring, .installSessionKeyring 42, .openFile 0 0,
      .addHooksCounted 1 [.taskFixSetuid]]
    Selection.resolve v f = .ok s ∧ (client.run (fun _ => s) m).2.kernel.calls.toList = recorded ∧
    ∀ call ∈ recorded, call.Available v f := by
  intro v f s client m recorded
  have resolved : Selection.resolve v f = .ok s := by decide
  have record : (client.run (fun _ => s) m).2.kernel.calls.toList = recorded := by decide +kernel
  obtain ⟨calls, run, available⟩ := run_available resolved client m
  have same : calls = recorded := run.symm.trans record
  exact ⟨resolved, record, same ▸ available⟩

end Availability
end KernelAbi
