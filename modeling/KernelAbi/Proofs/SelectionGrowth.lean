import KernelAbi.Proofs.Availability
import KernelAbi.Proofs.FlagInclusion

/-! How a selection changes as the kernel gains something. A later version never brings an older form back
nor takes a helper away, and neither does a flag that is added; a flag moreover leaves all forms as they are.
Only the HiSilicon series come and go with the version, and the keyring with them. -/
namespace KernelAbi

/-- The copies by age, from the module's own to the newest. -/
def StringCopyForm.rank : StringCopyForm → Nat
  | .substitute => 0
  | .unsafeUser => 1
  | .nofault => 2

namespace Selection

/-- Where `s` has the newer of two forms, `t` has it too, and `t` copies strings in no older way. -/
structure KeepsForms (s t : Selection) : Prop where
  access : s.access = .untyped → t.access = .untyped
  signal : s.signal = .implicit → t.signal = .implicit
  notify : s.notify = .mode → t.notify = .mode
  close : s.close = .direct → t.close = .direct
  stringCopy : s.stringCopy.rank ≤ t.stringCopy.rank
  fileIo : s.fileIo = .moving → t.fileIo = .moving
  hookForm : s.hookForm = .named → t.hookForm = .named

/-- The kernel supplies under `t` what it supplies under `s`. -/
structure KeepsHelpers (s t : Selection) : Prop where
  fileInode : s.fileInode = .kernel → t.fileInode = .kernel
  selinuxInode : s.selinuxInode = .kernel → t.selinuxInode = .kernel
  selinuxCred : s.selinuxCred = .kernel → t.selinuxCred = .kernel
  bitmaps : s.bitmaps = .kernel → t.bitmaps = .kernel
  groupSort : s.groupSort = .kernel → t.groupSort = .kernel
  inodeLock : s.inodeLock = .kernel → t.inodeLock = .kernel
  growth : s.growth = .kernel → t.growth = .kernel

structure SameForms (s t : Selection) : Prop where
  access : s.access = t.access
  signal : s.signal = t.signal
  notify : s.notify = t.notify
  close : s.close = t.close
  stringCopy : s.stringCopy = t.stringCopy
  fileIo : s.fileIo = t.fileIo
  hookForm : s.hookForm = t.hookForm

section Fitting

variable {v w : Version} {f g : VendorFlags} {s t : Selection}

/-- What is there since `first`, or because of a flag, stays there. -/
theorem kept {first : Version} {before after : Prop} (since : before ↔ first ≤ v) (sinceAfter : after ↔ first ≤ w)
    (le : v ≤ w) : before → after :=
  fun there => sinceAfter.mpr (Version.le_trans (since.mp there) le)

theorem kept_or {first : Version} {before after flag flagAfter : Prop} (since : before ↔ first ≤ v ∨ flag)
    (sinceAfter : after ↔ first ≤ w ∨ flagAfter) (le : v ≤ w) (added : flag → flagAfter) : before → after :=
  fun there => sinceAfter.mpr ((since.mp there).imp (Version.le_trans · le) added)

theorem rank_le (fits : s.Fits v f) (fitsAfter : t.Fits w g) (le : v ≤ w) :
    s.stringCopy.rank ≤ t.stringCopy.rank := by
  cases form : s.stringCopy with
  | substitute => exact Nat.zero_le _
  | unsafeUser =>
    have reached : .make 5 3 0 ≤ w := Version.le_trans (fits.unsafeUser.mp form).1 le
    by_cases nofault : .make 5 8 0 ≤ w
    · rw [fitsAfter.nofault.mpr nofault]
      decide
    · rw [fitsAfter.unsafeUser.mpr ⟨reached, Version.not_le.mp nofault⟩]
  | nofault =>
    rw [kept fits.nofault fitsAfter.nofault le form]

theorem keepsForms (fits : s.Fits v f) (fitsAfter : t.Fits w g) (le : v ≤ w) : s.KeepsForms t where
  access := kept fits.access fitsAfter.access le
  signal := kept fits.signal fitsAfter.signal le
  notify := kept fits.notify fitsAfter.notify le
  close := kept fits.close fitsAfter.close le
  stringCopy := rank_le fits fitsAfter le
  fileIo := kept fits.fileIo fitsAfter.fileIo le
  hookForm := kept fits.hookForm fitsAfter.hookForm le

theorem keepsHelpers (fits : s.Fits v f) (fitsAfter : t.Fits w g) (le : v ≤ w) (subset : f ⊆ g) :
    s.KeepsHelpers t where
  fileInode := kept_or fits.fileInode fitsAfter.fileInode le (Flags.has_of_subset subset)
  selinuxInode := kept_or fits.selinuxInode fitsAfter.selinuxInode le (Flags.has_of_subset subset)
  selinuxCred := kept_or fits.selinuxCred fitsAfter.selinuxCred le (Flags.has_of_subset subset)
  bitmaps := kept fits.bitmaps fitsAfter.bitmaps le
  groupSort := kept fits.groupSort fitsAfter.groupSort le
  inodeLock := fun there => fitsAfter.inodeLock.mpr (Flags.has_of_subset subset (fits.inodeLock.mp there))
  growth := kept fits.growth fitsAfter.growth le

theorem sameForms_of (v : Version) (f g : VendorFlags) : (of v f).SameForms (of v g) :=
  ⟨rfl, rfl, rfl, rfl, rfl, rfl, rfl⟩

end Fitting

section Sets

variable {v w : Version} {f g : VendorFlags} {s t : Selection}

theorem substitute_of_kept {supplier later : Supplier} (keeps : supplier = .kernel → later = .kernel)
    (missing : decide (later = .substitute) = true) : decide (supplier = .substitute) = true := by
  cases supplier with
  | substitute => rfl
  | kernel => simp [keeps rfl] at missing

theorem substitute_of_rank {form later : StringCopyForm} (newer : form.rank ≤ later.rank)
    (missing : decide (later = .substitute) = true) : decide (form = .substitute) = true := by
  obtain rfl := of_decide_eq_true missing
  cases form with
  | substitute => rfl
  | unsafeUser => contradiction
  | nofault => contradiction

/-- What the kernel goes on supplying needs no substitute. -/
theorem substitutes_subset (forms : s.stringCopy.rank ≤ t.stringCopy.rank) (helpers : s.KeepsHelpers t) :
    t.substitutes ⊆ s.substitutes := by
  unfold substitutes
  refine Flags.insertIf_subset_insertIf ?_ (substitute_of_rank forms)
  refine Flags.insertIf_subset_insertIf ?_ (substitute_of_kept helpers.growth)
  refine Flags.insertIf_subset_insertIf ?_ (substitute_of_kept helpers.inodeLock)
  refine Flags.insertIf_subset_insertIf ?_ (substitute_of_kept helpers.groupSort)
  refine Flags.insertIf_subset_insertIf ?_ (substitute_of_kept helpers.bitmaps)
  refine Flags.insertIf_subset_insertIf ?_ (substitute_of_kept helpers.selinuxCred)
  refine Flags.insertIf_subset_insertIf ?_ (substitute_of_kept helpers.selinuxInode)
  exact Flags.insertIf_subset_insertIf (Flags.subset_refl _) (substitute_of_kept helpers.fileInode)

theorem hooksFor_subset (subset : f ⊆ g) : hooksFor f ⊆ hooksFor g :=
  Flags.insertIf_subset_insertIf
    (Flags.insertIf_subset_insertIf (Flags.subset_refl _) (Flags.has_of_subset subset))
    (Flags.has_of_subset subset)

theorem isHisilicon_of_subset (subset : f ⊆ g) (series : isHisilicon v f = true) : isHisilicon v g = true := by
  rw [isHisilicon, Bool.and_eq_true] at series ⊢
  exact series.imp_left (Flags.has_of_subset subset)

theorem keyringExposed_of_subset (subset : f ⊆ g) (exposed : KeyringExposed v f) : KeyringExposed v g :=
  exposed.imp_right (Or.imp (And.imp_left (Flags.has_of_subset subset)) (Flags.has_of_subset subset))

/-- In a later version the keyring is exposed anew only by the vendor's series. -/
theorem keyringExposed_earlier (le : v ≤ w) (exposed : KeyringExposed w f) :
    KeyringExposed v f ∨ isHisilicon w f = true := by
  rcases exposed with hidden | vendor | option
  · have before : v < .make 4 10 0 := Version.not_le.mp fun reached =>
      Version.not_le.mpr hidden (Version.le_trans reached le)
    exact .inl (.inl before)
  · exact .inr ((isHisilicon_iff w f).mpr vendor)
  · exact .inl (.inr (.inr option))

theorem isHisilicon_of_absent (absent : f.has Vendor.hisiliconReadOnly = false) : isHisilicon v f = false := by
  rw [isHisilicon, absent, Bool.false_and]

theorem initKeyring_hidden (fits : s.Fits v f) (fitsAfter : t.Fits w f) (le : v ≤ w)
    (absent : f.has Vendor.hisiliconReadOnly = false) (hidden : s.initKeyring = false) :
    t.initKeyring = false := by
  rw [Bool.eq_false_iff] at hidden ⊢
  intro shown
  rcases keyringExposed_earlier le (fitsAfter.initKeyring.mp shown) with exposed | vendor
  · exact hidden (fits.initKeyring.mpr exposed)
  · exact Bool.false_ne_true ((isHisilicon_of_absent absent).symm.trans vendor)

end Sets

/-- As the version grows no decision falls back: forms stay new, helpers stay the kernel's, the module brings
nothing more of its own, and its hooks are the same; without the vendor's read-only policy the keyring does
not come within reach either. As flags are added the forms stay what they are, the module brings nothing more
of its own, no hook is lost, and neither the keyring nor the vendor's series is. -/
theorem resolve_monotone :
    (∀ (f : VendorFlags) (v w : Version) (s t : Selection), v ≤ w → resolve v f = .ok s → resolve w f = .ok t →
      s.KeepsForms t ∧ s.KeepsHelpers t ∧ t.substitutes ⊆ s.substitutes ∧ t.hooks = s.hooks ∧
      (f.has Vendor.hisiliconReadOnly = false → s.initKeyring = false → t.initKeyring = false)) ∧
    (∀ (v : Version) (f g : VendorFlags) (s t : Selection), f ⊆ g → resolve v f = .ok s → resolve v g = .ok t →
      s.SameForms t ∧ t.substitutes ⊆ s.substitutes ∧ s.hooks ⊆ t.hooks ∧
      (s.initKeyring = true → t.initKeyring = true) ∧ (s.hisilicon = true → t.hisilicon = true)) := by
  constructor
  · intro f v w s t le resolved resolvedAfter
    have fits := fits_of_resolve resolved
    have fitsAfter := fits_of_resolve resolvedAfter
    have helpers := keepsHelpers fits fitsAfter le (Flags.subset_refl f)
    have hooks : t.hooks = s.hooks := by
      rw [eq_of_resolve resolved, eq_of_resolve resolvedAfter]
      rfl
    exact ⟨keepsForms fits fitsAfter le, helpers, substitutes_subset (rank_le fits fitsAfter le) helpers,
      hooks, initKeyring_hidden fits fitsAfter le⟩
  · intro v f g s t subset resolved resolvedAfter
    have fits := fits_of_resolve resolved
    have fitsAfter := fits_of_resolve resolvedAfter
    have le : v ≤ v := UInt32.le_refl v.code
    have helpers := keepsHelpers fits fitsAfter le subset
    have keyring : s.initKeyring = true → t.initKeyring = true := fun shown =>
      fitsAfter.initKeyring.mpr (keyringExposed_of_subset subset (fits.initKeyring.mp shown))
    have fewer := substitutes_subset (rank_le fits fitsAfter le) helpers
    rw [eq_of_resolve resolved, eq_of_resolve resolvedAfter] at fewer keyring ⊢
    exact ⟨sameForms_of v f g, fewer, hooksFor_subset subset, keyring, isHisilicon_of_subset subset⟩

/-- From a series that hides the keyring to one of the vendor's, whose mark is then added together with the
helpers for inode locks. -/
theorem resolve_monotone_series :
    let v : Version := .make 4 10 0
    let w : Version := .make 4 14 0
    let f : VendorFlags := ⟨Vendor.backportedFileInode ||| Vendor.initrcHook⟩
    let g : VendorFlags := ⟨f.bits ||| Vendor.hisiliconReadOnly ||| Vendor.inodeLockHelpers⟩
    v ≤ w ∧ f ⊆ g ∧ resolve v f = .ok (of v f) ∧ resolve w f = .ok (of w f) ∧ resolve w g = .ok (of w g) ∧
    f.has Vendor.hisiliconReadOnly = false ∧ (of v f).initKeyring = false ∧ (of w f).hisilicon = false ∧
    (of v f).KeepsForms (of w f) ∧ (of w f).substitutes ⊆ (of v f).substitutes ∧
    (of w f).initKeyring = false ∧ (of w f).SameForms (of w g) ∧
    (of w g).substitutes ⊆ (of w f).substitutes ∧ (of w f).hooks ⊆ (of w g).hooks := by
  intro v w f g
  have le : v ≤ w := by decide
  have subset : f ⊆ g := by decide
  have absent : f.has Vendor.hisiliconReadOnly = false := by decide
  have hidden : (of v f).initKeyring = false := by decide
  have early : resolve v f = .ok (of v f) := resolve_driverless (by decide) v
  have late : resolve w f = .ok (of w f) := resolve_driverless (by decide) w
  have added : resolve w g = .ok (of w g) := resolve_driverless (by decide) w
  obtain ⟨forms, -, fewer, -, stays⟩ := resolve_monotone.1 f v w _ _ le early late
  obtain ⟨same, fewerAdded, hooks, -, -⟩ := resolve_monotone.2 w f g _ _ subset late added
  exact ⟨le, subset, early, late, added, absent, hidden, by decide, forms, fewer, stays absent hidden, same,
    fewerAdded, hooks⟩

/-- The vendor's series is why the keyring has a condition. -/
example :
    let f : VendorFlags := ⟨Vendor.hisiliconReadOnly⟩
    (of (.make 4 10 0) f).initKeyring = false ∧ (of (.make 4 14 0) f).initKeyring = true := by decide

end Selection
end KernelAbi
