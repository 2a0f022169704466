import KernelAbi.Proofs.FlagInclusion
import KernelAbi.Selection.Resolve

/-! The one refusal. It names those protections whose absence would have been enough: without all of them
the kernel is accepted, and without some of them it is refused for the others. -/
namespace KernelAbi

namespace Flags

variable {width : Nat} {V : Vocabulary width} {f g : Flags V}

theorem meets_or (f : Flags V) (a b : BitVec width) : f.meets (a ||| b) = (f.meets a || f.meets b) := by
  have neither : f.bits &&& (a ||| b) = 0 ↔ f.bits &&& a = 0 ∧ f.bits &&& b = 0 := by
    rw [BitVec.and_or_distrib_left]
    exact BitVec.or_eq_zero_iff
  rw [Bool.eq_iff_iff]
  simp only [meets, bne_iff_ne, ne_eq, neither, Bool.or_eq_true, Classical.not_and_iff_not_or_not]

/-- A mask of one bit is there as a whole or not at all. -/
theorem meets_twoPow (f : Flags V) {k : Nat} (inside : k < width) :
    f.meets (BitVec.twoPow width k) = f.has (BitVec.twoPow width k) := by
  have bit : (BitVec.twoPow width k).getLsbD k = true := by simp [inside]
  have nonzero : BitVec.twoPow width k ≠ 0 := by
    intro zero
    rw [zero] at bit
    simp at bit
  rw [meets, has, BitVec.and_twoPow]
  split
  · simpa using nonzero
  · simpa using nonzero.symm

theorem meets_eq_inter (f : Flags V) (mask : BitVec width) : f.meets mask = !(f ∩ ⟨mask⟩).isEmpty := rfl

/-- What is taken out elsewhere leaves a mask as it is. -/
theorem has_diff {mask : BitVec width} (apart : ∀ i, mask.getLsbD i = true → g.bits.getLsbD i = false)
    (has : f.has mask = true) : (f \ g).has mask = true := by
  have whole : (⟨mask⟩ : Flags V) ⊆ f := has
  show (⟨mask⟩ : Flags V) ⊆ f \ g
  rw [subset_iff] at whole ⊢
  intro i bit
  rw [getLsbD_diff, whole i bit, apart i bit]
  rfl

end Flags

namespace Selection

/-- The protections that are refused beside the driver, as a word of flags. -/
def security : VendorFlags := ⟨Vendor.forbiddenSecurity⟩

section Refused

variable {v : Version} {f c : VendorFlags} {e : Forbidden}

theorem meets_security (f : VendorFlags) :
    f.meets Vendor.forbiddenSecurity =
      (f.has Vendor.hypervisor || f.has Vendor.dataProtection || f.has Vendor.realtimeProtection) := by
  have hypervisor : f.meets Vendor.hypervisor = f.has Vendor.hypervisor :=
    f.meets_twoPow (k := 2) (by decide)
  have dataProtection : f.meets Vendor.dataProtection = f.has Vendor.dataProtection :=
    f.meets_twoPow (k := 3) (by decide)
  have realtimeProtection : f.meets Vendor.realtimeProtection = f.has Vendor.realtimeProtection :=
    f.meets_twoPow (k := 4) (by decide)
  rw [Vendor.forbiddenSecurity, Flags.meets_or, Flags.meets_or, hypervisor, dataProtection, realtimeProtection]

theorem resolve_eq_error_iff : resolve v f = .error e ↔
    f.has Vendor.hypervisorDriver = true ∧ (f ∩ security).isEmpty = false ∧ e = ⟨f ∩ security⟩ := by
  have meets : f.meets Vendor.forbiddenSecurity = !(f ∩ security).isEmpty := f.meets_eq_inter _
  have culprits : (⟨⟨f.bits &&& Vendor.forbiddenSecurity⟩⟩ : Forbidden) = ⟨f ∩ security⟩ := rfl
  rw [resolve, forbidden?, meets, culprits]
  cases f.has Vendor.hypervisorDriver <;> cases (f ∩ security).isEmpty <;> simp [eq_comm]

theorem resolve_of_isEmpty (clear : (f ∩ security).isEmpty = true) (v : Version) :
    resolve v f = .ok (of v f) := by
  have meets : f.meets Vendor.forbiddenSecurity = false := by
    rw [f.meets_eq_inter, Bool.not_eq_false']
    exact clear
  simp [resolve, forbidden?, meets]

theorem exists_refusal_iff : (∃ e, resolve v f = .error e) ↔
    f.has Vendor.hypervisorDriver = true ∧ (f.has Vendor.hypervisor = true ∨
      f.has Vendor.dataProtection = true ∨ f.has Vendor.realtimeProtection = true) := by
  have present : (f ∩ security).isEmpty = false ↔ f.meets Vendor.forbiddenSecurity = true := by
    rw [f.meets_eq_inter, Bool.not_eq_true']
    rfl
  simp only [resolve_eq_error_iff, exists_and_left, exists_eq, and_true, present, meets_security, Bool.or_eq_true,
    or_assoc]

/-- The driver is none of the protections. -/
theorem has_driver_diff (protections : c ⊆ security) (driver : f.has Vendor.hypervisorDriver = true) :
    (f \ c).has Vendor.hypervisorDriver = true := by
  refine Flags.has_diff ?_ driver
  intro i bit
  rw [← Bool.not_eq_true]
  intro present
  have other := Flags.subset_iff.mp protections i present
  have apart : Vendor.hypervisorDriver &&& Vendor.forbiddenSecurity = 0 := by decide
  have both := congrArg (·.getLsbD i) apart
  simp [bit, show Vendor.forbiddenSecurity.getLsbD i = true from other] at both

/-- A refusal outlives the removal of some of its culprits, for those that are left. -/
theorem resolve_diff_of_proper (refused : resolve v f = .error e) (part : c ⊆ e.culprits)
    (proper : c ≠ e.culprits) : resolve v (f \ c) = .error ⟨e.culprits \ c⟩ := by
  obtain ⟨driver, -, rfl⟩ := resolve_eq_error_iff.mp refused
  have protections : c ⊆ security := Flags.subset_trans part (Flags.inter_subset_right f security)
  have left : ((f ∩ security) \ c).isEmpty = false := by
    rw [← Bool.not_eq_true, Flags.isEmpty_diff_iff]
    exact fun whole => proper (Flags.subset_antisymm part whole)
  rw [resolve_eq_error_iff, Flags.diff_inter]
  exact ⟨has_driver_diff protections driver, left, rfl⟩

theorem resolve_diff_culprits (refused : resolve v f = .error e) :
    resolve v (f \ e.culprits) = .ok (of v (f \ e.culprits)) := by
  obtain ⟨-, -, rfl⟩ := resolve_eq_error_iff.mp refused
  apply resolve_of_isEmpty
  rw [Flags.diff_inter, Flags.isEmpty_diff_iff]
  exact Flags.subset_refl _

theorem resolve_diff_driver (v : Version) (f : VendorFlags) :
    resolve v (f \ ⟨Vendor.hypervisorDriver⟩) = .ok (of v (f \ ⟨Vendor.hypervisorDriver⟩)) := by
  apply resolve_driverless
  rw [← Bool.not_eq_true]
  intro driver
  have whole : (⟨Vendor.hypervisorDriver⟩ : VendorFlags) ⊆ f \ ⟨Vendor.hypervisorDriver⟩ := driver
  have own : Vendor.hypervisorDriver.getLsbD 1 = true := by decide
  have bit := Flags.subset_iff.mp whole 1 own
  rw [Flags.getLsbD_diff, own, Bool.not_true, Bool.and_false] at bit
  exact Bool.false_ne_true bit

end Refused

/-- A kernel is refused for its driver and a protection beside it, whatever its version. The culprits are
such protections of its own. Without them, or without the driver, it is accepted; without only some of them
it is refused for just the rest. What is accepted is told the version and the flags that were asked about. -/
theorem resolve_refusal (v : Version) (f : VendorFlags) :
    ((∃ e, resolve v f = .error e) ↔ f.has Vendor.hypervisorDriver = true ∧
      (f.has Vendor.hypervisor = true ∨ f.has Vendor.dataProtection = true ∨
        f.has Vendor.realtimeProtection = true)) ∧
    (∀ e, resolve v f = .error e →
      (∀ w, resolve w f = .error e) ∧
      e.culprits.isEmpty = false ∧ e.culprits ⊆ f ∧ e.culprits ⊆ ⟨Vendor.forbiddenSecurity⟩ ∧
      (∃ s, resolve v (f \ e.culprits) = .ok s) ∧
      (∃ s, resolve v (f \ ⟨Vendor.hypervisorDriver⟩) = .ok s) ∧
      (∀ c, c ⊆ e.culprits → c ≠ e.culprits → resolve v (f \ c) = .error ⟨e.culprits \ c⟩)) ∧
    (∀ s, resolve v f = .ok s → s.version = v ∧ s.flags = f) := by
  refine ⟨exists_refusal_iff, ?_, ?_⟩
  · intro e refused
    obtain ⟨driver, present, same⟩ := resolve_eq_error_iff.mp refused
    have own : e.culprits ⊆ f := same ▸ Flags.inter_subset_left f security
    have protections : e.culprits ⊆ security := same ▸ Flags.inter_subset_right f security
    refine ⟨fun w => resolve_eq_error_iff.mpr ⟨driver, present, same⟩, same ▸ present, own, protections,
      ⟨_, resolve_diff_culprits refused⟩, ⟨_, resolve_diff_driver v f⟩, ?_⟩
    intro c part proper
    exact resolve_diff_of_proper refused part proper
  · intro s accepted
    rw [eq_of_resolve accepted]
    exact ⟨rfl, rfl⟩

/-- Two of the three protections, beside a bit without a name. -/
theorem resolve_refusal_partial :
    let v : Version := .make 4 14 113
    let f : VendorFlags :=
      ⟨Vendor.hypervisorDriver ||| Vendor.hypervisor ||| Vendor.realtimeProtection ||| 1 <<< 30⟩
    let e : Forbidden := ⟨⟨Vendor.hypervisor ||| Vendor.realtimeProtection⟩⟩
    let c : VendorFlags := ⟨Vendor.hypervisor⟩
    resolve v f = .error e ∧ (∃ s, resolve v (f \ e.culprits) = .ok s) ∧
    c ⊆ e.culprits ∧ c ≠ e.culprits ∧ resolve v (f \ c) = .error ⟨e.culprits \ c⟩ ∧
    resolve v c = .ok (of v c) ∧ (of v c).flags = c := by
  intro v f e c
  have refused : resolve v f = .error e := resolve_eq_error_iff.mpr (by decide)
  have part : c ⊆ e.culprits := by decide
  have proper : c ≠ e.culprits := by decide
  have accepted : resolve v c = .ok (of v c) := resolve_driverless (by decide) v
  obtain ⟨-, -, -, -, without, -, rest⟩ := (resolve_refusal v f).2.1 e refused
  exact ⟨refused, without, part, proper, rest c part proper, accepted,
    ((resolve_refusal v c).2.2 _ accepted).2⟩

end Selection
end KernelAbi
