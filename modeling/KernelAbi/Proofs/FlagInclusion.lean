import KernelAbi.Flags

/-! Words of flags as the sets of their bits. Inclusion is an order, and difference, intersection and the
conditional insertion by which words are built are read off it bit by bit. -/
namespace KernelAbi.Flags

variable {width : Nat} {V : Vocabulary width} {f g h : Flags V}

theorem ext_getLsbD (same : ∀ i, f.bits.getLsbD i = g.bits.getLsbD i) : f = g := by
  obtain ⟨a⟩ := f
  obtain ⟨b⟩ := g
  rw [BitVec.eq_of_getLsbD_eq (x := a) (y := b) fun i _ => same i]

theorem subset_iff : f ⊆ g ↔ ∀ i, f.bits.getLsbD i = true → g.bits.getLsbD i = true := by
  have covers : f ⊆ g ↔ g.bits &&& f.bits = f.bits := by
    simp only [HasSubset.Subset, has, beq_iff_eq]
  rw [covers]
  constructor
  · intro whole i bit
    rw [← whole, BitVec.getLsbD_and, Bool.and_eq_true] at bit
    exact bit.1
  · intro bits
    apply BitVec.eq_of_getLsbD_eq
    intro i _
    rw [BitVec.getLsbD_and]
    cases bit : f.bits.getLsbD i with
    | false => rw [Bool.and_false]
    | true => rw [bits i bit, Bool.and_self]

theorem subset_refl (f : Flags V) : f ⊆ f := subset_iff.mpr fun _ bit => bit

theorem subset_trans (first : f ⊆ g) (second : g ⊆ h) : f ⊆ h :=
  subset_iff.mpr fun i bit => subset_iff.mp second i (subset_iff.mp first i bit)

theorem subset_antisymm (first : f ⊆ g) (second : g ⊆ f) : f = g :=
  ext_getLsbD fun i => Bool.eq_iff_iff.mpr ⟨subset_iff.mp first i, subset_iff.mp second i⟩

/-- To have a mask is to include the word of its bits. -/
theorem has_of_subset {mask : BitVec width} (subset : f ⊆ g) (has : f.has mask = true) :
    g.has mask = true :=
  subset_trans (f := ⟨mask⟩) has subset

theorem has_insert (f : Flags V) (mask : BitVec width) : (f.insert mask).has mask = true := by
  have included : (⟨mask⟩ : Flags V) ⊆ f.insert mask := by
    apply subset_iff.mpr
    intro i bit
    rw [insert, BitVec.getLsbD_or, bit, Bool.or_true]
  exact included

theorem isEmpty_iff : f.isEmpty = true ↔ ∀ i, f.bits.getLsbD i = false := by
  rw [isEmpty, beq_iff_eq]
  constructor
  · intro zero i
    rw [zero]
    exact BitVec.getLsbD_zero
  · intro bits
    apply BitVec.eq_of_getLsbD_eq
    intro i _
    rw [bits i]
    exact BitVec.getLsbD_zero.symm

@[simp] theorem getLsbD_inter (f g : Flags V) (i : Nat) :
    (f ∩ g).bits.getLsbD i = (f.bits.getLsbD i && g.bits.getLsbD i) := BitVec.getLsbD_and

@[simp] theorem getLsbD_diff (f g : Flags V) (i : Nat) :
    (f \ g).bits.getLsbD i = (f.bits.getLsbD i && !g.bits.getLsbD i) := by
  have inside : f.bits.getLsbD i = true → i < width := BitVec.lt_of_getLsbD
  show (f.bits &&& ~~~g.bits).getLsbD i = _
  rw [BitVec.getLsbD_and, BitVec.getLsbD_not]
  cases bit : f.bits.getLsbD i with
  | false => simp
  | true => simp [inside bit]

@[simp] theorem getLsbD_insertIf (f : Flags V) (mask : BitVec width) (wanted : Bool) (i : Nat) :
    (f.insertIf mask wanted).bits.getLsbD i = (f.bits.getLsbD i || (wanted && mask.getLsbD i)) := by
  cases wanted with
  | false => simp [insertIf]
  | true => simp [insertIf, insert]

theorem inter_subset_left (f g : Flags V) : f ∩ g ⊆ f := by
  rw [subset_iff]
  intro i bit
  rw [getLsbD_inter, Bool.and_eq_true] at bit
  exact bit.1

theorem inter_subset_right (f g : Flags V) : f ∩ g ⊆ g := by
  rw [subset_iff]
  intro i bit
  rw [getLsbD_inter, Bool.and_eq_true] at bit
  exact bit.2

theorem diff_inter (f g h : Flags V) : (f \ g) ∩ h = (f ∩ h) \ g := by
  apply ext_getLsbD
  intro i
  simp only [getLsbD_inter, getLsbD_diff, Bool.and_right_comm]

/-- Nothing is left of a word without its superset. -/
theorem isEmpty_diff_iff : (f \ g).isEmpty = true ↔ f ⊆ g := by
  rw [isEmpty_iff, subset_iff]
  refine forall_congr' fun i => ?_
  rw [getLsbD_diff]
  cases f.bits.getLsbD i <;> simp

theorem insertIf_subset_insertIf {mask : BitVec width} {wanted later : Bool} (subset : f ⊆ g)
    (implies : wanted = true → later = true) : f.insertIf mask wanted ⊆ g.insertIf mask later := by
  rw [subset_iff] at subset ⊢
  intro i bit
  rw [getLsbD_insertIf, Bool.or_eq_true, Bool.and_eq_true] at bit ⊢
  exact bit.imp (subset i) (And.imp_left implies)

end KernelAbi.Flags
