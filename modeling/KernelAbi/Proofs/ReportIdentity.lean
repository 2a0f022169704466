import KernelAbi.Proofs.FlagInclusion
import KernelAbi.Proofs.LineText
import KernelAbi.Selection.Report
import KernelAbi.Selection.Resolve

/-! A report tells selections apart. Each of its lines is plain, so that the text gives back the lines; the
lines give back every decision but one, the form in which hooks are added, and that one follows from the
version whenever the selection was resolved. -/
namespace KernelAbi.Selection

open Log

/-- A note says which form it is about, and promises no number. -/
structure Tells {α : Type} (note : α → String) : Prop where
  injective : Function.Injective note
  plain : ∀ form, Announces (note form) false

section Notes

theorem accessNote_tells : Tells accessNote where
  injective := by rintro (_ | _) (_ | _) same <;> simp [accessNote] at same ⊢
  plain := by rintro (_ | _) <;> simp [accessNote, Announces]

theorem signalNote_tells : Tells signalNote where
  injective := by rintro (_ | _) (_ | _) same <;> simp [signalNote] at same ⊢
  plain := by rintro (_ | _) <;> simp [signalNote, Announces]

theorem notifyNote_tells : Tells notifyNote where
  injective := by rintro (_ | _) (_ | _) same <;> simp [notifyNote] at same ⊢
  plain := by rintro (_ | _) <;> simp [notifyNote, Announces]

theorem closeNote_tells : Tells closeNote where
  injective := by rintro (_ | _) (_ | _) same <;> simp [closeNote] at same ⊢
  plain := by rintro (_ | _) <;> simp [closeNote, Announces]

theorem stringCopyNote_tells : Tells stringCopyNote where
  injective := by rintro (_ | _ | _) (_ | _ | _) same <;> simp [stringCopyNote] at same ⊢
  plain := by rintro (_ | _ | _) <;> simp [stringCopyNote, Announces]

theorem fileIoNote_tells : Tells fileIoNote where
  injective := by rintro (_ | _) (_ | _) same <;> simp [fileIoNote] at same ⊢
  plain := by rintro (_ | _) <;> simp [fileIoNote, Announces]

theorem flags_injective {width : Nat} (fits : width ≤ 64) {V : Vocabulary width} {f g : Flags V}
    (same : word f.bits = word g.bits) : f = g := by
  have bound (bits : BitVec width) : bits.toNat < 2 ^ 64 :=
    Nat.lt_of_lt_of_le bits.isLt (Nat.pow_le_pow_right (by decide) fits)
  have numbers := congrArg UInt64.toNat (Option.some.inj same)
  rw [UInt64.toNat_ofNat_of_lt' (bound f.bits), UInt64.toNat_ofNat_of_lt' (bound g.bits)] at numbers
  exact congrArg Flags.mk (BitVec.eq_of_toNat_eq numbers)

theorem version_injective {v w : Version} (same : v.code.toUInt64 = w.code.toUInt64) : v = w := by
  have codes : v.code = w.code := by
    apply UInt32.toNat.inj
    rw [← UInt32.toNat_toUInt64, same, UInt32.toNat_toUInt64]
  rw [← Version.ofCode_code v, codes, Version.ofCode_code]

/-- Whether an optional line is there can be seen from a list that does not go on with that line. -/
theorem noteIf_append_inj {shown shown' : Bool} {line : Line} {rest rest' : List Line}
    (other : rest.head? ≠ some line) (other' : rest'.head? ≠ some line)
    (same : noteIf shown line ++ rest = noteIf shown' line ++ rest') : shown = shown' ∧ rest = rest' := by
  cases shown <;> cases shown'
  · exact ⟨rfl, same⟩
  · exact absurd (congrArg List.head? same) other
  · exact absurd (congrArg List.head? same).symm other'
  · exact ⟨rfl, (List.cons.inj same).2⟩

end Notes

section Substitutes

variable {s t : Selection}

/-- A bit for each helper. -/
theorem substitutes_bits (s : Selection) : (List.range 8).map s.substitutes.bits.getLsbD =
    [decide (s.fileInode = .substitute), decide (s.selinuxInode = .substitute),
      decide (s.selinuxCred = .substitute), decide (s.bitmaps = .substitute),
      decide (s.groupSort = .substitute), decide (s.inodeLock = .substitute),
      decide (s.growth = .substitute), decide (s.stringCopy = .substitute)] := by
  simp only [show List.range 8 = [0, 1, 2, 3, 4, 5, 6, 7] from rfl, List.map_cons, List.map_nil, substitutes,
    Flags.getLsbD_insertIf, Flags.empty, Helpers.fileInode, Helpers.selinuxInode, Helpers.selinuxCred,
    Helpers.bitmaps, Helpers.groupSort, Helpers.inodeLock, Helpers.growth, Helpers.stringCopy]
  simp

theorem supplier_eq {supplier supplier' : Supplier}
    (same : decide (supplier = .substitute) = decide (supplier' = .substitute)) : supplier = supplier' := by
  cases supplier <;> cases supplier' <;> simp at same ⊢

/-- The summary in one byte loses no supplier. -/
theorem suppliers_eq (same : s.substitutes = t.substitutes) :
    s.fileInode = t.fileInode ∧ s.selinuxInode = t.selinuxInode ∧ s.selinuxCred = t.selinuxCred ∧
    s.bitmaps = t.bitmaps ∧ s.groupSort = t.groupSort ∧ s.inodeLock = t.inodeLock ∧ s.growth = t.growth := by
  have bits := substitutes_bits s
  rw [same, substitutes_bits t] at bits
  simp only [List.cons.injEq] at bits
  obtain ⟨fileInode, selinuxInode, selinuxCred, bitmaps, groupSort, inodeLock, growth, -⟩ := bits
  exact ⟨(supplier_eq fileInode).symm, (supplier_eq selinuxInode).symm, (supplier_eq selinuxCred).symm,
    (supplier_eq bitmaps).symm, (supplier_eq groupSort).symm, (supplier_eq inodeLock).symm,
    (supplier_eq growth).symm⟩

end Substitutes

theorem noteIf_plain {shown : Bool} {line : Line} (plain : line.Plain) :
    ∀ note ∈ noteIf shown line, note.Plain := by
  intro note member
  cases shown with
  | false => contradiction
  | true => rwa [List.mem_singleton.mp member]

theorem report_plain (s : Selection) : ∀ line ∈ s.report, line.Plain := by
  have version : Announces "(Probe) LINUX_VERSION_CODE=" true := by simp [Announces]
  have flags : Announces "(Probe) VendorFlags=" true := by simp [Announces]
  have hisilicon : Announces "(Probe) CONFIG_IS_HW_HISI ativo" false := by simp [Announces]
  have substitutes : Announces "(Probe) Shims locais=" true := by simp [Announces]
  have keyring : Announces "(Probe) extern init_session_keyring" false := by simp [Announces]
  have hooks : Announces "(Probe) HookSet=" true := by simp [Announces]
  simp only [report, List.forall_mem_append, List.forall_mem_cons]
  refine ⟨⟨⟨⟨⟨version, flags, by simp⟩, noteIf_plain hisilicon⟩, accessNote_tells.plain _,
    signalNote_tells.plain _, notifyNote_tells.plain _, closeNote_tells.plain _, stringCopyNote_tells.plain _,
    fileIoNote_tells.plain _, substitutes, by simp⟩, noteIf_plain keyring⟩, hooks, by simp⟩

theorem report_injective {s t : Selection} (same : s.report = t.report) :
    t = { s with hookForm := t.hookForm } := by
  simp only [report, List.append_assoc, List.cons_append, List.nil_append, List.cons.injEq, Line.mk.injEq,
    true_and, Option.some.injEq] at same
  obtain ⟨version, flags, rest⟩ := same
  obtain ⟨hisilicon, rest⟩ := noteIf_append_inj (by simp) (by simp) rest
  simp only [List.cons.injEq, Line.mk.injEq, true_and, and_true] at rest
  obtain ⟨access, signal, notify, close, stringCopy, fileIo, substitutes, rest⟩ := rest
  obtain ⟨keyring, rest⟩ := noteIf_append_inj (by simp) (by simp) rest
  simp only [List.cons.injEq, Line.mk.injEq, true_and, and_true] at rest
  obtain ⟨fileInode, selinuxInode, selinuxCred, bitmaps, groupSort, inodeLock, growth⟩ :=
    suppliers_eq (flags_injective (by decide) substitutes)
  cases s
  cases t
  simp only [Selection.mk.injEq]
  exact ⟨(version_injective version).symm, (flags_injective (by decide) flags).symm, hisilicon.symm,
    (accessNote_tells.injective access).symm, (signalNote_tells.injective signal).symm,
    (notifyNote_tells.injective notify).symm, (closeNote_tells.injective close).symm,
    (stringCopyNote_tells.injective stringCopy).symm, (fileIoNote_tells.injective fileIo).symm,
    fileInode.symm, selinuxInode.symm, selinuxCred.symm, bitmaps.symm, groupSort.symm, inodeLock.symm,
    growth.symm, keyring.symm, (flags_injective (by decide) rest).symm, trivial⟩

/-- Two selections of which consoles are given the same report agree in all that the report is about, which
is everything but the form in which hooks are added. Two that were resolved are the same. -/
theorem report_identifies {log log' : Log} (listens : log.Listens) (listens' : log'.Listens) {s t : Selection}
    (same : log.heard s.report = log'.heard t.report) :
    t = { s with hookForm := t.hookForm } ∧
    (∀ (v w : Version) (f g : VendorFlags), resolve v f = .ok s → resolve w g = .ok t → s = t) := by
  rw [heard_eq listens, heard_eq listens'] at same
  have lines : s.report = t.report :=
    eq_of_text_eq (report_plain s) (report_plain t) (Bytes.ofText_injective same)
  have agree := report_injective lines
  refine ⟨agree, ?_⟩
  intro v w f g resolved resolved'
  have version : t.version = s.version := by rw [agree]
  have flags : t.flags = s.flags := by rw [agree]
  rw [eq_of_resolve resolved, eq_of_resolve resolved'] at version flags ⊢
  obtain rfl : w = v := version
  obtain rfl : g = f := flags
  rfl

/-- A console that has heard something before, and a selection that was not resolved and differs in the one
decision of which the report says nothing. -/
theorem report_identifies_unresolved :
    let s : Selection := build
    let t : Selection := { s with hookForm := .counted }
    let collector : Console := ⟨"collector", .none⟩
    let log : Log := { console := some collector }
    let log' : Log := { console := some collector, received := #[⟨collector, .ofText "\n"⟩] }
    log.Listens ∧ log'.Listens ∧ log.heard s.report = log'.heard t.report ∧
    t = { s with hookForm := t.hookForm } ∧ s ≠ t ∧
    resolve buildVersion buildFlags = .ok s ∧ ¬ ∃ v f, resolve v f = .ok t := by
  intro s t collector log log'
  have listens : log.Listens := ⟨collector, rfl, rfl⟩
  have listens' : log'.Listens := ⟨collector, rfl, rfl⟩
  have same : log.heard s.report = log'.heard t.report := by
    rw [heard_eq listens, heard_eq listens']
    rfl
  have different : s ≠ t := by decide
  obtain ⟨agree, resolved⟩ := report_identifies listens listens' same
  refine ⟨listens, listens', same, agree, different, resolve_build, ?_⟩
  rintro ⟨v, f, resolvable⟩
  exact different (resolved buildVersion v buildFlags f resolve_build resolvable)

end KernelAbi.Selection
