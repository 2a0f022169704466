import KernelAbi.Machine

/-! One call of a list of hooks. At a change of user the handlers are asked in the order of the list until
one of them denies. At the use of a file each handler whose toggle is on sees the file, and none can deny.
Hooks at the other point are passed over. -/
namespace KernelAbi

namespace Machine

variable {κ : Type} (m : Machine κ)

/-- The machine after handlers saw `events`. -/
def noting (events : List Event) : Machine κ := { m with events := m.events ++ events }

@[simp] theorem noting_nil : m.noting [] = m := by simp [noting]

@[simp] theorem noting_noting (first later : List Event) :
    (m.noting first).noting later = m.noting (first ++ later) := by
  simp [noting, ← Array.toList_inj]

@[simp] theorem noting_toggles (events : List Event) : (m.noting events).toggles = m.toggles := rfl

@[simp] theorem noting_events (events : List Event) :
    (m.noting events).events.toList = m.events.toList ++ events := by
  simp [noting]

@[simp] theorem run_note (event : Event) : (note event).run m = ((), m.noting [event]) := by
  simp only [noting]
  rfl

end Machine

namespace Handlers

variable (h : Handlers)

/-- What a change of user shows to handlers, and what they say to it. -/
def asked (new old : Cred) : Event := .setuid h.id new.uid old.uid new.euid

def verdict (new old : Cred) : Int32 := h.setuid new.uid old.uid new.euid

def saw (file : File) : Event := .initrc h.id file

end Handlers

namespace HookEntry

def setuidHandlers? : HookEntry → Option Handlers
  | .taskFixSetuid h => some h
  | .filePermission _ => none

def fileHandlers? : HookEntry → Option Handlers
  | .taskFixSetuid _ => none
  | .filePermission h => some h

/-- The handlers that see the use of a file while the toggles stand so. -/
def observers (toggles : Toggles) (entries : List HookEntry) : List Handlers :=
  (entries.filterMap fileHandlers?).filter fun h => toggles h.toggle

variable {κ : Type} (m : Machine κ)

section Setuid

variable (new old : Cred) (flags : Int32)

/-- Hooks at the other point are as if they were not there. -/
theorem callSetuid_handlers (entries : List HookEntry) :
    (callSetuid new old flags entries : MachineM κ Int32) =
      callSetuid new old flags ((entries.filterMap setuidHandlers?).map .taskFixSetuid) := by
  induction entries with
  | nil => rfl
  | cons entry entries ih =>
    cases entry with
    | filePermission h => exact ih
    | taskFixSetuid h =>
      simp only [callSetuid, List.filterMap_cons, setuidHandlers?, List.map_cons, ih]

/-- Handlers that all allow pass the call on to those behind them. -/
theorem callSetuid_allowed (allowing : List Handlers) (rest : List HookEntry)
    (allowed : ∀ h ∈ allowing, h.verdict new old = 0) :
    (callSetuid new old flags (allowing.map .taskFixSetuid ++ rest)).run m =
      (callSetuid new old flags rest).run (m.noting (allowing.map (·.asked new old))) := by
  induction allowing generalizing m with
  | nil => simp
  | cons h allowing ih =>
    obtain ⟨zero, later⟩ := List.forall_mem_cons.mp allowed
    have verdict : h.setuid new.uid old.uid new.euid = 0 := zero
    have next := ih (m.noting [h.asked new old]) later
    rw [Machine.noting_noting, List.singleton_append] at next
    rw [List.map_cons, List.cons_append, List.map_cons]
    simp only [callSetuid, Handlers.fixSetuid, Machine.run_bind, Machine.run_note, Machine.run_pure,
      verdict, ne_eq, not_true_eq_false, if_false]
    exact next

/-- No hook behind one that denies is asked. -/
theorem callSetuid_denied (denier : Handlers) (rest : List HookEntry)
    (denies : denier.verdict new old ≠ 0) :
    (callSetuid new old flags (.taskFixSetuid denier :: rest)).run m =
      (denier.verdict new old, m.noting [denier.asked new old]) := by
  have verdict : denier.setuid new.uid old.uid new.euid ≠ 0 := denies
  simp only [callSetuid, Handlers.fixSetuid, Machine.run_bind, Machine.run_note, Machine.run_pure,
    verdict, ne_eq, not_false_eq_true, if_true]
  rfl

end Setuid

/-- What asking handlers in turn comes to: the first that denies decides, and none behind it is asked. -/
structure Decides (asked : List Handlers) (new old : Cred) (before : Machine κ) (answer : Int32)
    (after : Machine κ) : Prop where
  allowed_iff : answer = 0 ↔ ∀ h ∈ asked, h.verdict new old = 0
  allowed : (∀ h ∈ asked, h.verdict new old = 0) → after = before.noting (asked.map (·.asked new old))
  denied : ∀ allowing denier rest, asked = allowing ++ denier :: rest →
    (∀ h ∈ allowing, h.verdict new old = 0) → denier.verdict new old ≠ 0 →
    answer = denier.verdict new old ∧
    after = before.noting ((allowing ++ [denier]).map (·.asked new old))

/-- Either all allow, or there is a first that denies. -/
theorem exists_denier (asked : List Handlers) (new old : Cred) :
    (∀ h ∈ asked, h.verdict new old = 0) ∨
    ∃ allowing denier rest, asked = allowing ++ denier :: rest ∧
      (∀ h ∈ allowing, h.verdict new old = 0) ∧ denier.verdict new old ≠ 0 := by
  cases first : asked.find? (·.verdict new old ≠ 0) with
  | none => exact .inl (by simpa using first)
  | some denier =>
    obtain ⟨denies, allowing, rest, split, allowed⟩ := List.find?_eq_some_iff_append.mp first
    exact .inr ⟨allowing, denier, rest, split, by simpa using allowed, by simpa using denies⟩

section

variable (new old : Cred) (flags : Int32) (entries : List HookEntry)

theorem callSetuid_unanimous (allowed : ∀ h ∈ entries.filterMap setuidHandlers?, h.verdict new old = 0) :
    (callSetuid new old flags entries).run m =
      (0, m.noting ((entries.filterMap setuidHandlers?).map (·.asked new old))) := by
  have run := callSetuid_allowed m new old flags _ [] allowed
  rw [List.append_nil] at run
  rw [callSetuid_handlers, run]
  rfl

theorem callSetuid_first_denier {allowing rest : List Handlers} {denier : Handlers}
    (shape : entries.filterMap setuidHandlers? = allowing ++ denier :: rest)
    (allowed : ∀ h ∈ allowing, h.verdict new old = 0) (denies : denier.verdict new old ≠ 0) :
    (callSetuid new old flags entries).run m =
      (denier.verdict new old, m.noting ((allowing ++ [denier]).map (·.asked new old))) := by
  rw [callSetuid_handlers, shape, List.map_append, List.map_cons, callSetuid_allowed _ _ _ _ _ _ allowed,
    callSetuid_denied _ _ _ _ _ _ denies, Machine.noting_noting, List.map_append]
  rfl

/-- Whoever decides, the call leaves nothing but what handlers saw of it. -/
theorem callSetuid_after : ∃ consulted : List Handlers,
    ((callSetuid new old flags entries).run m).2 = m.noting (consulted.map (·.asked new old)) := by
  rcases exists_denier (entries.filterMap setuidHandlers?) new old with
    allowed | ⟨allowing, denier, rest, shape, allowed, denies⟩
  · exact ⟨_, congrArg Prod.snd (callSetuid_unanimous m new old flags entries allowed)⟩
  · exact ⟨_, congrArg Prod.snd (callSetuid_first_denier m new old flags entries shape allowed denies)⟩

theorem callSetuid_decides :
    Decides (entries.filterMap setuidHandlers?) new old m
      ((callSetuid new old flags entries).run m).1 ((callSetuid new old flags entries).run m).2 where
  allowed_iff := by
    rcases exists_denier (entries.filterMap setuidHandlers?) new old with
      allowed | ⟨allowing, denier, rest, shape, allowed, denies⟩
    · rw [callSetuid_unanimous m new old flags entries allowed]
      exact ⟨fun _ => allowed, fun _ => rfl⟩
    · rw [callSetuid_first_denier m new old flags entries shape allowed denies]
      constructor
      · intro zero
        exact absurd zero denies
      · intro all
        exact all denier (by simp [shape])
  allowed := by
    intro allowed
    rw [callSetuid_unanimous m new old flags entries allowed]
  denied := by
    intro allowing denier rest shape allowed denies
    rw [callSetuid_first_denier m new old flags entries shape allowed denies]
    exact ⟨rfl, rfl⟩

end

/-- The call reads nothing of the credentials but the user ids, and neither the flags nor the hooks at the
other point. -/
theorem callSetuid_congr {new old new' old' : Cred} {entries entries' : List HookEntry}
    (handlers : entries'.filterMap setuidHandlers? = entries.filterMap setuidHandlers?)
    (newUid : new'.uid = new.uid) (oldUid : old'.uid = old.uid) (newEuid : new'.euid = new.euid)
    (flags flags' : Int32) :
    (callSetuid new' old' flags' entries').run m = (callSetuid new old flags entries).run m := by
  have verdict (h : Handlers) : h.verdict new' old' = h.verdict new old := by
    rw [Handlers.verdict, newUid, oldUid, newEuid]
    rfl
  have asked (h : Handlers) : h.asked new' old' = h.asked new old := by
    rw [Handlers.asked, newUid, oldUid, newEuid]
    rfl
  rcases exists_denier (entries.filterMap setuidHandlers?) new old with
    allowed | ⟨allowing, denier, rest, shape, allowed, denies⟩
  · rw [callSetuid_unanimous m new old flags entries allowed,
      callSetuid_unanimous m new' old' flags' entries' (by simpa only [handlers, verdict] using allowed)]
    simp only [handlers, asked]
  · rw [callSetuid_first_denier m new old flags entries shape allowed denies,
      callSetuid_first_denier m new' old' flags' entries' (handlers.trans shape)
        (by simpa only [verdict] using allowed) (by simpa only [verdict] using denies)]
    simp only [verdict, asked]

section File

/-- The first hook passes the call on in any case. -/
theorem callFilePermission_cons (h : Handlers) (file : File) (mask : Int32) (entries : List HookEntry) :
    (callFilePermission file mask (.filePermission h :: entries)).run m =
      (callFilePermission file mask entries).run
        (m.noting (if m.toggles h.toggle then [h.saw file] else [])) := by
  have seen : (h.filePermission file mask).run m =
      (0, m.noting (if m.toggles h.toggle then [h.saw file] else [])) := by
    unfold Handlers.filePermission
    rw [Machine.run_bind]
    cases on : m.toggles h.toggle with
    | true => simp [on, Handlers.saw]
    | false => simp [on]
  simp only [callFilePermission, Machine.run_bind, seen, ne_eq, not_true_eq_false, if_false]

/-- The call allows, and is seen by exactly the handlers whose toggle is on, in the order of their hooks. -/
theorem callFilePermission_run (file : File) (mask : Int32) (entries : List HookEntry) :
    (callFilePermission file mask entries).run m =
      (0, m.noting ((observers m.toggles entries).map (·.saw file))) := by
  induction entries generalizing m with
  | nil => exact congrArg _ m.noting_nil.symm
  | cons entry entries ih =>
    cases entry with
    | taskFixSetuid h => exact ih m
    | filePermission h =>
      rw [callFilePermission_cons, ih, Machine.noting_noting, Machine.noting_toggles]
      simp only [observers, List.filterMap_cons, fileHandlers?, List.filter_cons]
      split <;> simp

end File

end HookEntry
end KernelAbi
