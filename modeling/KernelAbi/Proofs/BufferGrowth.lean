import KernelAbi.Proofs.Recording
import KernelAbi.Selection.Resolve

/-! Buffers through chains of resizings. Each request of a chain may be carried out by someone else: the
host cuts a buffer down to what is wanted, and the substitute leaves alone what is large enough. Neither
loses a byte for which every request so far has left room. -/
namespace KernelAbi

/-- A request for `wanted` bytes under a selection. -/
structure Resize where
  selection : Selection
  wanted : UInt64
  flags : AllocationFlags

/-- A request, the buffer for which it was made, and its answer. -/
structure Resized where
  request : Resize
  before : Bytes
  answer : Except Bytes Bytes

namespace Resize

/-- The buffer that an answer leaves the caller: a new one, or its own again. -/
def inHand : Except Bytes Bytes → Bytes
  | .ok buffer => buffer
  | .error buffer => buffer

/-- What the allocator does not serve is asked of the substitute alone. -/
def Admissible (request : Resize) : Prop :=
  Memory.Granted request.wanted.toNat ∨ request.selection.growth = .substitute

instance (request : Resize) : Decidable request.Admissible :=
  inferInstanceAs (Decidable (Memory.Granted request.wanted.toNat ∨ request.selection.growth = .substitute))

/-- All bytes of the buffer are live. -/
def perform (request : Resize) (buffer : Bytes) : MachineM Recorder Resized := do
  let answer ← request.selection.bridge.grow buffer (.ofNat buffer.length) request.wanted request.flags
  return ⟨request, buffer, answer⟩

/-- Carries out the requests in turn, each on the buffer that the one before it left. -/
def performAll : List Resize → Bytes → MachineM Recorder (List Resized)
  | [], _ => return []
  | request :: requests, buffer => do
    let resized ← request.perform buffer
    let rest ← performAll requests (inHand resized.answer)
    return resized :: rest

/-- `new` serves the request in the place of `old`. -/
structure Serves (request : Resize) (old new : Bytes) : Prop where
  length : request.wanted.toNat ≤ new.length
  kept : new.take (min old.length request.wanted.toNat) = old.take (min old.length request.wanted.toNat)
  bounded : new.length ≤ max old.length request.wanted.toNat
  exact : old.length < request.wanted.toNat → new.length = request.wanted.toNat
  zeroed : old.length < request.wanted.toNat → request.flags.has Allocation.zeroed →
    ∀ i, old.length ≤ i → i < new.length → new[i]? = some 0

/-- A request that can be served is. Another gives back the buffer for which it was made. -/
inductive Settles (request : Resize) (old : Bytes) : Except Bytes Bytes → Prop where
  | served {new : Bytes} (granted : Memory.Granted request.wanted.toNat) (serves : request.Serves old new) :
      Settles request old (.ok new)
  | refused (large : ¬ Memory.Granted request.wanted.toNat) : Settles request old (.error old)

section Serving

variable {request : Resize} {buffer : Bytes}

theorem granted_toNat (held : Memory.Granted buffer.length) :
    (UInt64.ofNat buffer.length).toNat = buffer.length :=
  UInt64.toNat_ofNat_of_lt' (Nat.lt_trans held (by decide))

/-- Fresh bytes at the end of a whole buffer. -/
theorem serves_extended (fresh : UInt8) (grows : buffer.length < request.wanted.toNat)
    (zero : request.flags.has Allocation.zeroed → fresh = 0) :
    request.Serves buffer
      (buffer ++ List.replicate (request.wanted.toNat - buffer.length) fresh) := by
  have length : (buffer ++ List.replicate (request.wanted.toNat - buffer.length) fresh).length =
      request.wanted.toNat := by
    rw [List.length_append, List.length_replicate]
    omega
  refine ⟨Nat.le_of_eq length.symm, ?_, by omega, fun _ => length, ?_⟩
  · exact List.take_append_of_le_length (Nat.min_le_left _ _)
  · intro _ zeroed i behind inside
    rw [length] at inside
    rw [List.getElem?_append_right behind, List.getElem?_replicate_of_lt (by omega), zero zeroed]

/-- A front of the buffer that is long enough. -/
theorem serves_front {count : Nat} (enough : request.wanted.toNat ≤ count) (fits : count ≤ buffer.length) :
    request.Serves buffer (buffer.take count) := by
  have length : (buffer.take count).length = count := List.length_take_of_le fits
  refine ⟨by omega, ?_, by omega, ?_, ?_⟩
  · rw [List.take_take, Nat.min_eq_left (by omega)]
  · intro grows
    omega
  · intro grows
    omega

theorem serves_resize : request.Serves buffer (Recorder.resize buffer request.wanted.toNat) := by
  by_cases enough : request.wanted.toNat ≤ buffer.length
  · have nothing : request.wanted.toNat - buffer.length = 0 := by omega
    rw [Recorder.resize, nothing, List.replicate_zero, List.append_nil]
    exact serves_front (Nat.le_refl _) enough
  · rw [Recorder.resize_extends (by omega)]
    exact serves_extended 0 (by omega) (fun _ => rfl)

end Serving

section Growth

variable {request : Resize} {buffer : Bytes} (log : Log)

/-- The substitute, told that all bytes are live. -/
theorem grow_settles (held : Memory.Granted buffer.length) :
    request.Settles buffer
      ((Memory.grow buffer (.ofNat buffer.length) request.wanted request.flags).run log).1 := by
  have live := granted_toNat held
  by_cases enough : request.wanted ≤ .ofNat buffer.length
  · have fits : request.wanted.toNat ≤ buffer.length := live ▸ UInt64.le_iff_toNat_le.mp enough
    have serves : request.Serves buffer (buffer.take buffer.length) := serves_front fits (Nat.le_refl _)
    rw [List.take_length] at serves
    simp only [Memory.grow, enough, if_true]
    exact .served (Nat.lt_of_le_of_lt fits held) serves
  · have grows : buffer.length < request.wanted.toNat := by
      rw [UInt64.le_iff_toNat_le, live] at enough
      exact Nat.lt_of_not_le enough
    by_cases granted : Memory.Granted request.wanted.toNat
    · have zero : request.flags.has Allocation.zeroed → Memory.freshByte request.flags = 0 :=
        fun zeroed => if_pos zeroed
      have serves := serves_extended (Memory.freshByte request.flags) grows zero
      simp only [Memory.grow, enough, granted, live, List.take_length, not_true_eq_false, if_false]
      exact .served granted serves
    · simp only [Memory.grow, enough, granted, not_false_eq_true, if_true, if_false]
      exact .refused granted

theorem perform_settles (m : Machine Recorder) (held : Memory.Granted buffer.length)
    (admissible : request.Admissible) :
    request.Settles buffer ((request.perform buffer).run m).1.answer := by
  cases supplier : request.selection.growth with
  | kernel =>
    have granted : Memory.Granted request.wanted.toNat := by
      rcases admissible with granted | substitute
      · exact granted
      · rw [supplier] at substitute
        contradiction
    have answer : ((request.perform buffer).run m).1.answer =
        .ok (Recorder.resize buffer request.wanted.toNat) := by
      simp only [perform, Bridge.grow, supplier]
      rfl
    rw [answer]
    exact .served granted serves_resize
  | substitute =>
    have answer : ((request.perform buffer).run m).1.answer =
        ((Memory.grow buffer (.ofNat buffer.length) request.wanted request.flags).run m.log).1 := by
      simp only [perform, Bridge.grow, supplier]
      rfl
    rw [answer]
    exact grow_settles m.log held

end Growth

section Chain

variable {request : Resize} {old buffer : Bytes} {answer : Except Bytes Bytes}

/-- A buffer that the allocator has served is followed by one that it has served. -/
theorem Settles.held (settles : request.Settles old answer) (held : Memory.Granted old.length) :
    Memory.Granted (inHand answer).length := by
  cases settles with
  | served granted serves => exact Nat.lt_of_le_of_lt serves.bounded (Nat.max_lt.mpr ⟨held, granted⟩)
  | refused large => exact held

theorem Settles.getElem? (settles : request.Settles old answer) {i : Nat} (inside : i < old.length)
    (asked : i < request.wanted.toNat) : (inHand answer)[i]? = old[i]? := by
  cases settles with
  | @served new granted serves =>
    have below : i < min old.length request.wanted.toNat := Nat.lt_min.mpr ⟨inside, asked⟩
    rw [inHand, ← List.getElem?_take_of_lt below, serves.kept, List.getElem?_take_of_lt below]
  | refused large => rfl

/-- A byte that a request leaves room for is still within the buffer. -/
theorem Settles.inside (settles : request.Settles old answer) {i : Nat} (inside : i < old.length)
    (asked : i < request.wanted.toNat) : i < (inHand answer).length := by
  have kept := settles.getElem? inside asked
  rw [List.getElem?_eq_getElem inside] at kept
  exact (List.getElem?_eq_some_iff.mp kept).1

theorem performAll_cons (request : Resize) (requests : List Resize) (m : Machine Recorder) :
    let resized := (request.perform buffer).run m
    ((performAll (request :: requests) buffer).run m).1 =
      resized.1 :: ((performAll requests (inHand resized.1.answer)).run resized.2).1 := rfl

end Chain

/-- A chain of requests, each made of the host or of the substitute, for a buffer that the allocator has
served. Each is answered as it should be, by the buffer that it was made for or by one in its place. Behind
any of them the buffer has, as they were at first, all the bytes that every request so far has asked for. -/
theorem performAll_keeps {buffer : Bytes} (held : Memory.Granted buffer.length) {requests : List Resize}
    (admissible : ∀ request ∈ requests, request.Admissible) (m : Machine Recorder) :
    let chain := ((performAll requests buffer).run m).1
    chain.map (·.request) = requests ∧
    (∀ resized ∈ chain, resized.request.Settles resized.before resized.answer) ∧
    (∀ earlier resized later, chain = earlier ++ resized :: later →
      ∀ i < buffer.length, (∀ past ∈ earlier ++ [resized], i < past.request.wanted.toNat) →
        (inHand resized.answer)[i]? = buffer[i]?) := by
  induction requests generalizing buffer m with
  | nil => exact ⟨rfl, by simp [performAll], by simp [performAll]⟩
  | cons request requests ih =>
    obtain ⟨first, others⟩ := List.forall_mem_cons.mp admissible
    have settles := perform_settles m held first
    obtain ⟨asked, settled, kept⟩ := ih (settles.held held) others ((request.perform buffer).run m).2
    rw [performAll_cons]
    refine ⟨congrArg (request :: ·) asked, List.forall_mem_cons.mpr ⟨settles, settled⟩, ?_⟩
    intro earlier resized later split i inside room
    cases earlier with
    | nil =>
      obtain ⟨rfl, -⟩ := List.cons.inj split
      exact settles.getElem? inside (room _ List.mem_cons_self)
    | cons past earlier =>
      obtain ⟨rfl, rest⟩ := List.cons.inj split
      have asked : i < request.wanted.toNat := room _ List.mem_cons_self
      have reached := kept earlier resized later rest i (settles.inside inside asked)
        (fun past member => room past (List.mem_cons_of_mem _ member))
      exact reached.trans (settles.getElem? inside asked)

/-- The substitute refuses what is too much and shrinks nothing, the host does shrink, and the substitute
grows what the host has left. The first two bytes outlast all of it. -/
theorem performAll_keeps_mixed :
    let old := Selection.of (.make 4 9 0) .empty
    let recent := Selection.of (.make 6 12 0) .empty
    let requests : List Resize :=
      [⟨old, 0x4000000000000, .empty⟩, ⟨old, 2, .empty⟩, ⟨recent, 3, .empty⟩, ⟨old, 5, ⟨Allocation.zeroed⟩⟩]
    let buffer : Bytes := [1, 2, 3, 4]
    let chain := ((performAll requests buffer).run { kernel := {} }).1
    Memory.Granted buffer.length ∧ (∀ request ∈ requests, request.Admissible) ∧
    (∀ resized ∈ chain, resized.request.Settles resized.before resized.answer) ∧
    chain.map (·.answer) = [.error [1, 2, 3, 4], .ok [1, 2, 3, 4], .ok [1, 2, 3], .ok [1, 2, 3, 0, 0]] ∧
    ∀ resized ∈ chain.getLast?, ∀ i < 2, (inHand resized.answer)[i]? = buffer[i]? := by
  intro old recent requests buffer chain
  have held : Memory.Granted buffer.length := by decide
  have admissible : ∀ request ∈ requests, request.Admissible := by decide
  obtain ⟨asked, settled, kept⟩ := performAll_keeps held admissible { kernel := {} }
  have answers : chain.map (·.answer) =
      [.error [1, 2, 3, 4], .ok [1, 2, 3, 4], .ok [1, 2, 3], .ok [1, 2, 3, 0, 0]] := by
    subst chain requests buffer old recent
    rfl
  refine ⟨held, admissible, settled, answers, ?_⟩
  intro resized last i inside
  obtain ⟨earlier, split⟩ := List.getLast?_eq_some_iff.mp last
  refine kept earlier resized [] split i (Nat.lt_trans inside (by decide)) ?_
  intro past member
  have room : ∀ request ∈ chain.map (·.request), 2 ≤ request.wanted.toNat := by
    rw [asked]
    decide
  exact Nat.lt_of_lt_of_le inside (room _ (List.mem_map_of_mem (split ▸ member)))

end Resize
end KernelAbi
