import KernelAbi.Proofs.Recording
import KernelAbi.Selection.Resolve
import Mathlib.Logic.Function.Basic

/-! The locks of inodes over whole runs. A caller takes locks and gives guards back, each time under a
selection of its own. An inode is locked exactly as long as a guard of it is in the caller's hands, whoever
took the lock and whoever releases it, and no use of one inode's lock touches another's. The table of lock
states agrees with the inodes' own locks, of either kind. -/
namespace KernelAbi

/-- A use of the lock of an inode. -/
inductive LockUse where
  | lock (s : Selection) (inode : Inode)
  | unlock (s : Selection) (guard : Guard)

/-- What carries out the uses of locks. A lock that is not to be had gives no guard. -/
structure Locking (σ : Type) where
  lock : Selection → Inode → σ → Option Guard × σ
  unlock : Selection → Guard → σ → σ

namespace LockUse

variable {σ : Type}

def inode : LockUse → Inode
  | .lock _ inode => inode
  | .unlock _ guard => guard.inode

/-- The guards in the caller's hands after the use. It can give back only what it has. -/
def act (locking : Locking σ) : LockUse → List Guard × σ → List Guard × σ
  | .lock s inode, (guards, state) =>
    let (guard, state) := locking.lock s inode state
    (guard.toList ++ guards, state)
  | .unlock s guard, (guards, state) =>
    if guard ∈ guards then (guards.erase guard, locking.unlock s guard state) else (guards, state)

def run (locking : Locking σ) : List LockUse → List Guard × σ → List Guard × σ
  | [], hands => hands
  | use :: uses, hands => run locking uses (use.act locking hands)

end LockUse

/-- The bridge to a recording host. -/
def Locking.bridged : Locking (Machine Recorder) where
  lock s inode m := ((s.bridge.lockInode inode).run m).map Except.toOption id
  unlock s guard m := ((s.bridge.unlockInode guard).run m).2

/-- The lock in an inode, as its kind keeps it. -/
inductive InodeLock where
  | mutex (locked : Bool)
  | shared (writers readers : Nat)

namespace InodeLock

def unlocked : LockKind → InodeLock
  | .mutex => .mutex false
  | .shared => .shared 0 0

/-- A shared lock is taken for writing. -/
def take : InodeLock → InodeLock
  | .mutex _ => .mutex true
  | .shared _ readers => .shared 1 readers

/-- What becomes of the lock when its guard is dropped. -/
def drop : InodeLock → InodeLock
  | .mutex _ => .mutex false
  | .shared _ readers => .shared 0 readers

def isLocked : InodeLock → Bool
  | .mutex locked => locked
  | .shared writers _ => decide (0 < writers)

variable (kind : LockKind)

@[simp] theorem unlocked_isLocked : (unlocked kind).isLocked = false := by cases kind <;> rfl

@[simp] theorem take_isLocked : (unlocked kind).take.isLocked = true := by cases kind <;> rfl

@[simp] theorem drop_take : (unlocked kind).take.drop = unlocked kind := by cases kind <;> rfl

end InodeLock

/-- The inodes' own locks, by the identity of the inode. -/
def Locking.own : Locking (Nat → InodeLock) where
  lock _ inode locks :=
    if (locks inode.id).isLocked then (none, locks)
    else (some ⟨inode⟩, Function.update locks inode.id (locks inode.id).take)
  unlock _ guard locks := Function.update locks guard.inode.id (locks guard.inode.id).drop

namespace LockTable

/-- Every lock is held or free, and it is held exactly if a guard of its inode is out. No two guards that are
out are of one inode. -/
structure Exact (locks : LockTable) (guards : List Guard) : Prop where
  state : ∀ id, locks id = if id ∈ guards.map (·.inode.id) then .held else .free
  single : (guards.map (·.inode.id)).Nodup

/-- The table reads as the inodes' own locks. -/
def Reads (locks : LockTable) (kinds : Nat → LockKind) (own : Nat → InodeLock) : Prop :=
  ∀ id, own id = if locks id = .held then (InodeLock.unlocked (kinds id)).take
    else InodeLock.unlocked (kinds id)

variable {locks : LockTable} {guards : List Guard}

section Exact

theorem allFree_exact : allFree.Exact [] where
  state := fun _ => rfl
  single := List.nodup_nil

theorem Exact.isLocked_iff (exact : locks.Exact guards) (inode : Inode) :
    locks.isLocked inode ↔ ∃ guard ∈ guards, guard.inode.id = inode.id := by
  rw [isLocked, decide_eq_true_eq, exact.state, ← List.mem_map]
  split <;> simp [*]

theorem Exact.isFree_eq (exact : locks.Exact guards) (inode : Inode) :
    locks.isFree inode = !locks.isLocked inode := by
  rw [isFree, isLocked, exact.state]
  split <;> rfl

theorem Exact.perm (exact : locks.Exact guards) {others : List Guard} (same : guards.Perm others) :
    locks.Exact others where
  state := by
    intro id
    rw [exact.state]
    simp only [(same.map _).mem_iff]
  single := (same.map _).nodup exact.single

theorem Exact.acquire (exact : locks.Exact guards) {inode : Inode}
    (unlocked : locks.isLocked inode = false) : (locks.set inode .held).Exact (⟨inode⟩ :: guards) where
  state := by
    intro id
    by_cases same : id = inode.id
    · simp [set, same]
    · simp [set, same, exact.state]
  single := by
    have fresh : inode.id ∉ guards.map (·.inode.id) := by
      intro member
      rw [isLocked, exact.state, if_pos member] at unlocked
      contradiction
    exact List.nodup_cons.mpr ⟨fresh, exact.single⟩

theorem Exact.release {guard : Guard} (exact : locks.Exact (guard :: guards)) :
    (locks.release guard).Exact guards := by
  obtain ⟨apart, single⟩ := List.nodup_cons.mp exact.single
  refine ⟨fun id => ?_, single⟩
  by_cases same : id = guard.inode.id
  · subst same
    simp [LockTable.release, set, apart]
  · simp [LockTable.release, set, same, exact.state]

end Exact

section Reads

variable {kinds : Nat → LockKind} {own : Nat → InodeLock}

theorem allFree_reads (kinds : Nat → LockKind) :
    allFree.Reads kinds (fun id => InodeLock.unlocked (kinds id)) := fun _ => rfl

theorem Reads.isLocked (reads : locks.Reads kinds own) (inode : Inode) :
    (own inode.id).isLocked = locks.isLocked inode := by
  rw [reads, LockTable.isLocked]
  split <;> simp [*]

theorem Reads.acquire (reads : locks.Reads kinds own) {inode : Inode}
    (unlocked : locks.isLocked inode = false) :
    (locks.set inode .held).Reads kinds (Function.update own inode.id (own inode.id).take) := by
  intro id
  have before : own inode.id = InodeLock.unlocked (kinds inode.id) :=
    (reads inode.id).trans (if_neg (of_decide_eq_false unlocked))
  by_cases same : id = inode.id
  · subst same
    simp [set, before]
  · simp [set, same, reads id]

theorem Reads.release (reads : locks.Reads kinds own) {guard : Guard}
    (locked : locks.isLocked guard.inode = true) :
    (locks.release guard).Reads kinds
      (Function.update own guard.inode.id (own guard.inode.id).drop) := by
  intro id
  have before : own guard.inode.id = (InodeLock.unlocked (kinds guard.inode.id)).take :=
    (reads guard.inode.id).trans (if_pos (of_decide_eq_true locked))
  by_cases same : id = guard.inode.id
  · subst same
    simp [LockTable.release, set, before]
  · simp [LockTable.release, set, same, reads id]

end Reads

end LockTable

namespace LockUse

open LockTable

variable {guards : List Guard} {m : Machine Recorder}

section Acting

variable (s : Selection)

theorem act_lock (exact : m.locks.Exact guards) {inode : Inode} (unlocked : m.locks.isLocked inode = false) :
    (lock s inode).act .bridged (guards, m) =
      (⟨inode⟩ :: guards,
        { m with locks := m.locks.set inode .held }.recording (s.inodeLock.calls .lockInode)) := by
  have free : m.locks.isFree inode = true := by rw [exact.isFree_eq, unlocked]; rfl
  simp only [act, Locking.bridged, Recording.lockInode_free s m inode free]
  rfl

theorem act_lock_refused {inode : Inode} (held : m.locks.isFree inode = false) :
    (lock s inode).act .bridged (guards, m) = (guards, m) := by
  simp only [act, Locking.bridged, Recording.lockInode_held s m inode held]
  rfl

theorem act_own_lock (own : Nat → InodeLock) (inode : Inode) :
    (lock s inode).act .own (guards, own) =
      if (own inode.id).isLocked then (guards, own)
      else (⟨inode⟩ :: guards, Function.update own inode.id (own inode.id).take) := by
  simp only [act, Locking.own]
  split <;> rfl

variable {σ : Type} (locking : Locking σ) (state : σ)

theorem act_unlock {guard : Guard} (mine : guard ∈ guards) :
    (unlock s guard).act locking (guards, state) = (guards.erase guard, locking.unlock s guard state) :=
  if_pos mine

theorem act_unlock_foreign {guard : Guard} (foreign : guard ∉ guards) :
    (unlock s guard).act locking (guards, state) = (guards, state) :=
  if_neg foreign

end Acting

/-- What one use does to the hands and the table together. -/
theorem act_exact (exact : m.locks.Exact guards) (use : LockUse) :
    (use.act .bridged (guards, m)).2.locks.Exact (use.act .bridged (guards, m)).1 := by
  cases use with
  | lock s inode =>
    cases locked : m.locks.isLocked inode with
    | true =>
      have held : m.locks.isFree inode = false := by rw [exact.isFree_eq, locked]; rfl
      rw [act_lock_refused s held]
      exact exact
    | false =>
      rw [act_lock s exact locked]
      exact exact.acquire locked
  | unlock s guard =>
    by_cases mine : guard ∈ guards
    · rw [act_unlock s .bridged m mine]
      exact (exact.perm (List.perm_cons_erase mine)).release
    · rw [act_unlock_foreign s .bridged m mine]
      exact exact

/-- The bridge and the inodes' own locks leave the same guards in hand. -/
theorem act_reads {kinds : Nat → LockKind} {own : Nat → InodeLock} (exact : m.locks.Exact guards)
    (reads : m.locks.Reads kinds own) (use : LockUse) :
    (use.act .own (guards, own)).1 = (use.act .bridged (guards, m)).1 ∧
    (use.act .bridged (guards, m)).2.locks.Reads kinds (use.act .own (guards, own)).2 := by
  cases use with
  | lock s inode =>
    rw [act_own_lock, reads.isLocked]
    cases locked : m.locks.isLocked inode with
    | true =>
      have held : m.locks.isFree inode = false := by rw [exact.isFree_eq, locked]; rfl
      rw [act_lock_refused s held]
      exact ⟨rfl, reads⟩
    | false =>
      rw [act_lock s exact locked]
      exact ⟨rfl, reads.acquire locked⟩
  | unlock s guard =>
    by_cases mine : guard ∈ guards
    · have locked : m.locks.isLocked guard.inode = true :=
        (exact.isLocked_iff guard.inode).mpr ⟨guard, mine, rfl⟩
      rw [act_unlock s .bridged m mine, act_unlock s .own own mine]
      exact ⟨rfl, reads.release locked⟩
    · rw [act_unlock_foreign s .bridged m mine, act_unlock_foreign s .own own mine]
      exact ⟨rfl, reads⟩

/-- A use of one inode's lock leaves the others as they are, whatever state the locks are in. -/
theorem act_frame (use : LockUse) {other : Inode} (apart : other.id ≠ use.inode.id) :
    (use.act .bridged (guards, m)).2.locks.isLocked other = m.locks.isLocked other := by
  have unset (state : LockState) :
      (m.locks.set use.inode state).isLocked other = m.locks.isLocked other := by
    simp only [isLocked, LockTable.set, if_neg apart]
  cases use with
  | lock s inode =>
    cases free : m.locks.isFree inode with
    | true =>
      simp only [act, Locking.bridged, Recording.lockInode_free s m inode free]
      exact unset .held
    | false => rw [act_lock_refused s free]
  | unlock s guard =>
    by_cases mine : guard ∈ guards
    · rw [act_unlock s .bridged m mine]
      exact unset .free
    · rw [act_unlock_foreign s .bridged m mine]

theorem run_exact (uses : List LockUse) (exact : m.locks.Exact guards) :
    (run .bridged uses (guards, m)).2.locks.Exact (run .bridged uses (guards, m)).1 := by
  induction uses generalizing guards m with
  | nil => exact exact
  | cons use uses ih => exact ih (act_exact exact use)

theorem run_reads (uses : List LockUse) {kinds : Nat → LockKind} {own : Nat → InodeLock}
    (exact : m.locks.Exact guards) (reads : m.locks.Reads kinds own) :
    (run .own uses (guards, own)).1 = (run .bridged uses (guards, m)).1 ∧
    (run .bridged uses (guards, m)).2.locks.Reads kinds (run .own uses (guards, own)).2 := by
  induction uses generalizing guards m own with
  | nil => exact ⟨rfl, reads⟩
  | cons use uses ih =>
    obtain ⟨same, next⟩ := act_reads exact reads use
    have hands : use.act .own (guards, own) =
        ((use.act .bridged (guards, m)).1, (use.act .own (guards, own)).2) := Prod.ext same rfl
    simp only [run]
    rw [hands]
    exact ih (act_exact exact use) next

/-- A caller that starts with all locks free, at any point of any run. An inode is locked exactly if a guard
of it is in the caller's hands, and the inodes' own locks, of either kind, say so too. A lock that is asked
for is had if the inode is not locked, and a guard releases its lock, under any selection; neither touches
another inode. -/
theorem run_locks_exact (uses : List LockUse) {m : Machine Recorder} (start : m.locks = .allFree) :
    let hands := run .bridged uses ([], m)
    let locks := hands.2.locks
    (∀ inode, locks.isLocked inode ↔ ∃ guard ∈ hands.1, guard.inode.id = inode.id) ∧
    (∀ (kinds : Nat → LockKind) (inode : Inode),
      let own := run .own uses ([], fun id => InodeLock.unlocked (kinds id))
      own.1 = hands.1 ∧ (own.2 inode.id).isLocked = locks.isLocked inode) ∧
    (∀ (s : Selection) (inode : Inode), locks.isLocked inode = false →
      let after := (lock s inode).act .bridged hands
      after.1 = ⟨inode⟩ :: hands.1 ∧ after.2.locks.isLocked inode) ∧
    (∀ (s : Selection), ∀ guard ∈ hands.1,
      let after := (unlock s guard).act .bridged hands
      after.1 = hands.1.erase guard ∧ after.2.locks.isLocked guard.inode = false) ∧
    ∀ (use : LockUse) (other : Inode), other.id ≠ use.inode.id →
      (use.act .bridged hands).2.locks.isLocked other = locks.isLocked other := by
  intro hands locks
  have first : m.locks.Exact [] := start ▸ allFree_exact
  have exact : locks.Exact hands.1 := run_exact uses first
  refine ⟨exact.isLocked_iff, fun kinds inode => ?_, fun s inode unlocked => ?_, fun s guard mine => ?_,
    fun use other apart => act_frame use apart⟩
  · have reads : m.locks.Reads kinds (fun id => InodeLock.unlocked (kinds id)) :=
      start ▸ allFree_reads kinds
    obtain ⟨same, last⟩ := run_reads uses first reads
    exact ⟨same, last.isLocked inode⟩
  · rw [act_lock s exact unlocked]
    exact ⟨rfl, by simp [Machine.recording, isLocked, LockTable.set]⟩
  · rw [act_unlock s .bridged hands.2 mine]
    exact ⟨rfl, by simp [Locking.bridged, Recording.unlockInode_run, isLocked, LockTable.release, LockTable.set]⟩

/-- Two inodes of one number and two kinds. The first is locked through the substitute and released under
a kernel with a helper of its own, while the lock of the second stays taken. -/
theorem run_locks_exact_handover :
    let old := Selection.of (.make 4 4 0) .empty
    let recent := Selection.of (.make 5 10 0) (Flags.empty.insert Vendor.inodeLockHelpers)
    let first : Inode := ⟨0, 7, none, .mutex⟩
    let second : Inode := ⟨1, 7, none, .shared⟩
    let m : Machine Recorder := { kernel := {} }
    let uses : List LockUse := [.lock old first, .lock recent second, .unlock recent ⟨first⟩]
    let hands := run .bridged uses ([], m)
    old.inodeLock = .substitute ∧ recent.inodeLock = .kernel ∧ m.locks = .allFree ∧
    hands.1 = [⟨second⟩] ∧ hands.2.locks.isLocked first = false ∧ hands.2.locks.isLocked second = true := by
  intro old recent first second m uses hands
  have start : m.locks = .allFree := rfl
  have left : hands.1 = [⟨second⟩] := rfl
  obtain ⟨exact, -⟩ := run_locks_exact uses start
  have freed : ¬ hands.2.locks.isLocked first = true := by
    intro locked
    obtain ⟨guard, mine, same⟩ := (exact first).mp locked
    obtain rfl : guard = ⟨second⟩ := List.mem_singleton.mp (left ▸ mine)
    contradiction
  have kept : hands.2.locks.isLocked second = true :=
    (exact second).mpr ⟨⟨second⟩, left ▸ List.mem_singleton_self _, rfl⟩
  exact ⟨rfl, rfl, start, left, Bool.eq_false_iff.mpr freed, kept⟩

end LockUse
end KernelAbi
