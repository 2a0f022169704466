import KernelAbi.Proofs.Operation
import Mathlib.Data.List.Forall2

/-! A client cannot tell under which selection it runs, as long as it keeps to the operations that need
no more of the kernel than any kernel has. Two runs of it agree in every answer and in the machines that
they leave, even if the selections change from one operation to the next. Only the record of calls tells
them apart, and it does so in the form of the calls alone. -/
namespace KernelAbi

/-- The operations that answer alike under all selections. A file opened over an inode is the only kind
whose inode can be found both ways. -/
def Operation.Neutral : Operation → Prop
  | .accessOk .. | .forceSignal _ | .addTaskWork .. | .closeFd _ | .selinuxInode _ | .selinuxCred _
  | .read .. | .write .. | .allocateBitmap .. | .allocateClearBitmap .. | .freeBitmap _
  | .lockInode _ | .unlockInode _ => True
  | .fileInode file => ∃ inode flags, file = .onInode inode flags
  | .initSessionKeyring | .copyString .. | .openFile .. | .grow .. | .sortGroups _ | .register .. => False

/-- Every operation that the client may come to ask for has the property. -/
def Client.All (P : Operation → Prop) : Client → Prop
  | .stop => True
  | .ask op next => P op ∧ ∀ answer, (next answer).All P

namespace Machine

variable (m n : Machine Recorder)

def withRecord (calls : Array Call) : Machine Recorder :=
  { m with kernel := { m.kernel with calls } }

/-- The machines differ in the record of calls at most. -/
def Alike : Prop := ∃ calls, n = m.withRecord calls

theorem alike_refl : m.Alike m := ⟨m.kernel.calls, rfl⟩

end Machine

namespace Call

/-- The call in the most recent of its forms. -/
def newest : Call → Call
  | .accessOkTyped _ size => .accessOk size
  | .forceSignalTo signal _ => .forceSignal signal
  | .addTaskWorkFlag pid notify => .addTaskWork pid (if notify then .resume else .none)
  | .closeFdIn _ fd => .closeFd fd
  | .readAt count position => .readMoving count position
  | .writeAt count position => .writeMoving count position
  | call => call

/-- The module can do without the call. -/
def isHelper : Call → Bool
  | .fileInode | .selinuxInode | .selinuxCred | .allocateBitmap .. | .freeBitmap | .lockInode => true
  | _ => false

/-- The two lists are the same calls in other forms, or the one is a single helper that the module
supplies itself for the other. -/
def SameButForm (calls others : List Call) : Prop :=
  calls.map newest = others.map newest ∨
  ∃ helper : Call, helper.isHelper ∧
    (calls = [helper] ∧ others = [] ∨ calls = [] ∧ others = [helper])

/-- A form that names the current task or its table names the right one. -/
def NamesCurrent (r : Recorder) : Call → Prop
  | .forceSignalTo _ pid => pid = r.current.pid
  | .closeFdIn files _ => files = r.files
  | _ => True

theorem namesCurrent_congr {r next : Recorder} (current : next.current = r.current)
    (files : next.files = r.files) {call : Call} (names : call.NamesCurrent next) :
    call.NamesCurrent r := by
  cases call with
  | forceSignalTo signal pid => exact names.trans (congrArg Task.pid current)
  | closeFdIn table fd => exact names.trans files
  | _ => trivial

end Call

/-- The operation and its answer. -/
def Exchange.reply (exchange : Exchange) : (op : Operation) × op.Answer :=
  ⟨exchange.operation, exchange.answer⟩

/-- One operation, carried out twice with the same answer. -/
def Exchange.SameButForm (exchange other : Exchange) : Prop :=
  exchange.reply = other.reply ∧ Call.SameButForm exchange.calls other.calls

namespace Indifference

open Call

variable (s t : Selection) (m : Machine Recorder)

/-- Two selections name a call in one of the same two forms. -/
theorem form_sameButForm {p q : Prop} [Decidable p] [Decidable q] {call old : Call}
    (same : old.newest = call.newest) :
    SameButForm [if p then call else old] [if q then call else old] := by
  left
  by_cases first : p <;> by_cases second : q <;> simp [first, second, same]

/-- Whoever supplies a helper, it is asked for at most once. -/
theorem helper_sameButForm (supplier other : Supplier) {helper : Call} (isHelper : helper.isHelper) :
    SameButForm (supplier.calls helper) (other.calls helper) := by
  cases supplier <;> cases other
  · exact .inl rfl
  · exact .inr ⟨helper, isHelper, .inl ⟨rfl, rfl⟩⟩
  · exact .inr ⟨helper, isHelper, .inr ⟨rfl, rfl⟩⟩
  · exact .inl rfl

theorem calls_sameButForm {op : Operation} (neutral : op.Neutral) :
    SameButForm (op.calls s m) (op.calls t m) := by
  cases op with
  | accessOk address size => exact form_sameButForm rfl
  | forceSignal signal => exact form_sameButForm rfl
  | addTaskWork task mode => exact form_sameButForm (by cases mode <;> rfl)
  | closeFd fd => exact form_sameButForm rfl
  | read file buffer position => exact form_sameButForm rfl
  | write file bytes position => exact form_sameButForm rfl
  | fileInode file | selinuxInode inode | selinuxCred cred | allocateBitmap bits flags
  | allocateClearBitmap bits flags | freeBitmap bitmap => exact helper_sameButForm _ _ rfl
  | lockInode inode =>
    simp only [Operation.calls]
    split
    · exact helper_sameButForm _ _ rfl
    · exact .inl rfl
  | unlockInode guard => exact .inl rfl
  | initSessionKeyring | copyString | openFile | grow | sortGroups | register =>
    exact neutral.elim

theorem form_namesCurrent {p : Prop} [Decidable p] {r : Recorder} {call old : Call}
    (names : call.NamesCurrent r) (oldNames : old.NamesCurrent r) :
    (if p then call else old).NamesCurrent r := by
  split
  · exact names
  · exact oldNames

theorem calls_namesCurrent {op : Operation} (neutral : op.Neutral) :
    ∀ call ∈ op.calls s m, call.NamesCurrent m.kernel := by
  intro call member
  cases op with
  | accessOk address size | addTaskWork task mode | read file buffer position
  | write file bytes position =>
    rw [List.mem_singleton.mp member]
    exact form_namesCurrent trivial trivial
  | forceSignal signal | closeFd fd =>
    rw [List.mem_singleton.mp member]
    exact form_namesCurrent trivial rfl
  | fileInode file | selinuxInode inode | selinuxCred cred | allocateBitmap bits flags
  | allocateClearBitmap bits flags | freeBitmap bitmap =>
    obtain ⟨rfl, -⟩ := Supplier.mem_calls member
    trivial
  | lockInode inode =>
    simp only [Operation.calls] at member
    split at member
    · obtain ⟨rfl, -⟩ := Supplier.mem_calls member
      trivial
    · contradiction
  | unlockInode guard => contradiction
  | initSessionKeyring | copyString | openFile | grow | sortGroups | register => exact neutral.elim

theorem write_files (r : Recorder) (position : Int64) (bytes : Bytes) :
    (r.write position bytes).2.current = r.current ∧ (r.write position bytes).2.files = r.files := by
  unfold Recorder.write
  split <;> exact ⟨rfl, rfl⟩

/-- What a neutral operation does follows from the machine alone, less its record. The selection decides
only which calls join the record. -/
theorem perform_neutral {op : Operation} (neutral : op.Neutral) :
    ∃ (answer : op.Answer) (after : Machine Recorder),
      after.kernel.current = m.kernel.current ∧ after.kernel.files = m.kernel.files ∧
      ∀ s calls, (op.perform s).run (m.withRecord calls) =
        (answer, (after.withRecord calls).recording (op.calls s m)) := by
  cases op with
  | accessOk address size =>
    exact ⟨Recorder.inUserRange address size, m, rfl, rfl,
      fun s calls => Recording.accessOk_run s (m.withRecord calls) address size⟩
  | forceSignal signal =>
    exact ⟨(), m, rfl, rfl, fun s calls => Recording.forceSignal_run s (m.withRecord calls) signal⟩
  | addTaskWork task mode =>
    exact ⟨.ok (), m, rfl, rfl,
      fun s calls => Recording.addTaskWork_run s (m.withRecord calls) task mode⟩
  | closeFd fd =>
    exact ⟨Recorder.outcome m.kernel.closeError, m, rfl, rfl,
      fun s calls => Recording.closeFd_run s (m.withRecord calls) fd⟩
  | fileInode file =>
    obtain ⟨inode, flags, rfl⟩ := neutral
    exact ⟨some inode, m, rfl, rfl,
      fun s calls => Recording.fileInode_run s (m.withRecord calls) inode flags⟩
  | selinuxInode inode =>
    exact ⟨inode.security, m, rfl, rfl,
      fun s calls => Recording.selinuxInode_run s (m.withRecord calls) inode⟩
  | selinuxCred cred =>
    exact ⟨cred.security, m, rfl, rfl,
      fun s calls => Recording.selinuxCred_run s (m.withRecord calls) cred⟩
  | read file buffer position =>
    let filled := m.kernel.read position buffer
    exact ⟨⟨filled, Recorder.advance position filled.result⟩, m, rfl, rfl,
      fun s calls => Recording.read_run s (m.withRecord calls) file buffer position⟩
  | write file bytes position =>
    let written := m.kernel.write position bytes
    obtain ⟨current, files⟩ := write_files m.kernel position bytes
    refine ⟨⟨written.1, Recorder.advance position written.1⟩, { m with kernel := written.2 },
      current, files, fun s calls => ?_⟩
    have same : (m.withRecord calls).kernel.write position bytes =
        (written.1, { written.2 with calls }) := m.kernel.write_withCalls calls position bytes
    refine (Recording.write_run s (m.withRecord calls) file bytes position).trans ?_
    rw [same]
    rfl
  | allocateBitmap bits flags =>
    let allocated := (Bitmap.allocate bits flags).run m.log
    exact ⟨allocated.1, { m with log := allocated.2 }, rfl, rfl,
      fun s calls => Recording.allocateBitmap_run s (m.withRecord calls) bits flags⟩
  | allocateClearBitmap bits flags =>
    let cleared := flags.insert Allocation.zeroed
    let allocated := (Bitmap.allocate bits cleared).run m.log
    exact ⟨allocated.1, { m with log := allocated.2 }, rfl, rfl,
      fun s calls => Recording.allocateBitmap_run s (m.withRecord calls) bits cleared⟩
  | freeBitmap bitmap =>
    exact ⟨(), m, rfl, rfl, fun s calls => Recording.freeBitmap_run s (m.withRecord calls) bitmap⟩
  | lockInode inode =>
    cases free : m.locks.isFree inode with
    | false =>
      refine ⟨.error .wouldBlock, m, rfl, rfl, fun s calls => ?_⟩
      simp only [Operation.calls, free]
      exact Recording.lockInode_held s (m.withRecord calls) inode free
    | true =>
      refine ⟨.ok ⟨inode⟩, { m with locks := m.locks.set inode .held }, rfl, rfl, fun s calls => ?_⟩
      simp only [Operation.calls, free]
      exact Recording.lockInode_free s (m.withRecord calls) inode free
  | unlockInode guard =>
    exact ⟨(), { m with locks := m.locks.release guard }, rfl, rfl,
      fun s calls => Recording.unlockInode_run s (m.withRecord calls) guard⟩
  | initSessionKeyring | copyString | openFile | grow | sortGroups | register => exact neutral.elim

theorem calls_alike (op : Operation) {n : Machine Recorder} (alike : m.Alike n) :
    op.calls s n = op.calls s m := by
  obtain ⟨calls, rfl⟩ := alike
  cases op <;> rfl

theorem perform_alike {op : Operation} (neutral : op.Neutral) {n : Machine Recorder}
    (alike : m.Alike n) :
    ((op.perform s).run m).1 = ((op.perform t).run n).1 ∧
    ((op.perform s).run m).2.Alike ((op.perform t).run n).2 := by
  obtain ⟨calls, rfl⟩ := alike
  obtain ⟨answer, after, -, -, run⟩ := perform_neutral m neutral
  have first : (op.perform s).run m =
      (answer, (after.withRecord m.kernel.calls).recording (op.calls s m)) := run s m.kernel.calls
  rw [first, run t calls]
  exact ⟨rfl, _, rfl⟩

theorem perform_files {op : Operation} (neutral : op.Neutral) :
    ((op.perform s).run m).2.kernel.current = m.kernel.current ∧
    ((op.perform s).run m).2.kernel.files = m.kernel.files := by
  obtain ⟨answer, after, current, files, run⟩ := perform_neutral m neutral
  have run : (op.perform s).run m =
      (answer, (after.withRecord m.kernel.calls).recording (op.calls s m)) := run s m.kernel.calls
  rw [run]
  exact ⟨current, files⟩

/-- Two runs of one client go on alike, operation by operation. -/
theorem run_alike (client : Client) (neutral : client.All Operation.Neutral)
    (selections others : Nat → Selection) {m n : Machine Recorder} (alike : m.Alike n) :
    List.Forall₂ Exchange.SameButForm (client.run selections m).1 (client.run others n).1 ∧
    (client.run selections m).2.Alike (client.run others n).2 := by
  induction client generalizing selections others m n with
  | stop => exact ⟨.nil, alike⟩
  | ask op next ih =>
    obtain ⟨admitted, rest⟩ := neutral
    obtain ⟨answer, after⟩ := perform_alike (selections 0) (others 0) m admitted alike
    obtain ⟨exchanges, last⟩ := ih _ (rest _) (fun i => selections (i + 1)) (fun i => others (i + 1)) after
    have form : SameButForm (op.calls (selections 0) m) (op.calls (others 0) n) := by
      rw [calls_alike (others 0) m op alike]
      exact calls_sameButForm (selections 0) (others 0) m admitted
    rw [Client.run_ask, Client.run_ask, ← answer]
    exact ⟨.cons ⟨rfl, form⟩ exchanges, last⟩

theorem run_namesCurrent (client : Client) (neutral : client.All Operation.Neutral)
    (selections : Nat → Selection) (m : Machine Recorder) :
    ∀ exchange ∈ (client.run selections m).1, ∀ call ∈ exchange.calls, call.NamesCurrent m.kernel := by
  induction client generalizing selections m with
  | stop =>
    intro exchange member
    contradiction
  | ask op next ih =>
    obtain ⟨admitted, rest⟩ := neutral
    obtain ⟨current, files⟩ := perform_files (selections 0) m admitted
    intro exchange member call made
    rw [Client.run_ask] at member
    rcases List.mem_cons.mp member with rfl | member
    · exact calls_namesCurrent (selections 0) m admitted call made
    · exact namesCurrent_congr current files (ih _ (rest _) _ _ exchange member call made)

/-- The selections under which a client runs are hidden from it: it gets the same answers, and leaves
the same machine but for the record. The two records hold the same calls in other forms, and a form that
names a task or a table names that of the current task. -/
theorem run_indifferent (client : Client) (neutral : client.All Operation.Neutral)
    (selections others : Nat → Selection) (m : Machine Recorder) :
    let run := client.run selections m
    let other := client.run others m
    List.Forall₂ Exchange.SameButForm run.1 other.1 ∧ run.2.Alike other.2 ∧
    ∀ exchange ∈ run.1 ++ other.1, ∀ call ∈ exchange.calls, call.NamesCurrent m.kernel := by
  intro run other
  obtain ⟨exchanges, last⟩ := run_alike client neutral selections others m.alike_refl
  refine ⟨exchanges, last, ?_⟩
  intro exchange member
  rcases List.mem_append.mp member with member | member
  · exact run_namesCurrent client neutral selections m exchange member
  · exact run_namesCurrent client neutral others m exchange member

/-- A text written by one kernel's form and read by another's, where the write left its position. -/
theorem run_indifferent_transfer :
    let recent := Selection.of (.make 6 12 0) .empty
    let old := Selection.of (.make 4 9 0) .empty
    let file := File.onInode ⟨0, 0, none, .shared⟩ 0
    let buffer : Buffer 4 := ⟨[9, 9, 9, 9], rfl⟩
    let client : Client :=
      .ask (.write file [1, 2, 3] 2) fun written =>
      .ask (.read file buffer (written.position - 4)) fun _ =>
      .ask (.forceSignal 9) fun _ => .stop
    let m : Machine Recorder := { kernel := {} }
    let run := client.run (fun _ => recent) m
    let other := client.run (fun i => if i = 0 then old else recent) m
    client.All Operation.Neutral ∧ List.Forall₂ Exchange.SameButForm run.1 other.1 ∧
    run.2.kernel.fileData = [0, 0, 1, 2, 3] ∧ other.2.kernel.fileData = [0, 0, 1, 2, 3] := by
  intro recent old file buffer client m run other
  have neutral : client.All Operation.Neutral :=
    ⟨trivial, fun _ => ⟨trivial, fun _ => ⟨trivial, fun _ => trivial⟩⟩⟩
  obtain ⟨exchanges, ⟨calls, last⟩, -⟩ :=
    run_indifferent client neutral (fun _ => recent) (fun i => if i = 0 then old else recent) m
  have written : run.2.kernel.fileData = [0, 0, 1, 2, 3] := by decide +kernel
  refine ⟨neutral, exchanges, written, ?_⟩
  rw [← written]
  exact congrArg (·.kernel.fileData) last

end Indifference
end KernelAbi
