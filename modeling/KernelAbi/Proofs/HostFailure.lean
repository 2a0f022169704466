import KernelAbi.Bridge
import KernelAbi.Host.Interference
import KernelAbi.Host.Recorder
import KernelAbi.Selection.Resolve

/-! Errors on their way through the bridge. An operation that can fail is a dialogue with the host, the
same one over every host. The dialogue ends at the first primitive that fails, and the operation gives
back the error and whatever the primitive left in the caller's memory. It never fails otherwise. -/
namespace KernelAbi

/-- What the module asks of a host, and its answer when it has asked enough. -/
inductive Dialogue (α : Type) : Type 1 where
  | answer (a : α)
  | ask {β : Type} (primitive : Primitive β) (next : β → Dialogue α)
  | print (line : Log.Line) (next : Dialogue α)

def Result.error? {α : Type} : Result α → Option Errno
  | .ok _ => none
  | .error e => some e

namespace Primitive

/-- Why the primitive failed. One that cannot fail never did. -/
def error? {α : Type} : Primitive α → α → Option Errno
  | .addTaskWork .., result => Result.error? result
  | .addTaskWorkFlag .., result => Result.error? result
  | .closeFd _, result => Result.error? result
  | .closeFdIn .., result => Result.error? result
  | .copyStringNofault .., filled => Result.error? filled.result
  | .copyStringUnsafe .., filled => Result.error? filled.result
  | .copyString .., filled => Result.error? filled.result
  | .openFile .., result => Result.error? result
  | .installSessionKeyring _, result => Result.error? result
  | .readMoving .., moved => Result.error? moved.answer.result
  | .readAt .., filled => Result.error? filled.result
  | .writeMoving .., moved => Result.error? moved.answer
  | .writeAt .., result => Result.error? result
  | _, _ => none

/-- What the primitive left in the destination that it was lent. -/
def destination? {α : Type} : Primitive α → α → Option Bytes
  | .copyStringNofault .., filled => filled.buffer.bytes
  | .copyStringUnsafe .., filled => filled.buffer.bytes
  | .copyString .., filled => filled.buffer.bytes
  | .readMoving .., moved => moved.answer.buffer.bytes
  | .readAt .., filled => filled.buffer.bytes
  | _, _ => none

def opensFile {α : Type} : Primitive α → Bool
  | .openFile .. => true
  | _ => false

end Primitive

/-- A primitive that a host was asked for, and its reply. -/
structure Asked where
  {α : Type}
  primitive : Primitive α
  reply : α

namespace Asked

def error? (asked : Asked) : Option Errno := asked.primitive.error? asked.reply

def destination? (asked : Asked) : Option Bytes := asked.primitive.destination? asked.reply

def opensFile (asked : Asked) : Bool := asked.primitive.opensFile

end Asked

namespace Dialogue

variable {α κ : Type}

/-- The dialogue carried out with a host. -/
def interpret (host : Host κ) : Dialogue α → MachineM κ α
  | .answer a => return a
  | .ask primitive next => do (next (← host.call primitive)).interpret host
  | .print line next => do
    Machine.print line
    next.interpret host

/-- All that the host is asked for in the course of a dialogue. -/
def asked (host : Host κ) : Dialogue α → Machine κ → List Asked
  | .answer _, _ => []
  | .ask primitive next, m =>
    let (reply, after) := (host.call primitive).run m
    ⟨primitive, reply⟩ :: (next reply).asked host after
  | .print line next, m => next.asked host { m with log := m.log.print line }

/-- The dialogue ends with the first error, and `passes` says how. If it meets none its answer has none. -/
def Relays (error? : α → Option Errno) (passes : Asked → α → Prop) : Dialogue α → Prop
  | .answer a => error? a = none
  | .ask primitive next => ∀ reply,
    (primitive.error? reply = none → (next reply).Relays error? passes) ∧
    (primitive.error? reply ≠ none → ∃ a, next reply = .answer a ∧
      error? a = primitive.error? reply ∧ passes ⟨primitive, reply⟩ a)
  | .print _ next => next.Relays error? passes

/-- Once it has opened a file the dialogue asks for nothing more. -/
def OpensLast : Dialogue α → Prop
  | .answer _ => True
  | .ask primitive next => ∀ reply,
    (primitive.opensFile → ∃ a, next reply = .answer a) ∧ (next reply).OpensLast
  | .print _ next => next.OpensLast

/-- How a dialogue went that relays errors. -/
inductive Ends (error? : α → Option Errno) (passes : Asked → α → Prop) (a : α) : List Asked → Prop where
  | well {asked : List Asked} (quiet : ∀ call ∈ asked, call.error? = none) (ok : error? a = none) :
      Ends error? passes a asked
  | ill {earlier : List Asked} {last : Asked} {e : Errno} (quiet : ∀ call ∈ earlier, call.error? = none)
      (failed : last.error? = some e) (relayed : error? a = some e) (passed : passes last a) :
      Ends error? passes a (earlier ++ [last])

variable {error? : α → Option Errno} {passes : Asked → α → Prop}

/-- A call that went well leaves it to the rest how the dialogue ends. -/
theorem Ends.cons {a : α} {call : Asked} {calls : List Asked} (went : call.error? = none)
    (ends : Ends error? passes a calls) : Ends error? passes a (call :: calls) := by
  cases ends with
  | well quiet ok => exact .well (List.forall_mem_cons.mpr ⟨went, quiet⟩) ok
  | ill quiet failed relayed passed =>
    exact .ill (List.forall_mem_cons.mpr ⟨went, quiet⟩) failed relayed passed

theorem Relays.ends {d : Dialogue α} (relays : d.Relays error? passes) (host : Host κ) (m : Machine κ) :
    Ends error? passes ((d.interpret host).run m).1 (d.asked host m) := by
  induction d generalizing m with
  | answer a => exact .well (fun _ member => absurd member List.not_mem_nil) relays
  | print line next ih => exact ih relays _
  | ask primitive next ih =>
    let replied := (host.call primitive).run m
    obtain ⟨onward, stop⟩ := relays replied.1
    cases went : primitive.error? replied.1 with
    | none => exact .cons went (ih _ (onward went) replied.2)
    | some e =>
      obtain ⟨a, ended, relayed, passed⟩ := stop (by simp [went])
      have alone : (ask primitive next).asked host m = [] ++ [⟨primitive, replied.1⟩] := by
        have nothing : (next replied.1).asked host replied.2 = [] := by rw [ended]; rfl
        exact congrArg (_ :: ·) nothing
      have last : (((ask primitive next).interpret host).run m).1 = a := by
        have result : (((next replied.1).interpret host).run replied.2).1 = a := by rw [ended]; rfl
        exact result
      rw [alone, last]
      exact .ill (fun _ member => absurd member List.not_mem_nil) went (relayed.trans went) passed

/-- A last question, whose reply is the answer in another shape. -/
theorem relays_ask {β : Type} {primitive : Primitive β} {finish : β → α}
    (same : ∀ reply, error? (finish reply) = primitive.error? reply)
    (passed : ∀ reply, primitive.error? reply ≠ none → passes ⟨primitive, reply⟩ (finish reply)) :
    (ask primitive fun reply => answer (finish reply)).Relays error? passes := by
  intro reply
  constructor
  · intro went
    exact (same reply).trans went
  · intro failed
    exact ⟨finish reply, rfl, same reply, passed reply failed⟩

/-- A question that cannot fail. -/
theorem relays_query {β : Type} {primitive : Primitive β} {next : β → Dialogue α}
    (infallible : ∀ reply, primitive.error? reply = none)
    (rest : ∀ reply, (next reply).Relays error? passes) : (ask primitive next).Relays error? passes := by
  intro reply
  exact ⟨fun _ => rest reply, fun failed => absurd (infallible reply) failed⟩

theorem opensLast_query {β : Type} {primitive : Primitive β} {next : β → Dialogue α}
    (other : primitive.opensFile = false) (rest : ∀ reply, (next reply).OpensLast) :
    (ask primitive next).OpensLast := by
  intro reply
  refine ⟨fun opened => ?_, rest reply⟩
  rw [other] at opened
  contradiction

theorem Ends.error_iff {a : α} {calls : List Asked} (ends : Ends error? passes a calls) (e : Errno) :
    error? a = some e ↔ ∃ call ∈ calls, call.error? = some e := by
  cases ends with
  | well quiet ok =>
    rw [ok]
    constructor
    · intro impossible
      contradiction
    · rintro ⟨call, member, failed⟩
      rw [quiet call member] at failed
      contradiction
  | @ill earlier last other quiet failed relayed passed =>
    constructor
    · intro error
      exact ⟨last, by simp, failed.trans (relayed.symm.trans error)⟩
    · rintro ⟨call, member, error⟩
      rcases List.mem_append.mp member with member | member
      · rw [quiet call member] at error
        contradiction
      · rw [List.mem_singleton.mp member] at error
        exact relayed.trans (failed.symm.trans error)

theorem Ends.last {a : α} {calls : List Asked} (ends : Ends error? passes a calls)
    {earlier later : List Asked} {call : Asked} (shape : calls = earlier ++ call :: later)
    (failed : call.error? ≠ none) : later = [] ∧ passes call a := by
  cases ends with
  | well quiet ok => exact absurd (quiet call (by simp [shape])) failed
  | @ill front last other quiet _ _ passed =>
    rcases List.eq_nil_or_concat later with rfl | ⟨between, final, rfl⟩
    · obtain ⟨-, same⟩ := List.append_inj' shape rfl
      exact ⟨rfl, List.singleton_inj.mp same ▸ passed⟩
    · have shape : front ++ [last] = (earlier ++ call :: between) ++ [final] := by
        simpa using shape
      obtain ⟨front, -⟩ := List.append_inj' shape rfl
      exact absurd (quiet call (by simp [front])) failed

theorem OpensLast.last {d : Dialogue α} (opens : d.OpensLast) (host : Host κ) (m : Machine κ)
    {earlier later : List Asked} {call : Asked} (shape : d.asked host m = earlier ++ call :: later)
    (opened : call.opensFile) : later = [] := by
  induction d generalizing m earlier with
  | answer a => simp [asked] at shape
  | print line next ih => exact ih opens _ shape
  | ask primitive next ih =>
    let replied := (host.call primitive).run m
    obtain ⟨stop, rest⟩ := opens replied.1
    have split : ⟨primitive, replied.1⟩ :: (next replied.1).asked host replied.2 =
      earlier ++ call :: later := shape
    cases earlier with
    | nil =>
      obtain ⟨rfl, rfl⟩ := List.cons_eq_cons.mp split
      obtain ⟨a, ended⟩ := stop opened
      rw [ended]
      rfl
    | cons first earlier =>
      obtain ⟨-, split⟩ := List.cons_eq_cons.mp split
      exact ih _ rest _ split

end Dialogue

/-- The operations that can fail. -/
inductive Attempt where
  | addTaskWork (task : Task) (mode : NotifyMode)
  | closeFd (fd : UInt32)
  | copyString {size : Nat} (buffer : Buffer size) (address : UInt64)
  | openFile (path : String) (flags : Int32) (mode : UInt16)
  | read {size : Nat} (file : File) (buffer : Buffer size) (position : Int64)
  | write (file : File) (bytes : Bytes) (position : Int64)

namespace Attempt

def Answer : Attempt → Type
  | .addTaskWork .. | .closeFd _ => Result Unit
  | @copyString size _ _ => Filled size
  | .openFile .. => Result File
  | @read size _ _ _ => Moved (Filled size)
  | .write .. => Moved (Result Nat)

def perform {κ : Type} (b : Bridge κ) : (attempt : Attempt) → MachineM κ attempt.Answer
  | .addTaskWork task mode => b.addTaskWork task mode
  | .closeFd fd => b.closeFd fd
  | .copyString buffer address => b.copyString buffer address
  | .openFile path flags mode => b.openFile path flags mode
  | .read file buffer position => b.read file buffer position
  | .write file bytes position => b.write file bytes position

def error? : (attempt : Attempt) → attempt.Answer → Option Errno
  | .addTaskWork .., result => Result.error? result
  | .closeFd _, result => Result.error? result
  | .copyString .., filled => Result.error? filled.result
  | .openFile .., result => Result.error? result
  | .read .., moved => Result.error? moved.answer.result
  | .write .., moved => Result.error? moved.answer

def destination? : (attempt : Attempt) → attempt.Answer → Option Bytes
  | .copyString .., filled => filled.buffer.bytes
  | .read .., moved => moved.answer.buffer.bytes
  | .addTaskWork .., _ | .closeFd _, _ | .openFile .., _ | .write .., _ => none

/-- Where a transfer is to start. -/
def start? : Attempt → Option Int64
  | .read _ _ position | .write _ _ position => position
  | _ => none

/-- Where a transfer left the position. -/
def position? : (attempt : Attempt) → attempt.Answer → Option Int64
  | .read .., moved => moved.position
  | .write .., moved => moved.position
  | .addTaskWork .., _ | .closeFd _, _ | .copyString .., _ | .openFile .., _ => none

/-- The answer of an attempt that failed at `last`: the caller's memory is as `last` left it, and a
position that the host was not given to move has not moved. -/
structure FailsWith (s : Selection) (attempt : Attempt) (last : Asked) (answer : attempt.Answer) : Prop where
  error : attempt.error? answer = last.error?
  destination : attempt.destination? answer = last.destination?
  position : s.fileIo = .offset → attempt.position? answer = attempt.start?

/-- Sees to the keyring of a worker before the rest, and leaves the rest out if that fails. -/
def keyringFirst (s : Selection) (rest : Dialogue (Result File)) : Dialogue (Result File) :=
  if s.initKeyring then
    .ask .isWorkqueueWorker fun worker =>
    if worker then
      .ask .sessionKeyring fun held =>
      if held.isSome then rest
      else .ask .initSessionKeyring fun
        | none => rest
        | some key =>
          .print ⟨.info, "(Compat) Instalando init_session_keyring, serial=",
            some key.serial.toInt64.toUInt64⟩
          (.ask (.installSessionKeyring key) fun
            | .error e => .answer (.error e)
            | .ok () => rest)
    else rest
  else rest

def dialogue (s : Selection) : (attempt : Attempt) → Dialogue attempt.Answer
  | .addTaskWork task mode =>
    match s.notify with
    | .mode => .ask (.addTaskWork task mode) .answer
    | .flag => .ask (.addTaskWorkFlag task (mode = .resume)) .answer
  | .closeFd fd =>
    match s.close with
    | .direct => .ask (.closeFd fd) .answer
    | .inTable => .ask .currentFiles fun files => .ask (.closeFdIn files fd) .answer
  | @copyString size buffer address =>
    match s.stringCopy with
    | .nofault => .ask (.copyStringNofault buffer address) .answer
    | .unsafeUser => .ask (.copyStringUnsafe buffer address) .answer
    | .substitute =>
      if size = 0 then .answer ⟨.ok 0, buffer⟩
      else .ask (.copyString buffer address) fun filled => .answer (Bridge.terminate filled)
  | .openFile path flags mode => keyringFirst s (.ask (.openFile path flags mode) .answer)
  | .read file buffer position =>
    match s.fileIo with
    | .moving => .ask (.readMoving file buffer position) .answer
    | .offset => .ask (.readAt file position buffer) fun filled =>
      .answer ⟨filled, Bridge.positionAfter position filled.result⟩
  | .write file bytes position =>
    match s.fileIo with
    | .moving => .ask (.writeMoving file bytes position) .answer
    | .offset => .ask (.writeAt file bytes position) fun result =>
      .answer ⟨result, Bridge.positionAfter position result⟩

section Interpretation

variable {κ : Type} (host : Host κ) (s : Selection) (m : Machine κ)

/-- The rest comes after the bridge's own provision of a keyring. -/
theorem keyringFirst_interpret (rest : Dialogue (Result File)) :
    (keyringFirst s rest).interpret host = (do
      match ← (⟨host, s⟩ : Bridge κ).provideKeyring with
      | .error e => return .error e
      | .ok () => rest.interpret host) := by
  unfold keyringFirst Bridge.provideKeyring
  cases declared : s.initKeyring with
  | false => simp
  | true =>
    simp only [if_true, not_true_eq_false, if_false, Dialogue.interpret, bind_assoc]
    refine bind_congr fun worker => ?_
    cases worker with
    | false => simp
    | true =>
      simp only [if_true, not_true_eq_false, if_false, Dialogue.interpret, bind_assoc]
      refine bind_congr fun held => ?_
      cases held with
      | some key => simp
      | none =>
        simp only [Option.isSome_none, Bool.false_eq_true, if_false, Dialogue.interpret, bind_assoc]
        refine bind_congr fun key => ?_
        cases key with
        | none => simp
        | some key =>
          simp only [Dialogue.interpret, bind_assoc]
          refine bind_congr fun _ => bind_congr fun installed => ?_
          cases installed <;> rfl

/-- The dialogue of an attempt is what the bridge does, over any host. -/
theorem perform_eq_interpret (attempt : Attempt) :
    (attempt.perform ⟨host, s⟩).run m = ((attempt.dialogue s).interpret host).run m := by
  cases attempt with
  | addTaskWork task mode =>
    simp only [perform, Bridge.addTaskWork, dialogue]
    cases s.notify <;> rfl
  | closeFd fd =>
    simp only [perform, Bridge.closeFd, dialogue]
    cases s.close <;> rfl
  | @copyString size buffer address =>
    simp only [perform, Bridge.copyString, Bridge.copyStringSubstitute, dialogue]
    cases s.stringCopy with
    | nofault | unsafeUser => rfl
    | substitute => by_cases empty : size = 0 <;> simp only [empty, if_true, if_false] <;> rfl
  | openFile path flags mode =>
    have opens := keyringFirst_interpret host s (.ask (.openFile path flags mode) .answer)
    exact (congrArg (·.run m) opens).symm
  | read file buffer position =>
    simp only [perform, Bridge.read, dialogue]
    cases s.fileIo <;> rfl
  | write file bytes position =>
    simp only [perform, Bridge.write, dialogue]
    cases s.fileIo <;> rfl

end Interpretation

section Relaying

variable (s : Selection)

/-- A property goes from the rest to the whole if it goes through the installation and through the other
questions, which cannot fail and open nothing. -/
theorem keyringFirst_keeps {P : Dialogue (Result File) → Prop} {rest : Dialogue (Result File)}
    (query : ∀ {β : Type} {primitive : Primitive β} {next : β → Dialogue (Result File)},
      (∀ reply, primitive.error? reply = none) → primitive.opensFile = false → (∀ reply, P (next reply)) →
      P (.ask primitive next))
    (install : ∀ key line, P (.print line (.ask (.installSessionKeyring key) fun
      | .error e => .answer (.error e)
      | .ok () => rest)))
    (last : P rest) : P (keyringFirst s rest) := by
  unfold keyringFirst
  split
  · refine query (fun _ => rfl) rfl fun worker => ?_
    split
    · refine query (fun _ => rfl) rfl fun held => ?_
      split
      · exact last
      · refine query (fun _ => rfl) rfl fun key => ?_
        cases key with
        | none => exact last
        | some key => exact install key _
    · exact last
  · exact last

theorem keyringFirst_relays (path : String) (flags : Int32) (mode : UInt16)
    {rest : Dialogue (Result File)}
    (relays : rest.Relays Result.error? ((openFile path flags mode).FailsWith s)) :
    (keyringFirst s rest).Relays Result.error? ((openFile path flags mode).FailsWith s) := by
  refine keyringFirst_keeps s (fun infallible _ => Dialogue.relays_query infallible) ?_ relays
  intro key line installed
  cases installed with
  | ok => exact ⟨fun _ => relays, fun failed => absurd rfl failed⟩
  | error e => exact ⟨nofun, fun _ => ⟨.error e, rfl, rfl, rfl, rfl, fun _ => rfl⟩⟩

/-- The adjustment of a plain copy neither makes nor loses an error. -/
theorem terminate_error? {size : Nat} (filled : Filled size) :
    Result.error? (Bridge.terminate filled).result = Result.error? filled.result := by
  unfold Bridge.terminate
  cases result : filled.result with
  | error e => rfl
  | ok copied =>
    dsimp only
    split
    · rfl
    · split <;> rfl

/-- A copy that failed is passed on as it is. -/
theorem terminate_failed {size : Nat} {filled : Filled size}
    (failed : Result.error? filled.result ≠ none) : Bridge.terminate filled = filled := by
  unfold Bridge.terminate
  cases filled with
  | mk result buffer =>
    cases result with
    | error e => rfl
    | ok copied => exact absurd rfl failed

/-- A failed transfer leaves the position. -/
theorem positionAfter_failed (position : Int64) {result : Result Nat}
    (failed : Result.error? result ≠ none) : Bridge.positionAfter position result = position := by
  cases result with
  | error e => rfl
  | ok count => exact absurd rfl failed

theorem dialogue_relays (attempt : Attempt) :
    (attempt.dialogue s).Relays attempt.error? (attempt.FailsWith s) := by
  cases attempt with
  | addTaskWork task mode =>
    simp only [dialogue]
    cases s.notify <;> exact Dialogue.relays_ask (fun _ => rfl) fun _ _ => ⟨rfl, rfl, fun _ => rfl⟩
  | closeFd fd =>
    simp only [dialogue]
    cases s.close with
    | direct => exact Dialogue.relays_ask (fun _ => rfl) fun _ _ => ⟨rfl, rfl, fun _ => rfl⟩
    | inTable =>
      exact Dialogue.relays_query (fun _ => rfl) fun files =>
        Dialogue.relays_ask (fun _ => rfl) fun _ _ => ⟨rfl, rfl, fun _ => rfl⟩
  | @copyString size buffer address =>
    simp only [dialogue]
    cases s.stringCopy with
    | nofault | unsafeUser => exact Dialogue.relays_ask (fun _ => rfl) fun _ _ => ⟨rfl, rfl, fun _ => rfl⟩
    | substitute =>
      dsimp only
      split
      · rfl
      · refine Dialogue.relays_ask terminate_error? fun filled failed => ?_
        rw [terminate_failed failed]
        exact ⟨rfl, rfl, fun _ => rfl⟩
  | openFile path flags mode =>
    exact keyringFirst_relays s path flags mode
      (Dialogue.relays_ask (fun _ => rfl) fun _ _ => ⟨rfl, rfl, fun _ => rfl⟩)
  | read file buffer position =>
    simp only [dialogue]
    cases form : s.fileIo with
    | moving =>
      refine Dialogue.relays_ask (fun _ => rfl) fun _ _ => ⟨rfl, rfl, fun offset => ?_⟩
      rw [form] at offset
      contradiction
    | offset =>
      refine Dialogue.relays_ask (fun _ => rfl) fun filled failed => ⟨rfl, rfl, fun _ => ?_⟩
      exact congrArg some (positionAfter_failed position failed)
  | write file bytes position =>
    simp only [dialogue]
    cases form : s.fileIo with
    | moving =>
      refine Dialogue.relays_ask (fun _ => rfl) fun _ _ => ⟨rfl, rfl, fun offset => ?_⟩
      rw [form] at offset
      contradiction
    | offset =>
      refine Dialogue.relays_ask (fun _ => rfl) fun filled failed => ⟨rfl, rfl, fun _ => ?_⟩
      exact congrArg some (positionAfter_failed position failed)

theorem keyringFirst_opensLast {rest : Dialogue (Result File)} (opens : rest.OpensLast) :
    (keyringFirst s rest).OpensLast := by
  refine keyringFirst_keeps s (fun _ other => Dialogue.opensLast_query other) ?_ opens
  intro key line
  refine Dialogue.opensLast_query rfl fun installed => ?_
  cases installed with
  | ok => exact opens
  | error e => trivial

theorem dialogue_opensLast (attempt : Attempt) : (attempt.dialogue s).OpensLast := by
  cases attempt with
  | addTaskWork task mode =>
    simp only [dialogue]
    cases s.notify <;> exact Dialogue.opensLast_query rfl fun _ => trivial
  | closeFd fd =>
    simp only [dialogue]
    cases s.close with
    | direct => exact Dialogue.opensLast_query rfl fun _ => trivial
    | inTable =>
      exact Dialogue.opensLast_query rfl fun _ => Dialogue.opensLast_query rfl fun _ => trivial
  | copyString buffer address =>
    simp only [dialogue]
    cases s.stringCopy with
    | nofault | unsafeUser => exact Dialogue.opensLast_query rfl fun _ => trivial
    | substitute =>
      dsimp only
      split
      · trivial
      · exact Dialogue.opensLast_query rfl fun _ => trivial
  | openFile path flags mode =>
    exact keyringFirst_opensLast s fun reply => ⟨fun _ => ⟨reply, rfl⟩, trivial⟩
  | read file buffer position | write file bytes position =>
    simp only [dialogue]
    cases s.fileIo <;> exact Dialogue.opensLast_query rfl fun _ => trivial

end Relaying

/-- The bridge fails exactly when a primitive does that it asked for, and with the same error. That
primitive is the last one: no file is opened once the provision of a keyring has failed. What it left in
the destination is left so, and a position that was not lent to it is where it was. -/
theorem perform_relays (attempt : Attempt) (s : Selection) {κ : Type} (host : Host κ) (m : Machine κ) :
    let answer := ((attempt.perform ⟨host, s⟩).run m).1
    let asked := (attempt.dialogue s).asked host m
    (attempt.perform ⟨host, s⟩).run m = ((attempt.dialogue s).interpret host).run m ∧
    (∀ e, attempt.error? answer = some e ↔ ∃ call ∈ asked, call.error? = some e) ∧
    (∀ earlier call later, asked = earlier ++ call :: later → call.error? ≠ none →
      later = [] ∧ attempt.FailsWith s call answer) ∧
    (∀ call ∈ asked, call.error? ≠ none → call.opensFile = false →
      ∀ other ∈ asked, other.opensFile = false) := by
  intro answer asked
  have same := perform_eq_interpret host s m attempt
  have ends : Dialogue.Ends attempt.error? (attempt.FailsWith s) answer asked := by
    have relayed := (dialogue_relays s attempt).ends host m
    rwa [← same] at relayed
  refine ⟨same, ends.error_iff, fun earlier call later shape failed => ends.last shape failed, ?_⟩
  intro call member failed notOpen other made
  cases opened : other.opensFile with
  | false => rfl
  | true =>
    obtain ⟨earlier, later, shape⟩ := List.append_of_mem member
    obtain ⟨before, behind, split⟩ := List.append_of_mem made
    obtain ⟨rfl, -⟩ := ends.last shape failed
    obtain rfl := (dialogue_opensLast s attempt).last host m split opened
    obtain ⟨-, one⟩ := List.append_inj' (shape.symm.trans split) rfl
    rw [List.singleton_inj.mp one, opened] at notOpen
    contradiction

/-- A worker on a host that does not let it have a keyring. The open comes back with the host's error, and
no file was asked for. -/
theorem perform_relays_worker :
    let s := Selection.of (.make 4 9 0) .empty
    let host := ({ installError := some .eperm } : Interference).disturb Recorder.host
    let m : Machine Recorder := { kernel := { workqueueWorker := true } }
    let attempt : Attempt := .openFile "/data" 0 0
    let last : Asked := ⟨.installSessionKeyring ⟨0x2a⟩, (.error .eperm : Result Unit)⟩
    let asked := (attempt.dialogue s).asked host m
    last ∈ asked ∧ last.error? = some .eperm ∧
    attempt.error? ((attempt.perform ⟨host, s⟩).run m).1 = some .eperm ∧
    ∀ call ∈ asked, call.opensFile = false := by
  intro s host m attempt last asked
  have shape : asked = [⟨.isWorkqueueWorker, true⟩, ⟨.sessionKeyring, (none : Option Key)⟩,
      ⟨.initSessionKeyring, some ⟨0x2a⟩⟩, last] := rfl
  have member : last ∈ asked := by simp [shape]
  have failed : last.error? = some .eperm := rfl
  obtain ⟨-, error, -, unopened⟩ := perform_relays attempt s host m
  exact ⟨member, failed, (error .eperm).mpr ⟨last, member, failed⟩,
    unopened last member (by simp [failed]) rfl⟩

end Attempt
end KernelAbi
