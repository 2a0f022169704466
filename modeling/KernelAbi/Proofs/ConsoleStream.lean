import KernelAbi.Log.Script
import KernelAbi.Proofs.RingContent
import Mathlib.Data.List.Forall2

/-! One stream for the ring and for the consoles. A script comes down to chunks and to changes of the
console between them. The ring takes every chunk, whoever is listening; a console takes those of its tenure,
from when it is installed until another takes its place, or none, or until it leaves of its own accord. -/
namespace KernelAbi.Log

/-- A console that does not write to the log. It may still have itself removed. -/
def Console.Quiet (console : Console) : Prop := ∀ mark rest, console.reaction ≠ .echo mark rest

def Console.leaves (console : Console) : Bool := console.reaction = .leave

/-- A chunk goes out, or the console changes. -/
inductive Action where
  | chunk (bytes : Bytes)
  | install (console : Option Console)
deriving DecidableEq, Repr

namespace Action

def bytes : Action → Bytes
  | .chunk bytes => bytes
  | .install _ => []

/-- Who is installed after an action. A console that leaves takes one chunk, be it empty. -/
def next (current : Option Console) : Action → Option Console
  | .chunk _ => current.filter (!·.leaves)
  | .install console => console

def apply (log : Log) : Action → Log
  | .chunk bytes => log.emit bytes
  | .install console => { log with console }

/-- A chunk is received if somebody is installed. -/
def receipts (current : Option Console) : Action → List Receipt
  | .chunk bytes => (current.map fun console => ⟨console, bytes⟩).toList
  | .install _ => []

def Quiet : Action → Prop
  | .chunk _ => True
  | .install console => ∀ installed ∈ console, installed.Quiet

end Action

/-- Nobody is installed who writes to the log. -/
def Quiet (log : Log) : Prop := ∀ console ∈ log.console, console.Quiet

/-- The texts that a step emits, each as a chunk of its own. -/
def Step.texts : Step → List String
  | .emit text => [text]
  | .emitTimes text times => List.replicate times text
  | .emitNumber value => [numeral value]
  | .endLine => ["\n"]
  | .lead mark => leader mark
  | .print line => line.chunks
  | .contains _ | .read .. | .setConsole _ | .clearConsole | .console => []

/-- What a step comes down to. -/
def Step.actions : Step → List Action
  | .setConsole next => [.install (some next)]
  | .clearConsole => [.install none]
  | step => step.texts.map fun text => .chunk (.ofText text)

/-- Steps that say who is installed when they begin. -/
def Step.tells : Step → Bool
  | .setConsole _ | .clearConsole | .console => true
  | _ => false

def Step.reconfigures : Step → Bool
  | .setConsole _ | .clearConsole => true
  | _ => false

/-- What an entry says about who was installed, if it says anything about it. -/
def Entry.told (entry : Entry) : Option (Option Console) :=
  match entry.step, entry.answer with
  | .setConsole _, console | .clearConsole, console | .console, console => some console
  | _, _ => none

def run (log : Log) (steps : List Step) : Log := steps.foldl (fun log step => (log.perform step).2) log

/-- The time during which `console` is installed, or no console is, and what is emitted in it. -/
structure Tenure where
  console : Option Console
  bytes : Bytes
deriving DecidableEq, Repr

/-- The tenures in turn, from the one that has come as far as `current`. -/
def tenures (current : Tenure) : List Action → List Tenure
  | [] => [current]
  | .install console :: actions => current :: tenures ⟨console, []⟩ actions
  | .chunk bytes :: actions =>
    let served : Tenure := { current with bytes := current.bytes ++ bytes }
    if current.console.any Console.leaves then served :: tenures ⟨none, []⟩ actions
    else tenures served actions

/-- The receipts of a tenure are its console's, and are all that was emitted in it. -/
structure Tenure.Receives (tenure : Tenure) (receipts : List Receipt) : Prop where
  own : ∀ receipt ∈ receipts, tenure.console = some receipt.console
  whole : tenure.console.isSome → receipts.flatMap (·.chunk) = tenure.bytes

/-- Who is told to be installed at each step that tells it. -/
def tidings (current : Option Console) : List Step → List (Option (Option Console))
  | [] => []
  | step :: steps =>
    (if step.tells then some current else none) :: tidings (step.actions.foldl Action.next current) steps

section Actions

variable (log : Log)

theorem emitAll_actions (texts : List String) :
    log.emitAll texts = (texts.map fun text => .chunk (.ofText text)).foldl Action.apply log := by
  rw [emitAll, List.foldl_map]
  rfl

theorem perform_actions (step : Step) : (log.perform step).2 = step.actions.foldl Action.apply log := by
  cases step with
  | emitTimes text times => exact log.emitAll_actions (List.replicate times text)
  | lead mark => exact log.emitAll_actions (leader mark)
  | print line => exact log.emitAll_actions line.chunks
  | emit text => rfl
  | emitNumber value => rfl
  | endLine => rfl
  | setConsole next => rfl
  | clearConsole => rfl
  | contains needle => rfl
  | read size out => rfl
  | console => rfl

theorem run_actions (steps : List Step) :
    log.run steps = (steps.flatMap Step.actions).foldl Action.apply log := by
  rw [run, List.foldl_flatMap]
  simp only [perform_actions]

theorem told_perform (step : Step) (received : List Receipt) :
    (Entry.mk step (log.perform step).1 received).told = if step.tells then some log.console else none := by
  cases step <;> rfl

end Actions

theorem next_chunk (current : Option Console) (bytes : Bytes) :
    Action.next current (.chunk bytes) = if current.any Console.leaves then none else current := by
  cases current with
  | none => rfl
  | some console => cases leaves : console.leaves <;> simp [Action.next, Option.filter, leaves]

section Effects

variable {log : Log}

/-- What an action makes of a log on which nobody writes back. -/
structure Effect (log : Log) (action : Action) (after : Log) : Prop where
  ring : after.ring = log.ring.write action.bytes
  console : after.console = action.next log.console
  received : after.received.toList = log.received.toList ++ action.receipts log.console
  quiet : after.Quiet

theorem emit_effect (quiet : log.Quiet) (bytes : Bytes) : Effect log (.chunk bytes) (log.emit bytes) := by
  obtain ⟨ring, current, received⟩ := log
  cases current with
  | none =>
    exact ⟨rfl, rfl, (List.append_nil _).symm, quiet⟩
  | some console =>
    have taken : (received.push ⟨console, bytes⟩).toList = received.toList ++ [⟨console, bytes⟩] :=
      Array.toList_push
    have noEcho := quiet console rfl
    have next := next_chunk (some console) bytes
    cases reaction : console.reaction with
    | none =>
      simp only [Option.any_some, Console.leaves, reaction, reduceCtorEq, decide_false] at next
      simp only [emit, deliver, react, reaction]
      exact ⟨rfl, next.symm, taken, quiet⟩
    | leave =>
      simp only [Option.any_some, Console.leaves, reaction, decide_true, if_true] at next
      simp only [emit, deliver, react, reaction]
      exact ⟨rfl, next.symm, taken, by simp [Quiet]⟩
    | echo mark rest => exact absurd reaction (noEcho mark rest)

theorem apply_effect (quiet : log.Quiet) {action : Action} (allowed : action.Quiet) :
    Effect log action (action.apply log) := by
  cases action with
  | chunk bytes => exact emit_effect quiet bytes
  | install console => exact ⟨rfl, rfl, (List.append_nil _).symm, allowed⟩

/-- The ring is written as if nobody listened, and whoever is installed was installed last and has stayed. -/
theorem apply_all {actions : List Action} (quiet : log.Quiet) (allowed : ∀ action ∈ actions, action.Quiet) :
    let after := actions.foldl Action.apply log
    after.ring = log.ring.write (actions.flatMap Action.bytes) ∧
    after.console = actions.foldl Action.next log.console ∧ after.Quiet := by
  induction actions generalizing log with
  | nil => exact ⟨rfl, rfl, quiet⟩
  | cons action actions ih =>
    obtain ⟨first, others⟩ := List.forall_mem_cons.mp allowed
    have effect := apply_effect quiet first
    obtain ⟨ring, console, after⟩ := ih effect.quiet others
    refine ⟨?_, ?_, after⟩
    · rw [List.foldl_cons, ring, effect.ring, List.flatMap_cons, Ring.write_append]
    · rw [List.foldl_cons, console, effect.console, List.foldl_cons]

end Effects

section Tenures

variable {log : Log} {current : Tenure} {taken before : List Receipt}

theorem Tenure.receives_nil (console : Option Console) : Tenure.Receives ⟨console, []⟩ [] :=
  ⟨by simp, fun _ => rfl⟩

/-- One more chunk is received, if there is somebody in office. -/
theorem Tenure.Receives.chunk (receives : current.Receives taken) (bytes : Bytes) :
    Tenure.Receives { current with bytes := current.bytes ++ bytes }
      (taken ++ Action.receipts current.console (.chunk bytes)) := by
  obtain ⟨console, emitted⟩ := current
  cases console with
  | none => exact ⟨by simpa [Action.receipts] using receives.own, by simp⟩
  | some console =>
    constructor
    · intro receipt member
      rcases List.mem_append.mp member with member | member
      · exact receives.own receipt member
      · obtain rfl := List.mem_singleton.mp member
        rfl
    · intro installed
      rw [List.flatMap_append, receives.whole installed]
      exact congrArg (emitted ++ ·) (List.flatMap_singleton _ _)

/-- Receipts from an earlier tenure stay where they are, and those of the current one are joined by those
that the actions bring it. -/
theorem apply_all_tenures {actions : List Action} (quiet : log.Quiet)
    (allowed : ∀ action ∈ actions, action.Quiet) (installed : log.console = current.console)
    (received : log.received.toList = before ++ taken) (receives : current.Receives taken) :
    ∃ shares : List (List Receipt),
      (actions.foldl Action.apply log).received.toList = before ++ shares.flatten ∧
      List.Forall₂ Tenure.Receives (tenures current actions) shares := by
  induction actions generalizing log current taken before with
  | nil =>
    refine ⟨[taken], ?_, .cons receives .nil⟩
    simpa using received
  | cons action actions ih =>
    obtain ⟨first, others⟩ := List.forall_mem_cons.mp allowed
    have effect := apply_effect quiet first
    have after := effect.received
    rw [received, List.append_assoc, installed] at after
    -- The tenure ends with an installation, or with the chunk at which the console leaves.
    have ended {next : Option Console} (console : (action.apply log).console = next)
        {past : Tenure} (share : past.Receives (taken ++ action.receipts current.console)) :
        ∃ shares : List (List Receipt),
          ((action :: actions).foldl Action.apply log).received.toList = before ++ shares.flatten ∧
          List.Forall₂ Tenure.Receives (past :: tenures ⟨next, []⟩ actions) shares := by
      obtain ⟨shares, later, forall₂⟩ := ih effect.quiet others console
        (after.trans (by rw [← List.append_assoc, List.append_nil])) (Tenure.receives_nil next)
      refine ⟨_ :: shares, ?_, .cons share forall₂⟩
      rw [List.foldl_cons, later, List.flatten_cons]
      simp only [List.append_assoc]
    cases action with
    | install console =>
      refine ended effect.console ?_
      rwa [Action.receipts, List.append_nil]
    | chunk bytes =>
      have share := receives.chunk bytes
      have next := effect.console
      rw [installed, next_chunk] at next
      rw [tenures]
      split
      next leaves => exact ended (next.trans (if_pos leaves)) share
      next stays => exact ih effect.quiet others (next.trans (if_neg stays)) after share

end Tenures

section Scripts

variable {log : Log} {steps : List Step}

theorem actions_quiet (allowed : ∀ console, .setConsole console ∈ steps → console.Quiet) :
    ∀ action ∈ steps.flatMap Step.actions, action.Quiet := by
  intro action member
  obtain ⟨step, present, member⟩ := List.mem_flatMap.mp member
  cases step with
  | setConsole next =>
    obtain rfl := List.mem_singleton.mp member
    intro console installed
    obtain rfl := Option.some.inj installed
    exact allowed next present
  | clearConsole =>
    obtain rfl := List.mem_singleton.mp member
    intro console installed
    contradiction
  | _ =>
    obtain ⟨text, -, rfl⟩ := List.mem_map.mp member
    trivial

theorem transcript_told (quiet : log.Quiet) (allowed : ∀ console, .setConsole console ∈ steps → console.Quiet) :
    (transcript steps log).map Entry.told = tidings log.console steps := by
  induction steps generalizing log with
  | nil => rfl
  | cons step steps ih =>
    have performed := log.perform_actions step
    have quietStep : ∀ action ∈ step.actions, action.Quiet := by
      intro action member
      exact actions_quiet allowed action (List.mem_flatMap.mpr ⟨step, List.mem_cons_self, member⟩)
    obtain ⟨-, console, after⟩ := apply_all quiet quietStep
    rw [← performed] at console after
    have rest := ih after (fun console member => allowed console (List.mem_cons_of_mem step member))
    rw [transcript, List.map_cons, told_perform, rest, console, tidings]

/-- Steps that change the console emit nothing. -/
theorem emitted_filter (steps : List Step) :
    ((steps.filter (!·.reconfigures)).flatMap Step.actions).flatMap Action.bytes =
      (steps.flatMap Step.actions).flatMap Action.bytes := by
  induction steps with
  | nil => rfl
  | cons step steps ih =>
    cases reconfigures : step.reconfigures with
    | true =>
      have nothing : step.actions.flatMap Action.bytes = [] := by
        cases step with
        | setConsole next => rfl
        | clearConsole => rfl
        | _ => contradiction
      rw [List.filter_cons_of_neg (by simp [reconfigures]), ih, List.flatMap_cons, List.flatMap_append, nothing,
        List.nil_append]
    | false =>
      rw [List.filter_cons_of_pos (by simp [reconfigures]), List.flatMap_cons, List.flatMap_append, ih,
        List.flatMap_cons, List.flatMap_append]

end Scripts

/-- A script of which no console writes to the log. What consoles take during it falls into shares, one for
each tenure and in order: a share is its console's alone, and is what the script emits in that tenure, each
byte once. Every change of the console, and every question for it, tells who is installed at that point. The
ring takes all that is emitted, so that a copy of it gives the end of the stream that the log was given before
and during the script, and it is the same when the console is never changed. -/
theorem run_stream {log : Log} (quiet : log.Quiet) {steps : List Step}
    (allowed : ∀ console, .setConsole console ∈ steps → console.Quiet) :
    let after := log.run steps
    let actions := steps.flatMap Step.actions
    (∃ shares : List (List Receipt),
      after.received.toList = log.received.toList ++ shares.flatten ∧
      List.Forall₂ Tenure.Receives (tenures ⟨log.console, []⟩ actions) shares) ∧
    (transcript steps log).map Entry.told = tidings log.console steps ∧
    after.console = actions.foldl Action.next log.console ∧
    after.ring = log.ring.write (actions.flatMap Action.bytes) ∧
    (∀ written, log.ring.Holds written → ∀ {size : Nat} (out : Buffer size),
      let stream := written ++ actions.flatMap Action.bytes
      let count := min size (min Ring.capacity stream.length)
      let copy := after.ring.copyTo out
      copy.1 = count ∧ copy.2.bytes = stream.drop (stream.length - count) ++ out.bytes.drop count) ∧
    (log.run (steps.filter (!·.reconfigures))).ring = after.ring := by
  intro after actions
  have quietActions : ∀ action ∈ actions, action.Quiet := actions_quiet allowed
  obtain ⟨ring, console, -⟩ := apply_all quiet quietActions
  obtain ⟨shares, received, receives⟩ := apply_all_tenures quiet quietActions rfl
    (List.append_nil log.received.toList).symm (Tenure.receives_nil log.console)
  rw [← run_actions] at ring console received
  refine ⟨⟨shares, received, receives⟩, transcript_told quiet allowed, console, ring, ?_, ?_⟩
  · intro written holds size out
    have later : after.ring.Holds (written ++ actions.flatMap Action.bytes) := ring ▸ Ring.write_holds holds _
    exact later.copyTo_end out
  have quietRest : ∀ action ∈ (steps.filter (!·.reconfigures)).flatMap Step.actions, action.Quiet :=
    actions_quiet fun console member => allowed console (List.mem_of_mem_filter member)
  obtain ⟨rest, -, -⟩ := apply_all quiet quietRest
  rw [← run_actions, emitted_filter] at rest
  exact rest.trans ring.symm

/-- One console takes a text and gives way to another, which leaves in the middle of a line; the first
comes back for a number. -/
theorem run_stream_midline :
    let first : Console := ⟨"first", .none⟩
    let second : Console := ⟨"second", .leave⟩
    let steps : List Step := [.setConsole first, .emit "(Probe)", .setConsole second, .lead "[INFO] ", .console,
      .setConsole first, .emitNumber 10, .clearConsole, .emit "(LSM)"]
    let after := run {} steps
    Quiet {} ∧ (∀ console, .setConsole console ∈ steps → console.Quiet) ∧
    (∃ shares : List (List Receipt), after.received.toList = shares.flatten ∧
      List.Forall₂ Tenure.Receives
        [⟨none, []⟩, ⟨some first, .ofText "(Probe)"⟩, ⟨some second, .ofText "[INFO] "⟩,
          ⟨none, .ofText moduleName⟩, ⟨some first, .ofText (numeral 10)⟩, ⟨none, .ofText "(LSM)"⟩] shares) ∧
    (transcript steps {}).map Entry.told =
      [some none, none, some (some first), none, some none, some none, none, some (some first), none] ∧
    (after.ring.copyTo (.filled 8 0xff)).2.bytes = .ofText "0xa(LSM)" ∧
    (run {} [.emit "(Probe)", .lead "[INFO] ", .console, .emitNumber 10, .emit "(LSM)"]).ring = after.ring := by
  intro first second steps after
  have quiet : Quiet {} := by simp [Quiet]
  have allowed : ∀ console, .setConsole console ∈ steps → console.Quiet := by
    simp [steps, first, second, Console.Quiet]
  obtain ⟨⟨shares, received, receives⟩, told, -, -, content, ring⟩ := run_stream quiet allowed
  obtain ⟨-, newest⟩ := content [] Ring.empty_holds (.filled 8 0xff)
  exact ⟨quiet, allowed, ⟨shares, received, receives⟩, told, newest.trans (by decide +kernel), ring⟩

end KernelAbi.Log
