import KernelAbi.Proofs.ConsoleStream
import KernelAbi.Proofs.HexNumeral

/-! The text of printed lines. A console that does nothing but take its chunks is given the texts of the
lines, one after the other. That text can be taken apart again: a line ends at the first end of line, its
level is told by its mark, and its number begins behind the first equals sign. -/
namespace KernelAbi

/-- The first occurrence of `a` cuts a list in one way only. -/
theorem cut_at_first {α : Type} {a : α} {x y r s : List α} (free : a ∉ x) (free' : a ∉ y)
    (same : x ++ a :: r = y ++ a :: s) : x = y ∧ r = s := by
  induction x generalizing y with
  | nil =>
    cases y with
    | nil => exact ⟨rfl, (List.cons.inj same).2⟩
    | cons c y => exact absurd ((List.cons.inj same).1 ▸ List.mem_cons_self) free'
  | cons b x ih =>
    cases y with
    | nil => exact absurd ((List.cons.inj same).1 ▸ List.mem_cons_self) free
    | cons c y =>
      obtain ⟨rfl, rest⟩ := List.cons.inj same
      obtain ⟨rfl, tail⟩ := ih (mt (List.mem_cons_of_mem b) free) (mt (List.mem_cons_of_mem b) free') rest
      exact ⟨rfl, tail⟩

namespace Bytes

theorem toList_loop (bytes : ByteArray) (i : Nat) (taken : Bytes) :
    ByteArray.toList.loop bytes i taken = taken.reverse ++ bytes.data.toList.drop i := by
  induction i, taken using ByteArray.toList.loop.induct bytes with
  | case1 i taken inside ih =>
    have bound : i < bytes.data.toList.length := inside
    have byte : bytes.get! i = bytes.data.toList[i] := getElem!_pos bytes.data i inside
    rw [ByteArray.toList.loop, if_pos inside, ih, List.reverse_cons, List.append_assoc,
      List.singleton_append, byte, List.drop_eq_getElem_cons bound]
  | case2 i taken outside =>
    have past : bytes.data.toList.length ≤ i := Nat.le_of_not_lt outside
    rw [ByteArray.toList.loop, if_neg outside, List.drop_eq_nil_of_le past, List.append_nil]

theorem ofText_eq (text : String) : ofText text = text.toByteArray.data.toList :=
  toList_loop text.toByteArray 0 []

theorem ofText_empty : ofText "" = [] := by
  rw [ofText_eq]
  rfl

theorem ofText_append (first later : String) : ofText (first ++ later) = ofText first ++ ofText later := by
  rw [ofText_eq, ofText_eq, ofText_eq, String.toByteArray_append, ByteArray.toList_data_append]

theorem ofText_injective {first second : String} (same : ofText first = ofText second) : first = second := by
  rw [ofText_eq, ofText_eq] at same
  exact String.toByteArray_inj.mp (ByteArray.ext (Array.toList_inj.mp same))

end Bytes

namespace Log

def Line.text (line : Line) : String := String.join line.chunks

/-- Lines as they stand on a console. -/
def text (lines : List Line) : String := String.join (lines.map Line.text)

/-- A console is installed that takes its chunks and does nothing else. -/
def Listens (log : Log) : Prop := ∃ console, log.console = some console ∧ console.reaction = .none

/-- What consoles are given while `lines` are printed. -/
def heard (log : Log) (lines : List Line) : Bytes :=
  ((log.printAll lines).received.toList.drop log.received.size).flatMap (·.chunk)

section Heard

variable {log : Log}

/-- `after` has been listening to `bytes` since `log`. -/
structure Hears (log : Log) (bytes : Bytes) (after : Log) : Prop where
  listens : after.Listens
  received : ∃ receipts : List Receipt,
    after.received.toList = log.received.toList ++ receipts ∧ receipts.flatMap (·.chunk) = bytes

theorem Hears.refl (listens : log.Listens) : log.Hears [] log :=
  ⟨listens, [], (List.append_nil _).symm, rfl⟩

theorem Hears.trans {bytes later : Bytes} {middle after : Log} (first : log.Hears bytes middle)
    (second : middle.Hears later after) : log.Hears (bytes ++ later) after := by
  obtain ⟨-, receipts, received, chunks⟩ := first
  obtain ⟨listens, others, receivedLater, chunksLater⟩ := second
  refine ⟨listens, receipts ++ others, ?_, ?_⟩
  · rw [receivedLater, received, List.append_assoc]
  · rw [List.flatMap_append, chunks, chunksLater]

theorem emit_hears (listens : log.Listens) (bytes : Bytes) : log.Hears bytes (log.emit bytes) := by
  obtain ⟨console, installed, silent⟩ := listens
  have quiet : log.Quiet := by
    intro other member mark rest echo
    obtain rfl : console = other := Option.some.inj (installed.symm.trans member)
    rw [silent] at echo
    contradiction
  have effect := emit_effect quiet bytes
  have stays : (log.emit bytes).console = some console := by
    rw [effect.console, installed]
    simp [Action.next, Option.filter, Console.leaves, silent]
  refine ⟨⟨console, stays, silent⟩, [⟨console, bytes⟩], ?_, List.flatMap_singleton _ _⟩
  rw [effect.received, installed]
  rfl

theorem emitAll_hears (listens : log.Listens) (texts : List String) :
    log.Hears (Bytes.ofText (String.join texts)) (log.emitAll texts) := by
  induction texts generalizing log with
  | nil =>
    rw [String.join_nil, Bytes.ofText_empty]
    exact Hears.refl listens
  | cons text texts ih =>
    have first := emit_hears listens (Bytes.ofText text)
    rw [String.join_cons, Bytes.ofText_append]
    exact first.trans (ih first.listens)

theorem printAll_hears (listens : log.Listens) (lines : List Line) :
    log.Hears (Bytes.ofText (text lines)) (log.printAll lines) := by
  induction lines generalizing log with
  | nil =>
    rw [text, List.map_nil, String.join_nil, Bytes.ofText_empty]
    exact Hears.refl listens
  | cons line lines ih =>
    have first := emitAll_hears listens line.chunks
    rw [text, List.map_cons, String.join_cons, Bytes.ofText_append]
    exact first.trans (ih first.listens)

theorem heard_eq (listens : log.Listens) (lines : List Line) : log.heard lines = Bytes.ofText (text lines) := by
  obtain ⟨-, receipts, received, chunks⟩ := printAll_hears listens lines
  rw [heard, received, ← Array.length_toList, List.drop_left, chunks]

end Heard

/-- The message is of one line, and an equals sign at its end, and only there, promises a number. -/
def Announces (message : String) (numbered : Bool) : Prop :=
  '\n' ∉ message.toList ∧ '=' ∉ message.toList.dropLast ∧
    (message.toList.getLast? = some '=' ↔ numbered = true)

instance (message : String) (numbered : Bool) : Decidable (Announces message numbered) :=
  inferInstanceAs (Decidable (_ ∧ _))

def Line.Plain (line : Line) : Prop := Announces line.message line.value.isSome

/-- The number that ends a line, if there is one. -/
def ending : Option UInt64 → List Char
  | none => []
  | some value => (numeral value).toList

def Line.body (line : Line) : List Char :=
  line.level.mark.toList ++ (moduleName.toList ++ (line.message.toList ++ ending line.value))

section Reading

variable {line other : Line}

theorem text_toList (line : Line) : line.text.toList = line.body ++ ['\n'] := by
  obtain ⟨level, message, value⟩ := line
  cases value <;> simp [Line.text, Line.chunks, leader, Line.body, ending]

/-- No mark begins with another. -/
theorem Level.eq_of_prefix {first second : Level} (begins : first.mark.toList <+: second.mark.toList) :
    first = second := by
  revert begins
  cases first <;> cases second <;> decide

theorem mark_append_inj {first second : Level} {rest rest' : List Char}
    (same : first.mark.toList ++ rest = second.mark.toList ++ rest') : first = second ∧ rest = rest' := by
  have begins : first.mark.toList <+: second.mark.toList ++ rest' := ⟨rest, same⟩
  obtain rfl : first = second := by
    rcases List.prefix_or_prefix_of_prefix begins (List.prefix_append _ rest') with shorter | longer
    · exact Level.eq_of_prefix shorter
    · exact (Level.eq_of_prefix longer).symm
  exact ⟨rfl, List.append_cancel_left same⟩

theorem Announces.exists_label {message : String} (announces : Announces message true) :
    ∃ label, '=' ∉ label ∧ message.toList = label ++ ['='] := by
  obtain ⟨-, free, ends⟩ := announces
  have last := List.dropLast_append_getLast? '=' (ends.mpr rfl)
  exact ⟨_, free, last.symm⟩

theorem Announces.free {message : String} (announces : Announces message false) : '=' ∉ message.toList := by
  obtain ⟨-, free, ends⟩ := announces
  intro member
  cases last : message.toList.getLast? with
  | none => simp [List.getLast?_eq_none_iff.mp last] at member
  | some c =>
    rw [← List.dropLast_append_getLast? c last, List.mem_append, List.mem_singleton] at member
    rcases member with member | rfl
    · exact free member
    · simpa using ends.mp last

theorem Announces.ne_numbered {message message' : String} (announces : Announces message false)
    (announces' : Announces message' true) (digits : List Char) :
    message.toList ≠ message'.toList ++ digits := by
  intro same
  obtain ⟨label, -, split⟩ := announces'.exists_label
  apply announces.free
  rw [same, split]
  simp

/-- A number stands behind an equals sign, and nothing else does. -/
theorem message_append_inj {message message' : String} {value value' : Option UInt64}
    (announces : Announces message value.isSome) (announces' : Announces message' value'.isSome)
    (same : message.toList ++ ending value = message'.toList ++ ending value') :
    message = message' ∧ value = value' := by
  cases value with
  | none =>
    rw [ending, List.append_nil] at same
    cases value' with
    | none =>
      rw [ending, List.append_nil] at same
      exact ⟨String.toList_inj.mp same, rfl⟩
    | some n' => exact absurd same (announces.ne_numbered announces' _)
  | some n =>
    cases value' with
    | none =>
      rw [ending, ending, List.append_nil] at same
      exact absurd same.symm (announces'.ne_numbered announces _)
    | some n' =>
      obtain ⟨label, free, split⟩ := announces.exists_label
      obtain ⟨label', free', split'⟩ := announces'.exists_label
      rw [split, split', List.append_assoc, List.append_assoc] at same
      obtain ⟨rfl, digits⟩ := cut_at_first free free' same
      have numbers : n.toNat = n'.toNat := Hex.numeral_injective (String.toList_inj.mp digits)
      exact ⟨String.toList_inj.mp (split.trans split'.symm), congrArg some (UInt64.toNat_inj.mp numbers)⟩

theorem body_injective (plain : line.Plain) (plain' : other.Plain) (same : line.body = other.body) :
    line = other := by
  obtain ⟨level, message, value⟩ := line
  obtain ⟨level', message', value'⟩ := other
  obtain ⟨rfl, rest⟩ := mark_append_inj same
  obtain ⟨rfl, rfl⟩ := message_append_inj plain plain' (List.append_cancel_left rest)
  rfl

theorem newline_notMem_body (plain : line.Plain) : '\n' ∉ line.body := by
  obtain ⟨level, message, value⟩ := line
  have mark : '\n' ∉ level.mark.toList := by cases level <;> decide
  have name : '\n' ∉ moduleName.toList := by decide
  have number : '\n' ∉ ending value := by
    cases value with
    | none => simp [ending]
    | some n =>
      intro member
      exact absurd (Hex.isAlphanum_of_mem_numeral (n := n.toNat) member) (by decide)
  simp only [Line.body, List.mem_append, not_or]
  exact ⟨mark, name, plain.1, number⟩

theorem text_cons (line : Line) (lines : List Line) :
    (text (line :: lines)).toList = line.body ++ '\n' :: (text lines).toList := by
  rw [text, List.map_cons, String.join_cons, String.toList_append, text_toList, List.append_assoc]
  rfl

theorem text_cons_ne (line : Line) (lines : List Line) : text (line :: lines) ≠ text [] := by
  intro same
  have chars := congrArg String.toList same
  rw [text_cons] at chars
  simp [text] at chars

/-- Plain lines are known from their text. -/
theorem eq_of_text_eq {lines lines' : List Line} (plain : ∀ line ∈ lines, line.Plain)
    (plain' : ∀ line ∈ lines', line.Plain) (same : text lines = text lines') : lines = lines' := by
  induction lines generalizing lines' with
  | nil =>
    cases lines' with
    | nil => rfl
    | cons line' lines' => exact absurd same.symm (text_cons_ne line' lines')
  | cons line lines ih =>
    cases lines' with
    | nil => exact absurd same (text_cons_ne line lines)
    | cons line' lines' =>
      obtain ⟨first, others⟩ := List.forall_mem_cons.mp plain
      obtain ⟨first', others'⟩ := List.forall_mem_cons.mp plain'
      have chars := congrArg String.toList same
      rw [text_cons, text_cons] at chars
      obtain ⟨bodies, rest⟩ := cut_at_first (newline_notMem_body first) (newline_notMem_body first') chars
      rw [body_injective first first' bodies, ih others others' (String.toList_inj.mp rest)]

end Reading
end Log
end KernelAbi
