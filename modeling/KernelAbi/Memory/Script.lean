import KernelAbi.Memory.Bitmap

/-! Scripted use of a bitmap. -/
namespace KernelAbi.Bitmap

inductive Step where
  | insert (index : Nat)
  | erase (index : Nat)
  | contains (index : Nat)
  | isEmpty
  | firstFree
  /-- The indices from `first` up to, but not including, `past`. -/
  | insertRange (first past : Nat)
  | eraseRange (first past : Nat)
  | take
  | view
deriving DecidableEq, Repr

def Step.Answer : Step → Type
  | .contains _ | .isEmpty => Bool
  | .view => Bitmap
  | _ => Option Nat

/-- Changes answer with the first index that is free afterwards. -/
def changed (answer : Except OutOfRange Unit × Bitmap) : Except OutOfRange (Option Nat) × Bitmap :=
  (answer.1.map fun _ => answer.2.firstFree?, answer.2)

def perform (b : Bitmap) : (step : Step) → Except OutOfRange step.Answer × Bitmap
  | .insert index => changed (sweep raise b index 1)
  | .erase index => changed (sweep lower b index 1)
  | .contains index => (b.contains index, b)
  | .isEmpty => (.ok b.isEmpty, b)
  | .firstFree => (.ok b.firstFree?, b)
  | .insertRange first past => changed (sweep raise b first (past - first))
  | .eraseRange first past => changed (sweep lower b first (past - first))
  | .take => let (index, b) := b.take; (.ok index, b)
  | .view => (.ok b, b)

/-- The steps in turn, each with its answer, and the bitmap at the end. A refused step changes the
bitmap only as far as it got. -/
def transcript : List Step → Bitmap → List ((step : Step) × Except OutOfRange step.Answer) × Bitmap
  | [], b => ([], b)
  | step :: steps, b =>
    let (answer, b) := b.perform step
    let (rest, b) := transcript steps b
    (⟨step, answer⟩ :: rest, b)

end KernelAbi.Bitmap
