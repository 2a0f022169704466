import KernelAbi.Hook

/-! Verdicts by rule. A policy is a list of rules, each about one of the three user ids of a change; the
first rule that applies decides, and a change to which none applies is allowed. -/
namespace KernelAbi

inductive UserId where
  | new
  | old
  | effective
deriving DecidableEq, Repr

structure Rule where
  who : UserId
  uid : UInt32
  verdict : Int32
deriving DecidableEq, Repr

def UserId.among (who : UserId) (new old effective : UInt32) : UInt32 :=
  match who with
  | .new => new
  | .old => old
  | .effective => effective

def Rule.Applies (r : Rule) (new old effective : UInt32) : Prop := r.who.among new old effective = r.uid

instance (r : Rule) (new old effective : UInt32) : Decidable (r.Applies new old effective) :=
  inferInstanceAs (Decidable (r.who.among new old effective = r.uid))

abbrev Policy := List Rule

def Policy.verdict (p : Policy) (new old effective : UInt32) : Int32 :=
  match p.find? (·.Applies new old effective) with
  | some rule => rule.verdict
  | none => 0

/-- Handlers that observe files under the common toggle. -/
def Policy.commonHandlers (p : Policy) : Handlers := ⟨0, .common, p.verdict⟩

/-- Handlers with a toggle of their own. -/
def Policy.ownHandlers (p : Policy) : Handlers := ⟨1, .own 1, p.verdict⟩

end KernelAbi
