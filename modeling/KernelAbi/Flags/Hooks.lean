import KernelAbi.Flags

/-! The security hooks that a module may be built with. -/
namespace KernelAbi
namespace Hooks

def setuid : BitVec 8 := 1 <<< 0
def initrc : BitVec 8 := 1 <<< 1

def vocabulary : Vocabulary 8 where
  label := "HookSet"
  masks := [⟨"SETUID", setuid⟩, ⟨"INITRC", initrc⟩]

end Hooks

abbrev HookSet := Flags Hooks.vocabulary

end KernelAbi
