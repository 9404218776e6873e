import Mathlib.Logic.Function.Basic
import OsmoSysmon.Lib.CText
import OsmoSysmon.Lib.Forest

/-! # Outlines read back

An outline lists the nodes of a forest with their depths, and as a text it has a line for
each node, indented by its depth.  Both can be read back: the forest is all there, as long
as no label has a newline in it or begins with a blank.
-/

namespace Forest

variable {α β : Type}

/-! ## Outlines -/

/-- A node in front of what has been read, from the last node to the first.  The trees of each
    depth wait for a node above them. -/
def attach (node : Nat × α) (pending : Nat → Forest α) (depth : Nat) : Forest α :=
  if depth = node.1 then cons node.2 (pending (node.1 + 1)) (pending node.1)
  else if depth < node.1 then pending depth
  else nil

end Forest

namespace CText

/-! ## Lines -/

def joinLines (lines : List CStr) : CStr := lines.flatMap fun line => line ++ [10]

variable {α : Type}

/-- What is printed for a label, so that it can be read. -/
structure Reads (print : α → CStr) (read : CStr → α) (a : α) : Prop where
  back : read (print a) = a
  flush : ∀ s, print a ≠ 32 :: s
  single : 10 ∉ print a

section

variable {print : α → CStr} {read : CStr → α}

end

end CText
