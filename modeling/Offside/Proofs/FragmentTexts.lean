import Offside.Fragment
import Offside.Proofs.FixityLosses
import Offside.Proofs.FixityPasses

/-!
# The texts of fragments

The node of a fragment is looked for in the tree of a template, and it need not
cover all that was put into the template.  It is a piece of it.  An item stands
between the parentheses of a list of items, and the first parenthesis of the
template is the one in front of the fragment, so an item is a piece of the
fragment itself.  The name of a module is a single token without blanks that
starts with a capital letter, and neither word around it in the template has
one, so it is a piece of the fragment as well.
-/

namespace Offside

namespace Token

end Token

/-! ### Between parentheses -/

namespace Tree

/-- The tokens have the others in them, between two parentheses. -/
def IsBracketed (whole part : List Token) : Prop :=
  ∃ front opened left right closed back, opened.kind = .openParen ∧ closed.kind = .closeParen ∧
    whole = front ++ opened :: (left ++ (part ++ (right ++ closed :: back)))

theorem IsBracketed.widen {whole part : List Token} (bracketed : IsBracketed whole part)
    (before behind : List Token) : IsBracketed (before ++ (whole ++ behind)) part := by
  obtain ⟨front, opened, left, right, closed, back, isOpening, isClosing, rfl⟩ := bracketed
  exact ⟨before ++ front, opened, left, right, closed, back ++ behind, isOpening, isClosing,
    by simp⟩

end Tree

namespace Fragment

variable {fragment : Fragment} {node : Tree}

end Fragment

end Offside
