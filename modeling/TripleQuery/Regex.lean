import TripleQuery.Regex.Parser
import TripleQuery.Regex.Meaning
import TripleQuery.Regex.Memory
/-!
# Regular expressions

A text is a regular expression if it follows the grammar, is not nested too far, means something
under its flags and does not take too much room.
-/

namespace TripleQuery

/-- The regular expression written as the given text, if it is one. -/
def Regex.parse? (source : String) : Option Regex := do
  let r ← RegexSyntax.ofText? source
  guard (r.depth ≤ RegexSyntax.maxDepth)
  let (tree, _) ← r.tree? {}
  guard tree.isAffordable
  return ⟨source, tree⟩

end TripleQuery
