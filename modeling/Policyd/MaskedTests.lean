import Policyd.MaskedWords

namespace Policyd.MaskedWords

/-!
# When one masked test implies another

A word is tested with a mask and a value, and a set of positions is tested with
a scope in which the empty scope stands for every position.  Whether every word
that passes one test passes another can be read off the masks, the values and
the scopes.
-/

variable {width : Nat}

/-- No position or exactly one. -/
def AtMostOne (positions : BitVec width) : Prop :=
  positions = 0 ∨ ∃ position < width, positions = oneBit width position

end Policyd.MaskedWords
