import Policyd.MaskedTests
import Policyd.TableInvariant

namespace Policyd

open MaskedWords

/-!
# Shadowed rules

Behind the sorted table the compiler looks for rules that can never fire because
an earlier rule of another source rule always matches first.  The check runs on
compiled rules, of which a source rule with alternatives has several; a warning
names the source rule although it speaks of one of them.
-/

/-- Every word and plan that matches a rule matches another one. -/
def CompiledRule.Covers (earlier later : CompiledRule) : Prop :=
  ∀ (features : FeatureWord) (planBit : PlanMask), AtMostOne planBit →
    later.matches features planBit = true →
      earlier.matches features planBit = true

variable {position : Nat} {ruleSet : RuleSet}

end Policyd
