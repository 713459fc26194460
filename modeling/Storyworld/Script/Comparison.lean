import Storyworld.Value

/-! The six comparisons a condition may make between a value of the world and a literal. -/

namespace Storyworld.Script

inductive Comparison where
  | equal
  | notEqual
  | greater
  | greaterOrEqual
  | less
  | lessOrEqual
  deriving DecidableEq

/-- The written form; equality has a shorter one too. -/
def Comparison.symbol : Comparison → String
  | equal => "=="
  | notEqual => "!="
  | greater => ">"
  | greaterOrEqual => ">="
  | less => "<"
  | lessOrEqual => "<="

def Comparison.holds : Comparison → Value → Value → Bool
  | equal, v, w => v.looseEq w
  | notEqual, v, w => !v.looseEq w
  | greater, v, w => v.looseOrder? w == some .gt
  | greaterOrEqual, v, w => v.looseOrder? w == some .gt || v.looseOrder? w == some .eq
  | less, v, w => v.looseOrder? w == some .lt
  | lessOrEqual, v, w => v.looseOrder? w == some .lt || v.looseOrder? w == some .eq

end Storyworld.Script
