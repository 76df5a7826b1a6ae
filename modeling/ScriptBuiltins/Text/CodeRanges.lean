namespace ScriptBuiltins

abbrev CodeRanges := List (Nat × Nat)

namespace CodeRanges

/-- Whether a code is in one of the ranges. They ascend, so the search ends before a greater one. -/
def contains : CodeRanges → Nat → Bool
  | [], _ => false
  | (first, last) :: rest, n => first ≤ n && (n ≤ last || contains rest n)

end CodeRanges
end ScriptBuiltins
