/-!
Fresh names. A name that is taken is tried again with the endings `_2`, `_3` and so on.
-/

namespace Ergo

def numberedName (base : String) (number : Nat) : String :=
  s!"{base}_{number}"

/-- The names that are tried for a base, in order: one more than there are names taken. -/
def nameCandidates (base : String) (taken : List String) : List String :=
  base :: (List.range taken.length).map fun index => numberedName base (index + 2)

/-- The first candidate that is not taken. -/
def freshName (base : String) (taken : List String) : String :=
  ((nameCandidates base taken).find? fun name => !taken.contains name).getD base

end Ergo
