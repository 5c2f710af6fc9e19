import SiteCompiler.Build.Page
set_option autoImplicit false

/-! # Building pages side by side

Pages are built by several workers at once. If all succeed, the pages come in the order of their
files. If some fail, the error is that of one of them, and it is not said which: the workers race,
and the outcome of the race is chosen from outside.
-/

namespace SiteCompiler.Build

/-- How a race ends: one of the errors of several pages is taken. -/
structure Race where
  winner : BuildError → List BuildError → BuildError
  winner_mem : ∀ first others, winner first others ∈ first :: others

namespace Race

/-- The pages in front are built first. -/
def inOrder : Race where
  winner first _ := first
  winner_mem _ _ := List.mem_cons_self

/-- The error of an outcome, if it is one. -/
def errorOf? {α : Type} : Except BuildError α → Option BuildError
  | .error e => some e
  | .ok _ => none

/-- What comes of several outcomes: all their values, or one of their errors. -/
def collect {α : Type} (race : Race) (outcomes : List (Except BuildError α)) :
    Except BuildError (List α) :=
  match outcomes.filterMap errorOf? with
  | [] => .ok (outcomes.filterMap Except.toOption)
  | first :: others => .error (race.winner first others)

end Race

end SiteCompiler.Build
