import SiteCompiler.Stylesheet.Token
set_option autoImplicit false

/-! # Selectors

A selector is a chain of compounds: each compound is one or more simple selectors written without a
blank, and two compounds are joined by a combinator. Reading accepts only well-formed selectors;
the shortest text leaves out blanks, a universal selector in front of other simple selectors, and
the second colon of the pseudo-elements that may be written with one.
-/

namespace SiteCompiler.Stylesheet

/-- How two compounds of a selector are related. -/
inductive Combinator where
  | descendant
  | child
  | nextSibling
  | laterSibling
  deriving DecidableEq, Repr

/-- A simple selector. -/
inductive SimpleSelector where
  | universal
  | element (name : List Char)
  | className (name : List Char)
  | identifier (name : List Char)
  | pseudoClass (name : List Char)
  | pseudoElement (name : List Char)
  deriving DecidableEq, Repr

/-- A selector: its first compound and those that follow, each with its combinator. -/
structure Selector where
  first : List SimpleSelector
  rest : List (Combinator × List SimpleSelector)
  deriving DecidableEq, Repr

namespace Combinator

/-- The text of a combinator. -/
def text : Combinator → List Char
  | descendant => [' ']
  | child => ['>']
  | nextSibling => ['+']
  | laterSibling => ['~']

/-- The combinator that a token stands for. -/
def ofToken? : Token → Option Combinator
  | .space => some descendant
  | .mark '>' => some child
  | .mark '+' => some nextSibling
  | .mark '~' => some laterSibling
  | _ => none

/-- The combinator that two neighbouring ones amount to: a blank beside another one is nothing. -/
def merge? : Combinator → Combinator → Option Combinator
  | descendant, c => some c
  | c, descendant => some c
  | _, _ => none

end Combinator

namespace SimpleSelector

/-- The pseudo-elements that can be written with one colon. -/
def singleColonNames : List String := ["before", "after", "first-line", "first-letter"]

/-- Whether a pseudo-element can be written with one colon. -/
def hasSingleColon (name : List Char) : Bool := singleColonNames.contains (String.ofList name)

/-- The text of a simple selector. -/
def text : SimpleSelector → List Char
  | universal => ['*']
  | element name => name
  | className name => '.' :: name
  | identifier name => '#' :: name
  | pseudoClass name => ':' :: name
  | pseudoElement name => if hasSingleColon name then ':' :: name else ':' :: ':' :: name

/-- Whether the simple selector can only stand first in a compound. -/
def standsFirst : SimpleSelector → Bool
  | universal => true
  | element _ => true
  | _ => false

end SimpleSelector

namespace Selector

/-- A selector in reading: the simple selectors before the first combinator, and the rest. -/
abbrev Partial : Type :=
  List SimpleSelector × List (Combinator × List SimpleSelector)

/-- Puts a simple selector in front. -/
def consSimple (simple : SimpleSelector) (tail : Partial) : Partial :=
  (simple :: tail.1, tail.2)

/-- Puts a combinator in front. A blank at the end is nothing; any other combinator has to have a
compound behind it. -/
def consCombinator? (combinator : Combinator) : Partial → Option Partial
  -- Nothing follows.
  | ([], []) => if combinator = .descendant then some ([], []) else none
  -- Another combinator follows right away.
  | ([], (next, compound) :: rest) =>
      (combinator.merge? next).map fun merged => ([], (merged, compound) :: rest)
  | (compound, rest) => some ([], (combinator, compound) :: rest)

/-- Reads simple selectors and combinators. -/
def read? : List Token → Option Partial
  | [] => some ([], [])
  | .mark '.' :: .name name :: rest => (read? rest).map (consSimple (.className name))
  | .mark '#' :: .name name :: rest => (read? rest).map (consSimple (.identifier name))
  | .mark ':' :: .mark ':' :: .name name :: rest =>
      (read? rest).map (consSimple (.pseudoElement name))
  | .mark ':' :: .name name :: rest =>
      (read? rest).map (consSimple
        (if SimpleSelector.hasSingleColon name then .pseudoElement name else .pseudoClass name))
  | .mark '*' :: rest => (read? rest).map (consSimple .universal)
  | .name name :: rest => (read? rest).map (consSimple (.element name))
  | token :: rest => do
      let combinator ← Combinator.ofToken? token
      consCombinator? combinator (← read? rest)

/-- Whether a compound has a simple selector and an element or `*` at most in front. -/
def isCompound (compound : List SimpleSelector) : Bool :=
  !compound.isEmpty && compound.tail.all fun simple => !simple.standsFirst

/-- The selector that tokens stand for. -/
def ofTokens? (tokens : List Token) : Option Selector := do
  let (first, rest) ← read? (Token.trim tokens)
  if isCompound first && rest.all (fun part => isCompound part.2) then some ⟨first, rest⟩
  else none

/-- The selectors of a list separated by commas. -/
def listOfTokens? (tokens : List Token) : Option (List Selector) :=
  (tokens.splitOn (.mark ',')).mapM ofTokens?

/-- The text of a compound. -/
def compoundText : List SimpleSelector → List Char
  | .universal :: simple :: rest => (simple :: rest).flatMap SimpleSelector.text
  | compound => compound.flatMap SimpleSelector.text

/-- The shortest text of a selector. -/
def text (selector : Selector) : List Char :=
  compoundText selector.first
    ++ selector.rest.flatMap fun part => part.1.text ++ compoundText part.2

end Selector

end SiteCompiler.Stylesheet
