/-
Scopes of a stylesheet.

* `Kind`: what a scope contributes to the output;
* `Scope`: a scope with its declarations, and the numbers of the scopes around it and under it;
* `Scope.adopt`, `Scope.declare`: the two ways in which a scope changes after it was entered.

Scopes have numbers, by the order in which they were entered. A scope lists the scopes under it in
that order, and finds each of them by its fragment.
-/

namespace Stylesheet

/-- What a scope contributes to the output. -/
inductive Kind where
  /-- A rule at the top of the stylesheet or in a media block. -/
  | element
  /-- A selector appended to that of the scope around it. -/
  | nested
  /-- A media block. -/
  | media
  /-- A rule whose selector is written as it stands. -/
  | mixin
  /-- The stylesheet itself. -/
  | global
  deriving DecidableEq, Repr

/-- A kind as plans name it. -/
def Kind.name : Kind → String
  | .element => "element"
  | .nested => "nested"
  | .media => "media"
  | .mixin => "mixin"
  | .global => "global"

/-- A scope of a plan. Its fragment is its part of a selector, or the prelude of a media block. -/
structure Scope where
  kind : Kind
  fragment : String
  /-- The number of the scope around it. -/
  parent : Option Nat := none
  /-- The numbers of the scopes right under it, in the order in which they were entered. -/
  children : List Nat := []
  /-- The numbers of the scopes right under it by their fragments, the last one first. -/
  index : List (String × Nat) := []
  declarations : List String := []
  deriving DecidableEq, Repr

namespace Scope

/-- A scope with a further scope under it. -/
def adopt (s : Scope) (fragment : String) (number : Nat) : Scope :=
  { s with children := s.children ++ [number], index := (fragment, number) :: s.index }

/-- A scope with a further declaration. -/
def declare (s : Scope) (declaration : String) : Scope :=
  { s with declarations := s.declarations ++ [declaration] }

end Scope

end Stylesheet
