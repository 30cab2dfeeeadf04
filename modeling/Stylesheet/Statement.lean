/-
The statements of a stylesheet.

* `Statement`: raw text, a rule or a media block;
* `Tree.statements`: the statements of a tree, with selectors put together on the way down;
* `Statement.css`, `Plan.css`: their text.

The text of a global scope comes before its rules. Selectors start anew in a global scope and in a
media block, because the scopes there bring whole selectors. A scope without declarations writes
nothing of its own.
-/
import Stylesheet.Plan.Tree

namespace Stylesheet

/-- A statement of a stylesheet. -/
inductive Statement where
  /-- At-rules and animations, complete as they are. -/
  | raw (text : String)
  /-- Declarations for a selector. -/
  | rule (selector : String) (declarations : List String)
  /-- Statements under a prelude. -/
  | media (target : String) (body : List Statement)

/-! ### From trees -/

namespace Tree

/-- The rule of a scope, if it has declarations. -/
def rule (selector : String) (declarations : List String) : List Statement :=
  if declarations.isEmpty then [] else [.rule selector declarations]

mutual

/-- The statements of a tree whose selectors go on from the given one. -/
def statements (outer : String) : Tree → List Statement
  | .node _ s ts =>
    match s.kind with
    | .global => s.declarations.map .raw ++ statementsAll "" ts
    | .media => [.media s.fragment (statementsAll "" ts)]
    | _ =>
      rule (outer ++ s.fragment) s.declarations
        ++ statementsAll (outer ++ s.fragment) ts

/-- The statements of some trees, one tree after another. -/
def statementsAll (outer : String) : List Tree → List Statement
  | [] => []
  | t :: ts => statements outer t ++ statementsAll outer ts

end

end Tree

/-- The statements of a plan. -/
def Plan.statements (plan : Plan) : List Statement :=
  plan.tree.statements ""

/-! ### Text -/

mutual

/-- The text of a statement. -/
def Statement.css : Statement → String
  | .raw text => text
  | .rule selector declarations =>
    selector ++ " \x7b" ++ ";".intercalate declarations ++ "\x7d"
  | .media target body => target ++ "\x7b" ++ Statement.cssAll body ++ "\x7d"

/-- The text of some statements, one after another. -/
def Statement.cssAll : List Statement → String
  | [] => ""
  | s :: rest => s.css ++ Statement.cssAll rest

end

/-- The stylesheet of a plan. -/
def Plan.css (plan : Plan) : String :=
  Statement.cssAll plan.statements

end Stylesheet
