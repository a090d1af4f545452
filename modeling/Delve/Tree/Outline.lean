import Delve.Text.Lines
import Delve.Tree.Node
/-!
# Outlines of trees

A tree as text: one line per node, indented by two blanks for each level.
-/

namespace Delve

variable {τ π : Type}

def Repeat.text : Repeat → String
  | .times n => toString n.toNat
  | .forever => "forever"

namespace Node

def label : Node τ π → String
  | sequence _ _ => "SEQ"
  | selector _ _ => "SEL"
  | condition _ _ _ => "COND"
  | failure _ => "FAIL"
  | ignoreFailure _ _ => "SUCC"
  | repeater _ _ _ _ => "REPEAT"
  | task _ _ => "TASK"

def heading (name : τ → String) : Node τ π → String
  | task _ t => "[TASK " ++ name t ++ "]"
  | repeater _ limit _ _ => "[REPEAT " ++ limit.text ++ "]"
  | condition _ none _ => "[COND unbound]"
  | n => "[" ++ n.label ++ "]"

def indented (depth : Nat) (line : String) : String :=
  String.ofList (List.replicate (2 * depth) ' ') ++ line

mutual

/-- The lines of a subtree at a depth, the node itself first. -/
def outline (name : τ → String) (depth : Nat) : Node τ π → List String
  | n@(sequence _ cs) | n@(selector _ cs) =>
    indented depth (n.heading name) :: outlines name (depth + 1) cs
  | n@(condition _ _ (some c)) | n@(ignoreFailure _ c) | n@(repeater _ _ _ c) =>
    indented depth (n.heading name) :: outline name (depth + 1) c
  | n@(condition _ _ none) | n@(failure _) | n@(task _ _) => [indented depth (n.heading name)]

def outlines (name : τ → String) (depth : Nat) : List (Node τ π) → List String
  | [] => []
  | c :: cs => outline name depth c ++ outlines name depth cs

end

/-- The text of a subtree, which begins at the margin. -/
def describe (name : τ → String) (n : Node τ π) : String := Text.unlines (n.outline name 0)

end Node

namespace Tree

/-- The lines of a tree. The lines of its body's text stand below a heading of their own, one level
further in. -/
def outline (name : τ → String) (t : Tree τ π) : List String :=
  "[TREE]" :: t.body.elim [] fun body => (Text.lines (body.describe name)).map (Node.indented 1)

def describe (name : τ → String) (t : Tree τ π) : String :=
  Text.unlines (t.outline name)

end Tree

end Delve
