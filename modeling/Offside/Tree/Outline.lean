import Offside.Tree.Walk

/-!
# Outlines

The outline of a tree has one line for each node and each token other than
blanks and comments, indented by depth.
-/

namespace Offside.Tree

def indent (depth : Nat) : String :=
  String.join (List.replicate depth "  ")

/-- The line of a node: its kind, its span, and the code of its diagnostic. -/
def nodeLine (depth : Nat) (kind : NodeKind) (span : Span) (error : Option Diagnostic) :
    String :=
  indent depth ++ kind.name ++ "@" ++ span.display ++
    (match error with
    | some diagnostic => " " ++ diagnostic.code
    | none => "")

/-- The line of a token: its kind, its span, and its text if it has one. -/
def tokenLine (depth : Nat) (token : Token) : String :=
  indent depth ++ token.kind.name ++ "@" ++ token.span.display ++
    (if token.text.isEmpty then "" else " " ++ Text.quote token.text)

/-- The line of a token, unless it is a blank or a comment. -/
def tokenLines (depth : Nat) (token : Token) : List String :=
  if token.kind.isTrivia then [] else [tokenLine depth token]

mutual

def lines (depth : Nat) : Tree → List String
  | leaf token => tokenLines depth token
  | node kind span error children =>
    nodeLine depth kind span error :: forestLines (depth + 1) children

/-- The lines of a row of trees whose roots are at a depth. -/
def forestLines (depth : Nat) : List Tree → List String
  | [] => []
  | tree :: rest => tree.lines depth ++ forestLines depth rest

end

/--
The number of steps that a stack of rows still needs: one for each row and two
for each node or leaf.
-/
def rowsWeight : List (List Tree × Nat) → Nat
  | [] => 0
  | row :: stack => 1 + 2 * forestWeight row.1 + rowsWeight stack

/-- Visit a stack of rows of trees, each at its depth, and gather their lines. -/
def gatherLines (found : Array String) : (stack : List (List Tree × Nat)) → Array String
  | [] => found
  | ([], _) :: stack => gatherLines found stack
  | (leaf token :: row, depth) :: stack =>
    gatherLines (found ++ (tokenLines depth token).toArray) ((row, depth) :: stack)
  | (node kind span error children :: row, depth) :: stack =>
    gatherLines (found.push (nodeLine depth kind span error))
      ((children, depth + 1) :: (row, depth) :: stack)
termination_by stack => rowsWeight stack
decreasing_by
  · simp only [rowsWeight]; omega
  · simp only [rowsWeight, forestWeight, weight]; omega
  · simp only [rowsWeight, forestWeight, weight]; omega

/-- The outline of a tree, each line closed by an end of line. -/
def outline (tree : Tree) : String :=
  String.join ((gatherLines #[] [([tree], 0)]).toList.map (· ++ "\n"))

end Offside.Tree
