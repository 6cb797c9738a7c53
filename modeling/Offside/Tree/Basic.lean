import Offside.Diagnostic
import Offside.Tree.Kind

/-!
# Syntax trees

A tree keeps everything: its leaves, read from left to right, are the tokens
of the text with its layout resolved, blanks and comments included.  A node
that stands for something malformed carries a diagnostic.
-/

namespace Offside

/-- A tree whose leaves are tokens. -/
inductive Tree where
  | leaf (token : Token)
  | node (kind : NodeKind) (span : Span) (error : Option Diagnostic) (children : List Tree)
deriving Repr, Inhabited

namespace Tree

def span : Tree → Span
  | leaf token => token.span
  | node _ span _ _ => span

def children : Tree → List Tree
  | leaf _ => []
  | node _ _ _ children => children

def error? : Tree → Option Diagnostic
  | leaf _ => none
  | node _ _ error _ => error

def kind? : Tree → Option NodeKind
  | leaf _ => none
  | node kind _ _ _ => some kind

def token? : Tree → Option Token
  | leaf token => some token
  | node _ _ _ _ => none

def isNode : Tree → Bool
  | leaf _ => false
  | node _ _ _ _ => true

def isOfKind (kind : NodeKind) (tree : Tree) : Bool :=
  tree.kind? = some kind

def childNodes (tree : Tree) : List Tree :=
  tree.children.filter isNode

def childTokens (tree : Tree) : List Token :=
  tree.children.filterMap token?

def child? (kind : NodeKind) (tree : Tree) : Option Tree :=
  tree.children.find? (isOfKind kind)

def childToken? (kind : TokenKind) (tree : Tree) : Option Token :=
  tree.childTokens.find? fun token => token.kind = kind

mutual

def leaves : Tree → List Token
  | leaf token => [token]
  | node _ _ _ children => forestLeaves children

def forestLeaves : List Tree → List Token
  | [] => []
  | tree :: rest => tree.leaves ++ forestLeaves rest

end

mutual

/-- The nodes of a tree, each in front of those below it. -/
def nodes : Tree → List Tree
  | leaf _ => []
  | node kind span error children => node kind span error children :: forestNodes children

/-- The nodes of a row of trees, each in front of those below it. -/
def forestNodes : List Tree → List Tree
  | [] => []
  | tree :: rest => tree.nodes ++ forestNodes rest

end

mutual

def weight : Tree → Nat
  | leaf _ => 1
  | node _ _ _ children => 1 + forestWeight children

def forestWeight : List Tree → Nat
  | [] => 0
  | tree :: rest => tree.weight + forestWeight rest

end

theorem forestWeight_append (left right : List Tree) :
    forestWeight (left ++ right) = forestWeight left + forestWeight right := by
  induction left with
  | nil => simp [forestWeight]
  | cons tree rest ih => simp only [List.cons_append, forestWeight, ih]; omega

end Tree

end Offside
