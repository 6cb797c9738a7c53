import Offside.Tree.Walk

/-!
# Items

What the entries of import and export lists say.  A malformed entry lacks
what cannot be read off it.
-/

namespace Offside.View

/-- The first token under a tree that passes the test, blanks and comments aside. -/
def firstText? (test : TokenKind → Bool) (tree : Tree) : Option String :=
  (tree.significantTokens.find? fun token => test token.kind).map Token.text

def isOperator : TokenKind → Bool
  | .operator | .qualifiedOperator | .colon => true
  | _ => false

/-- The name of the module that stands right below a tree. -/
def moduleName? (tree : Tree) : Option String :=
  (tree.child? .moduleName).map Tree.text

/-- What an item is. -/
inductive ItemKind where
  | value
  | operator
  | type
  | typeOperator
  | typeClass
  | kind
  /-- A module in an export list. -/
  | wholeModule
deriving DecidableEq, Repr

def ItemKind.ofNode? : NodeKind → Option ItemKind
  | .itemValue => some .value
  | .itemOperator => some .operator
  | .itemType => some .type
  | .itemTypeOperator => some .typeOperator
  | .itemClass => some .typeClass
  | .itemKind => some .kind
  | .itemModule => some .wholeModule
  | _ => none

def ItemKind.nameIn? (item : ItemKind) (tree : Tree) : Option String :=
  match item with
  | .value => firstText? (· = .lowerName) tree
  | .operator | .typeOperator => firstText? isOperator tree
  | .type | .typeClass | .kind => firstText? (· = .upperName) tree
  | .wholeModule => moduleName? tree

/-- The constructors that come with a type. -/
inductive Members where
  | all
  | listed (constructors : List String)
deriving DecidableEq, Repr

/-- The constructors that the node of an item names, if it speaks of any. -/
def Members.ofTree? (tree : Tree) : Option Members :=
  (tree.child? .dataMembers).map fun members =>
    if (members.childToken? .doubleDot).isSome then all
    else
      listed ((members.childTokens.filter fun token => token.kind = .upperName).map Token.text)

/-- An entry of an import or export list. -/
structure Item where
  kind : ItemKind
  name : Option String
  members : Option Members
  span : Span
deriving DecidableEq, Repr

def Item.ofTree? (tree : Tree) : Option Item :=
  (tree.kind?.bind ItemKind.ofNode?).map fun item =>
    { kind := item
      name := item.nameIn? tree
      members := Members.ofTree? tree
      span := tree.span }

def Item.ofList (tree : Tree) : List Item :=
  tree.childNodes.filterMap ofTree?

end Offside.View
