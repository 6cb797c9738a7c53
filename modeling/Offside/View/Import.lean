import Offside.View.Item

/-!
# Headers and imports

What the header of a module and its imports say.
-/

namespace Offside.View

/-- The header of a module. -/
structure Header where
  name : Option String
  /-- What is exported; without a list that is everything. -/
  exports : Option (List Item)
  span : Span
deriving DecidableEq, Repr

def Header.ofModule? (root : Tree) : Option Header :=
  (root.child? .moduleHeader).map fun header =>
    { name := moduleName? header
      exports := (header.child? .exportList).map Item.ofList
      span := header.span }

/-- The import of a module. -/
structure Import where
  moduleName : Option String
  /-- The other name that the module gets. -/
  otherName : Option String
  /-- The listed items are those that are left out. -/
  isHiding : Bool
  /-- The node of the list of items. -/
  list : Option Tree
  span : Span
deriving Repr

namespace Import

def ofTree? (tree : Tree) : Option Import :=
  if tree.isOfKind .importDecl then
    some
      { moduleName := moduleName? tree
        otherName := (tree.child? .importAlias).bind moduleName?
        isHiding :=
          tree.childTokens.any fun token => token.kind = .lowerName && token.text = "hiding"
        list := tree.child? .importList
        span := tree.span }
  else none

def ofModule (root : Tree) : List Import :=
  root.childNodes.filterMap ofTree?

def items (decl : Import) : List Item :=
  (decl.list.map Item.ofList).getD []

def names (decl : Import) : List String :=
  decl.items.filterMap Item.name

/-- The name by which the module goes: the other name, or else its own. -/
def name (decl : Import) : Option String :=
  decl.otherName <|> decl.moduleName

end Import

end Offside.View
