import Offside.Parse
import Offside.View.Item

/-!
# Fragments

A tool that changes a text needs the trees of small pieces of code.  Such a
piece is a fragment: its text is put into a template, the template is parsed,
and the first node of the wanted kind is taken.  Spans are those in the
template.  There is no tree if the template does not parse cleanly.
-/

namespace Offside

open Offside.View

/-- A small piece of code. -/
inductive Fragment where
  /-- The name of a module. -/
  | moduleName (name : String)
  /-- The import of a module; without items everything is imported. -/
  | importDecl (name : String) (isHiding : Bool) (items : List String) (otherName : Option String)
  /-- A value in an import list. -/
  | valueItem (name : String)
  /-- An operator in an import list. -/
  | operatorItem (operator : String)
  /-- An operator on types in an import list. -/
  | typeOperatorItem (operator : String)
  /-- A class in an import list. -/
  | classItem (name : String)
  /-- A kind in an import list. -/
  | kindItem (name : String)
  /-- A type in an import list, with some of its constructors. -/
  | dataItem (name : String) (members : Option Members)
  /-- A variable. -/
  | identifier (name : String)
  /-- An expression in parentheses. -/
  | parenthesized (expr : String)
deriving DecidableEq, Repr

namespace Fragment

def listed (texts : List String) : String :=
  "(" ++ String.intercalate ", " texts ++ ")"

def membersText : Option Members → String
  | none => ""
  | some .all => "(..)"
  | some (.listed constructors) => listed constructors

def itemsText (items : List String) : String :=
  if items.isEmpty then "" else " " ++ listed items

def otherNameText : Option String → String
  | none => ""
  | some name => " as " ++ name

def text : Fragment → String
  | moduleName name => name
  | importDecl name isHiding items otherName =>
    "import " ++ name ++ (if isHiding then " hiding" else "") ++ itemsText items ++
      otherNameText otherName
  | valueItem name => name
  | operatorItem operator => "(" ++ operator ++ ")"
  | typeOperatorItem operator => "type (" ++ operator ++ ")"
  | classItem name => "class " ++ name
  | kindItem name => "kind " ++ name
  | dataItem name members => name ++ membersText members
  | identifier name => name
  | parenthesized expr => "(" ++ expr ++ ")"

def kind : Fragment → NodeKind
  | moduleName _ => .moduleName
  | importDecl _ _ _ _ => .importDecl
  | valueItem _ => .itemValue
  | operatorItem _ => .itemOperator
  | typeOperatorItem _ => .itemTypeOperator
  | classItem _ => .itemClass
  | kindItem _ => .itemKind
  | dataItem _ _ => .itemType
  | identifier _ => .exprVar
  | parenthesized _ => .exprParens

end Fragment

end Offside
