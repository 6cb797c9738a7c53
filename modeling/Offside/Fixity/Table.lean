import Offside.Fixity.Basic
import Offside.Text.Alphabet

/-!
# Operator tables

An operator table assigns fixities to operators, per namespace.  Looking an
operator up ignores the modules that qualify it.
-/

namespace Offside

open Offside.Text

/--
The name from the start of its current part on: `rest` is what remains to be
read, and `current` what remains from the part's first character, a capital.
-/
def unqualifiedFrom (current : List Char) : (rest : List Char) → List Char
  | [] => current
  | char :: rest =>
    if char = '.' then
      match rest with
      | [] => current
      | first :: tail =>
        if isUppercase first then unqualifiedFrom (first :: tail) (first :: tail)
        else first :: tail
    else unqualifiedFrom current rest

/-- A name or operator without the modules in front of it. -/
def unqualified (name : String) : String :=
  match name.toList with
  | [] => name
  | first :: rest =>
    if isUppercase first then String.ofList (unqualifiedFrom (first :: rest) rest) else name

/-- Fixities of operators, at most one for each operator of a namespace. -/
structure OperatorTable where
  entries : List ((Namespace × String) × Fixity) := []
deriving DecidableEq, Repr, Inhabited

namespace OperatorTable

def empty : OperatorTable :=
  {}

def stored? (table : OperatorTable) (space : Namespace) (operator : String) : Option Fixity :=
  table.entries.lookup (space, operator)

def get? (table : OperatorTable) (space : Namespace) (operator : String) : Option Fixity :=
  table.stored? space (unqualified operator)

def fixity (table : OperatorTable) (space : Namespace) (operator : String) : Fixity :=
  (table.get? space operator).getD Fixity.default

/-- Store a fixity in place of the one that the operator had. -/
def insert (table : OperatorTable) (space : Namespace) (operator : String) (fixity : Fixity) :
    OperatorTable :=
  ⟨((space, operator), fixity) ::
    table.entries.filter fun entry => entry.1 ≠ (space, operator)⟩

def size (table : OperatorTable) : Nat :=
  table.entries.length

def inNamespace (table : OperatorTable) (space : Namespace) : List (String × Fixity) :=
  (table.entries.filter fun entry => entry.1.1 = space).map fun entry => (entry.1.2, entry.2)

def insertBySpelling (entry : String × Fixity) :
    List (String × Fixity) → List (String × Fixity)
  | [] => [entry]
  | first :: rest =>
    if entry.1 < first.1 then entry :: first :: rest
    else first :: insertBySpelling entry rest

/-- The operators of a namespace sorted by their spelling. -/
def sorted (table : OperatorTable) (space : Namespace) : List (String × Fixity) :=
  (table.inNamespace space).foldr insertBySpelling []

/-- The table holds exactly the same operators and fixities as the other. -/
def agrees (table other : OperatorTable) : Bool :=
  table.sorted .value = other.sorted .value && table.sorted .type = other.sorted .type

/-- The operators that every text may use without declaring them. -/
def standardValues : List (String × Fixity) :=
  [("$", ⟨.right, 0⟩), ("#", ⟨.left, 1⟩), ("<#>", ⟨.left, 1⟩), (">>=", ⟨.left, 1⟩),
    ("=<<", ⟨.right, 1⟩), (">=>", ⟨.right, 1⟩), ("<=<", ⟨.right, 1⟩), ("||", ⟨.right, 2⟩),
    ("&&", ⟨.right, 3⟩), ("<|>", ⟨.left, 3⟩), ("==", ⟨.none, 4⟩), ("/=", ⟨.none, 4⟩),
    ("<", ⟨.left, 4⟩), (">", ⟨.left, 4⟩), ("<=", ⟨.left, 4⟩), (">=", ⟨.left, 4⟩),
    ("<$>", ⟨.left, 4⟩), ("<$", ⟨.left, 4⟩), ("$>", ⟨.left, 4⟩), ("<*>", ⟨.left, 4⟩),
    ("<*", ⟨.left, 4⟩), ("*>", ⟨.left, 4⟩), ("<@>", ⟨.left, 4⟩), ("<>", ⟨.right, 5⟩),
    ("+", ⟨.left, 6⟩), ("-", ⟨.left, 6⟩), (":", ⟨.right, 6⟩), ("/\\", ⟨.right, 6⟩),
    ("\\/", ⟨.right, 6⟩), ("*", ⟨.left, 7⟩), ("/", ⟨.left, 7⟩), ("<<<", ⟨.right, 9⟩),
    (">>>", ⟨.right, 9⟩)]

/-- The operators on types that every text may use without declaring them. -/
def standardTypes : List (String × Fixity) :=
  [("~>", ⟨.right, 4⟩), ("/\\", ⟨.right, 6⟩), ("\\/", ⟨.right, 6⟩), ("+", ⟨.right, 6⟩)]

def standard : OperatorTable :=
  ⟨standardValues.map (fun (operator, fixity) => ((.value, operator), fixity)) ++
    standardTypes.map (fun (operator, fixity) => ((.type, operator), fixity))⟩

end OperatorTable

end Offside
