import Offside.Token.Basic

/-!
# Diagnostics

A diagnostic says what is wrong, what would have been right, what was found
instead, where, and where reading resumed.  No diagnostic stops a parse.
-/

namespace Offside

/-- Fixities that contradict each other or are not known. -/
inductive FixityFault where
  | nonAssociative (operator : String)
  | mixedAssociativity (left right : String)
  | unknownOperator (operator : String)
  | conflictingFixity (operator : String)
deriving DecidableEq, Repr

namespace FixityFault

def name : FixityFault → String
  | nonAssociative _ => "NonAssociative"
  | mixedAssociativity _ _ => "MixedAssociativity"
  | unknownOperator _ => "UnknownOperator"
  | conflictingFixity _ => "ConflictingFixity"

def message : FixityFault → String
  | nonAssociative operator =>
    "operator `" ++ operator ++ "` is non-associative and cannot be chained"
  | mixedAssociativity left right =>
    "cannot mix `" ++ left ++ "` and `" ++ right ++
      "`: same precedence, different associativity"
  | unknownOperator operator =>
    "operator `" ++ operator ++ "` has no known fixity, assuming infixl 9"
  | conflictingFixity operator => "conflicting fixity declarations for `" ++ operator ++ "`"

end FixityFault

/-- What is wrong. -/
inductive Cause where
  | lex (fault : LexFault)
  | layout (fault : LayoutFault)
  | syntactic
  | fixity (fault : FixityFault)
deriving DecidableEq, Repr

namespace Cause

def code : Cause → String
  | lex fault => "LexError." ++ fault.name
  | layout fault => "LayoutError." ++ fault.name
  | syntactic => "SyntaxError"
  | fixity fault => "OperatorAmbiguity." ++ fault.name

def message : Cause → String
  | lex fault => fault.message
  | layout fault => fault.message
  | syntactic => "syntax error"
  | fixity fault => fault.message

def ofMisfit : TokenKind → Cause
  | .error fault => lex fault
  | _ => syntactic

end Cause

/-- What stood where something was wrong. -/
inductive Found where
  | token (kind : TokenKind) (text : String)
  | endOfFile
deriving DecidableEq, Repr

/-- The description of what was found, with its text if it has one. -/
def Found.display : Found → String
  | .token kind text =>
    if text.isEmpty then kind.description else kind.description ++ " " ++ Text.quote text
  | .endOfFile => "end of file"

/--
A report of something wrong.  The span covers what was skipped because of it,
and `recovery` is the offset where reading resumed.
-/
structure Diagnostic where
  cause : Cause
  /-- What would have been right, in ascending order. -/
  expected : List TokenKind
  found : Found
  span : Span
  recovery : Nat
deriving DecidableEq, Repr

namespace Diagnostic

def code (diagnostic : Diagnostic) : String :=
  diagnostic.cause.code

/-- The list of what would have been right, as part of the message. -/
def expectation (diagnostic : Diagnostic) : String :=
  if diagnostic.expected.isEmpty then ""
  else ": expected " ++ String.intercalate ", " (diagnostic.expected.map TokenKind.description)

def message (diagnostic : Diagnostic) : String :=
  diagnostic.cause.message ++ diagnostic.expectation ++ ", found " ++ diagnostic.found.display

end Diagnostic

end Offside
