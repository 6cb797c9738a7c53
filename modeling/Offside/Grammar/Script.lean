import Offside.Fixity.Basic
import Offside.Tree.Trail

/-!
# Scripts

A grammar is written as scripts: small programs that look at the tokens ahead
and say which nodes to open around which tokens.  A script sees of a token
only its kind and its text, never where it stands, and every node that it
opens it also closes.

Recursion is explicit.  A script calls a rule by name, and a loop is a script
that is run again and again with the state that it left behind.
-/

namespace Offside.Grammar

/-- What a script sees of a token. -/
structure Sight where
  kind : TokenKind
  text : String
deriving DecidableEq, Repr

/-- The three grammars that are built from operator chains. -/
inductive Level where
  | expr
  | binder
  | type
deriving DecidableEq, Repr

/-- An operator that has been seen in a chain. -/
structure ChainOperator where
  name : String
  fixity : Fixity
deriving DecidableEq, Repr

/-- The rules that call each other. -/
inductive Rule where
  /-- An expression with an optional type. -/
  | expr
  /-- An operand in a chain of an expression. -/
  | operand
  /--
  A chain of operators that bind at least as tightly as `least`.  It is the
  right operand of `parent`, if there is one.
  -/
  | chain (level : Level) (least : Nat) (parent : Option ChainOperator)
  /-- The new values of the fields of a record. -/
  | update
  /-- A binder with an optional type. -/
  | binder
  /-- A binder that needs no brackets. -/
  | binderAtom
  /-- A type. -/
  | type
  /-- A declaration inside another declaration. -/
  | localDecl
deriving DecidableEq, Repr

/-- A program that reads tokens, opens and closes nodes, and reports what is missing. -/
inductive Script : Type → Type 1 where
  /-- Do nothing but answer. -/
  | result {α : Type} (value : α) : Script α
  /-- One script after the other. -/
  | andThen {α β : Type} (first : Script α) (next : α → Script β) : Script β
  /-- Look at a token ahead. -/
  | peek (ahead : Nat) : Script Sight
  /--
  Look for a wanted token ahead, outside brackets and blocks opened on the
  way, before the current item ends or one of the stops comes.
  -/
  | search (wanted : Sight → Bool) (stops : List TokenKind) : Script Bool
  /-- How many tokens have been taken. -/
  | position : Script Nat
  /-- Brackets are open. -/
  | insideBrackets : Script Bool
  /-- What a diagnostic says about the token ahead. -/
  | sighting : Script Found
  /-- Take the token ahead, and the trivia in front of it. -/
  | bump : Script Unit
  /-- Report something missing at the place reached. -/
  | report (cause : Cause) (expected : List TokenKind) : Script Unit
  /-- Take what the body takes as something that fits nowhere. -/
  | fault (cause : Cause) (expected : List TokenKind) (body : Script Unit) : Script Unit
  /-- Put the node closed last into a node that reports the cause. -/
  | blame (cause : Cause) (found : Found) : Script Unit
  /-- A node of the kind that its body answers; without a kind there is no node. -/
  | node (body : Script (Option NodeKind)) : Script Bool
  /-- A node around the node closed last and what the body adds. -/
  | wrap (kind : NodeKind) (body : Script Unit) : Script Unit
  /-- Go one level deeper, unless that is too deep; the answer says whether it was done. -/
  | deepen : Script Bool
  /-- Go back up one level, if there is one. -/
  | leave : Script Unit
  /-- Run a round until it says that it is done. -/
  | loop {σ : Type} (state : σ) (round : σ → Script (ForInStep σ)) : Script σ
  /-- Run a rule; the answer says whether it left a finished node. -/
  | call (rule : Rule) : Script Bool
  /-- The fixity of an operator, if it is known. -/
  | lookup (space : Namespace) (operator : String) : Script (Option Fixity)
  /-- Unknown operators are to be reported. -/
  | reportsUnknown : Script Bool
  /-- Declare a fixity; the answer says whether it contradicts an earlier one. -/
  | declare (space : Namespace) (operator : String) (fixity : Fixity) : Script Bool
  /-- Forget the brackets that are open. -/
  | forgetBrackets : Script Unit
  /-- Ask whether to give up. -/
  | poll : Script Bool

instance : Monad Script where
  pure := Script.result
  bind := Script.andThen

end Offside.Grammar
