import Offside.Span
import Offside.Text.Quoted
import Offside.Token.Kind

/-!
# Tokens

A token has a kind, the span of text that it covers, and that text.  Virtual
tokens cover no text and stand where the token that follows them starts.
-/

namespace Offside

/-- A token: what it is, where it stands and how it is spelled. -/
structure Token where
  kind : TokenKind
  span : Span
  text : String
deriving DecidableEq, Repr, Inhabited

namespace Token

def virtual (kind : TokenKind) (offset : Nat) : Token :=
  ⟨kind, Span.empty offset, ""⟩

/-- The description of a token without text, and otherwise its quoted text. -/
def display (token : Token) : String :=
  if token.text.isEmpty then token.kind.description else Text.quote token.text

def textOf (tokens : List Token) : String :=
  String.join (tokens.map Token.text)

end Token

end Offside
