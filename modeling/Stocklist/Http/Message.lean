/-
  Stocklist/Http/Message.lean
  ===========================
  **Requests and responses.**

  A method is any token, known or not.  A response holds its headers in the order of
  their names.
-/
import Stocklist.Http.Uri

namespace Stocklist.Http

def isTokenChar (c : Char) : Bool :=
  c.isAlphanum || "!#$%&'*+-.^_\x60|~".toList.contains c

/-- The name of a method: one or more token characters. -/
structure Method where
  name : String
  ne_empty : name.toList ≠ []
  isToken : name.toList.all isTokenChar = true
deriving DecidableEq, Repr

namespace Method

def ofName? (name : String) : Option Method :=
  if h : name.toList ≠ [] ∧ name.toList.all isTokenChar = true then some ⟨name, h.1, h.2⟩
  else none

end Method

/-- The part of a request that names what is to be done with which resource. -/
structure Request where
  method : Method
  uri : Uri
deriving DecidableEq, Repr

/-- The request that a word for the method and one for the resource make. -/
def Request.ofTexts? (method uri : String) : Option Request := do
  return ⟨← Method.ofName? method, ← Uri.ofText? uri⟩

structure Response where
  status : Nat
  /-- Names in small letters, in ascending order. -/
  headers : List (String × String)
  body : String
deriving DecidableEq, Repr

end Stocklist.Http
