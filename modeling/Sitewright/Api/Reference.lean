import Sitewright.Api.Authority

/-!
References to resources: a scheme, an authority, a path and a query, of which all but the path may
be missing. A fragment after a number sign is not part of what is referred to.
-/

namespace Sitewright.Api

structure Reference where
  scheme : List Char
  authority : List Char
  path : List Char
  query : List Char
  deriving DecidableEq, Repr

namespace Reference

/-- Control characters and spaces do not count at the beginning. -/
def isMargin (c : Char) : Bool := c.toNat ≤ 0x20

/-- Tabs and the ends of lines do not count anywhere. -/
def isIgnored (c : Char) : Bool := c = '\t' || c = '\n' || c = '\r'

def isSchemeChar (c : Char) : Bool := c.isAlphanum || c = '+' || c = '-' || c = '.'

def cutScheme (cs : List Char) : List Char × List Char :=
  match cs.takeWhile isSchemeChar, cs.dropWhile isSchemeChar with
  | c :: name, ':' :: rest => if c.isAlpha then (c :: name, rest) else ([], cs)
  | _, _ => ([], cs)

def endsAuthority (c : Char) : Bool := c = '/' || c = '?' || c = '#'

def cutAuthority : List Char → List Char × List Char
  | '/' :: '/' :: rest =>
    (rest.takeWhile (!endsAuthority ·), rest.dropWhile (!endsAuthority ·))
  | cs => ([], cs)

def ofText (text : List Char) : Except Error Reference :=
  let (scheme, rest) := cutScheme ((text.dropWhile isMargin).filter (!isIgnored ·))
  let (authority, rest) := cutAuthority rest
  let (path, query) := Authority.cut '?' (Authority.cut '#' rest).1
  if Authority.isWellFormed authority then .ok { scheme, authority, path, query }
  else .error .targetMalformed

def pathAndQuery (reference : Reference) : List Char :=
  reference.path ++ if reference.query.isEmpty then [] else '?' :: reference.query

/-- The reference as it is written, its authority in the usual form. The query is left out. -/
def normalized (reference : Reference) : Except Error (List Char) := do
  let authority ← (Authority.ofText reference.authority).normalized
  let scheme := if reference.scheme.isEmpty then [] else reference.scheme ++ [':']
  let authority := if authority.isEmpty then [] else '/' :: '/' :: authority
  return scheme ++ authority ++ reference.path

end Reference

end Sitewright.Api
