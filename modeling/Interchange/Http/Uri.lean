/-! # Where a request may be sent

An address is checked before anything is sent: its authority, which ends at the first slash, question
mark or hash, and the path and query behind it.
-/

namespace Interchange.Http

/-- What is wrong with an address. -/
inductive UriFault where
  | character
  | authority
  | format
deriving DecidableEq, Repr

namespace UriFault

/-- The text of a fault. -/
def message : UriFault → String
  | .character => "invalid uri character"
  | .authority => "invalid authority"
  | .format => "invalid format"

end UriFault

/-- The characters that end an authority. -/
def endsAuthority (c : Char) : Bool := c = '/' || c = '?' || c = '#'

/-- The characters of an authority. The percent sign belongs to user information only. -/
def isAuthorityChar (c : Char) : Bool :=
  c.isAlphanum || "!$&'()*+,-.:;=@[]_~%".toList.contains c

/-- The characters of a path, any beyond ASCII among them. -/
def isPathChar (c : Char) : Bool :=
  0x21 ≤ c.toNat && !(['#', '<', '>', '?', '\x60', '\x7f'].contains c)

/-- The characters of a query, any beyond ASCII among them. -/
def isQueryChar (c : Char) : Bool :=
  0x21 ≤ c.toNat && !(['\"', '#', '<', '>', '\x7f'].contains c)

/-- What is counted while an authority is read. -/
structure AuthorityScan where
  colons : Nat := 0
  opened : Bool := false
  closed : Bool := false
  percent : Bool := false
deriving DecidableEq, Repr

/-- Read a character of an authority. User information and a bracketed address may hold colons. -/
def AuthorityScan.read (s : AuthorityScan) (c : Char) : Except UriFault AuthorityScan :=
  if !isAuthorityChar c then .error .character
  else
    match c with
    | ':' => if 8 ≤ s.colons then .error .authority else .ok { s with colons := s.colons + 1 }
    | '[' => if s.percent || s.opened then .error .authority else .ok { s with opened := true }
    | ']' =>
      if !s.opened || s.closed then .error .authority
      else .ok { s with closed := true, colons := 0, percent := false }
    | '@' => .ok { s with colons := 0, percent := false }
    | '%' => .ok { s with percent := true }
    | _ => .ok s

/-- Check an authority. -/
def checkAuthority (cs : List Char) : Except UriFault Unit := do
  let s ← cs.foldlM AuthorityScan.read {}
  if s.opened != s.closed || 1 < s.colons || cs.getLast? = some '@' || s.percent then
    .error .authority
  else if cs.isEmpty then .error .format
  else .ok ()

/-- Check a path and the query behind it. What follows a hash does not matter. -/
def checkPath (cs : List Char) : Except UriFault Unit :=
  let sent := cs.takeWhile (· ≠ '#')
  let path := sent.takeWhile (· ≠ '?')
  let query := (sent.dropWhile (· ≠ '?')).drop 1
  if path.all isPathChar && query.all isQueryChar then .ok () else .error .character

/-- Check an address behind its scheme. -/
def checkUri (address : String) : Except UriFault Unit := do
  checkAuthority (address.toList.takeWhile (!endsAuthority ·))
  checkPath (address.toList.dropWhile (!endsAuthority ·))

/-- Holds of a text that may stand in a header. -/
def isHeaderValue (s : String) : Bool :=
  s.toList.all fun c ↦ c = '\t' || (0x20 ≤ c.toNat && c ≠ '\x7f')

end Interchange.Http
