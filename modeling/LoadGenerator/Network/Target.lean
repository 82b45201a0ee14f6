/-!
# Request targets

A request over HTTP names a method and a target. A target is a path with an optional query, an authority alone, an asterisk, or a whole address with a scheme; a fragment at its end is left out. What is asked for depends on the path alone.
-/

namespace LoadGenerator.Network

def isMethodChar (c : Char) : Bool := c.isAlphanum || "!#$%&'*+-.^_`|~".toList.contains c

def isMethod (text : String) : Bool := !text.isEmpty && text.toList.all isMethodChar

def longestTarget : Nat := 65534

def longestScheme : Nat := 64

/-- A character that stands for itself in a path. -/
def isPathChar (c : Char) : Bool := decide (' ' < c) && !"#<>?`".toList.contains c

/-- A character that stands for itself in a query. -/
def isQueryChar (c : Char) : Bool := decide (' ' < c) && !"\"#<>".toList.contains c

def isSchemeChar (c : Char) : Bool := c.isAlphanum || "+-.~".toList.contains c

/-- A character that stands for itself in an authority. -/
def isAuthorityChar (c : Char) : Bool := c.isAlphanum || "!$&'()*+,-.:;=@[]_~".toList.contains c

def endsAuthority (c : Char) : Bool := c == '/' || c == '?' || c == '#'

/-- What an authority has had from its start. Colons and percent signs before an at sign belong to the user and those between brackets to the host, so both are forgotten there. -/
structure AuthorityScan where
  colons : Nat := 0
  opened : Bool := false
  closed : Bool := false
  percent : Bool := false
  /-- Whether the last character is an at sign. -/
  endsWithUser : Bool := false

namespace AuthorityScan

/-- Goes past one character, if it can stand there. -/
def next (scan : AuthorityScan) (c : Char) : Option AuthorityScan :=
  let scan := { scan with endsWithUser := c == '@' }
  if c = ':' then if scan.colons < 8 then some { scan with colons := scan.colons + 1 } else none
  else if c = '[' then if scan.percent || scan.opened then none else some { scan with opened := true }
  else if c = ']' then
    if !scan.opened || scan.closed then none else some { scan with closed := true, colons := 0, percent := false }
  else if c = '@' then some { scan with colons := 0, percent := false }
  else if c = '%' then some { scan with percent := true }
  else if isAuthorityChar c then some scan
  else none

def complete (scan : AuthorityScan) : Bool :=
  scan.opened == scan.closed && decide (scan.colons ≤ 1) && !scan.percent && !scan.endsWithUser

end AuthorityScan

/-- Whether a text is a user, a host and a number of a service, of which the host is never left out. -/
def isAuthority (cs : List Char) : Bool :=
  !cs.isEmpty && (cs.foldlM AuthorityScan.next {}).any AuthorityScan.complete

/-- The path in front of an optional query and an optional fragment. -/
def readPath? (cs : List Char) : Option (List Char) :=
  let endsPath (c : Char) : Bool := c == '?' || c == '#'
  let path := cs.takeWhile fun c => !endsPath c
  let query := match cs.dropWhile fun c => !endsPath c with
    | '?' :: rest => rest.takeWhile (· != '#')
    | _ => []
  if path.all isPathChar && query.all isQueryChar then some path else none

/-- A scheme and what follows its colon and slashes, where a text starts with one. -/
def splitScheme? (cs : List Char) : Option (List Char × List Char) :=
  match cs.dropWhile isSchemeChar with
  | ':' :: '/' :: '/' :: rest => some (cs.takeWhile isSchemeChar, rest)
  | _ => none

/-- The path of a target: empty for an authority alone, and a slash where an address ends with its authority. Nothing where the text is no target. -/
def targetPath? (target : String) : Option String :=
  let cs := target.toList
  if longestTarget < target.utf8ByteSize then none
  else if cs = ['*'] then some target
  else if cs.head? = some '/' then (readPath? cs).map String.ofList
  else
    match splitScheme? cs with
    | none => if isAuthority cs then some "" else none
    | some (scheme, rest) =>
      if longestScheme < scheme.length || !isAuthority (rest.takeWhile fun c => !endsAuthority c) then none
      else (readPath? (rest.dropWhile fun c => !endsAuthority c)).map fun path =>
        if path.isEmpty then "/" else String.ofList path

end LoadGenerator.Network
