import ImageLabeling.Text.Utf8

/-!
# Collector endpoints

Traces and measurements can be sent to a collector, whose endpoint is a URI: a host alone, or a
scheme, a host and an optional path. `checkEndpoint` finds the first thing wrong with a text that
is none.
-/

namespace ImageLabeling.Logging

/-- Why a text is no URI. -/
inductive EndpointFault
  | empty
  | tooLong
  | schemeTooLong
  | invalidCharacter
  | invalidAuthority
  | invalidFormat
  deriving DecidableEq, Repr

namespace EndpointFault

/-- The wording of a fault. -/
def reason : EndpointFault → String
  | empty => "empty string"
  | tooLong => "uri too long"
  | schemeTooLong => "scheme too long"
  | invalidCharacter => "invalid uri character"
  | invalidAuthority => "invalid authority"
  | invalidFormat => "invalid format"

/-- What is said about an endpoint with a fault. -/
def message (endpoint : String) (fault : EndpointFault) : String :=
  s!"invalid URI {endpoint}. Reason {fault.reason}"

end EndpointFault

/-- Whether a byte is an ASCII letter or digit. -/
def isAlphanumericByte (b : UInt8) : Bool :=
  (0x30 ≤ b && b ≤ 0x39) || (0x41 ≤ b && b ≤ 0x5a) || (0x61 ≤ b && b ≤ 0x7a)

/-- Whether a byte may stand in a URI outside of paths. -/
def isUriByte (b : UInt8) : Bool :=
  isAlphanumericByte b || (Utf8.encode "!#$&'()*+,-./:;=?@[]_~").contains b

/-- Whether a byte may stand in a scheme. -/
def isSchemeByte (b : UInt8) : Bool :=
  isAlphanumericByte b || (Utf8.encode "+-.~").contains b

/-- The length of a URI from which on it is too long. -/
def maxUriLength : Nat := 65535

/-- The longest scheme. -/
def maxSchemeLength : Nat := 64

/-- What follows the scheme and its two slashes, or nothing if there is no scheme. -/
def afterScheme (bytes : List UInt8) : Except EndpointFault (Option (List UInt8)) :=
  let scheme := bytes.takeWhile isSchemeByte
  match bytes.drop scheme.length with
  | 0x3a :: 0x2f :: 0x2f :: rest =>
    if maxSchemeLength < scheme.length then .error .schemeTooLong else .ok (some rest)
  | _ => .ok none

/-- What has been seen of an authority. -/
structure Authority where
  colons : Nat := 0
  opened : Bool := false
  closed : Bool := false
  percent : Bool := false
  /-- Whether the last byte was an at sign. -/
  atSign : Bool := false

/-- Reads an authority up to the first slash, question mark or number sign, and gives back the
bytes from there on. -/
def readAuthority (seen : Authority) : List UInt8 → Except EndpointFault (List UInt8)
  | [] => finish []
  | b :: rest =>
    if b = 0x2f ∨ b = 0x3f ∨ b = 0x23 then finish (b :: rest)
    else if b = 0x3a then
      if 8 ≤ seen.colons then .error .invalidAuthority
      else readAuthority { seen with colons := seen.colons + 1, atSign := false } rest
    else if b = 0x5b then
      if seen.percent || seen.opened then .error .invalidAuthority
      else readAuthority { seen with opened := true, atSign := false } rest
    else if b = 0x5d then
      if !seen.opened || seen.closed then .error .invalidAuthority
      else
        readAuthority
          { seen with closed := true, colons := 0, percent := false, atSign := false } rest
    else if b = 0x40 then
      readAuthority { seen with colons := 0, percent := false, atSign := true } rest
    else if b = 0x25 then readAuthority { seen with percent := true, atSign := false } rest
    else if isUriByte b then readAuthority { seen with atSign := false } rest
    else .error .invalidCharacter
where
  /-- Accepts the authority that has been read, before the bytes `rest`. -/
  finish (rest : List UInt8) : Except EndpointFault (List UInt8) :=
    if seen.opened ≠ seen.closed ∨ 1 < seen.colons ∨ seen.atSign ∨ seen.percent then
      .error .invalidAuthority
    else .ok rest

/-- Whether a byte may stand in a path. -/
def isPathByte (b : UInt8) : Bool :=
  b == 0x21 || b == 0x22 || (0x24 ≤ b && b ≤ 0x3b) || b == 0x3d || (0x40 ≤ b && b ≤ 0x5f) ||
    (0x61 ≤ b && b ≤ 0x7e) || 0x80 ≤ b

/-- Whether a byte may stand in a query. -/
def isQueryByte (b : UInt8) : Bool :=
  b == 0x21 || (0x24 ≤ b && b ≤ 0x3b) || b == 0x3d || (0x3f ≤ b && b ≤ 0x7e) || 0x80 ≤ b

/-- Checks a path with an optional query and fragment; what is in the fragment does not matter. -/
def checkPath (bytes : List UInt8) : Except EndpointFault Unit :=
  let path := bytes.takeWhile fun b => b ≠ 0x3f ∧ b ≠ 0x23
  let query := (bytes.drop path.length).takeWhile (· ≠ 0x23)
  if path.all isPathByte ∧ (query.drop 1).all isQueryByte then .ok ()
  else .error .invalidCharacter

/-- Checks the bytes of a URI. -/
def checkUri (bytes : List UInt8) : Except EndpointFault Unit := do
  if maxUriLength ≤ bytes.length then .error .tooLong
  else if bytes = [] then .error .empty
  else if bytes = [0x2a] then .ok ()
  else if bytes.head? = some 0x2f then checkPath bytes
  else
    match ← afterScheme bytes with
    | none =>
      let rest ← readAuthority {} bytes
      if rest = [] then .ok () else .error .invalidFormat
    | some bytes =>
      if bytes = [] then .error .empty
      else
        let rest ← readAuthority {} bytes
        if rest.length = bytes.length then .error .invalidFormat else checkPath rest

/-- Checks an endpoint; an empty one stands for the default collector. -/
def checkEndpoint (endpoint : String) : Except EndpointFault Unit :=
  if endpoint = "" then .ok () else checkUri (Utf8.encode endpoint)

end ImageLabeling.Logging
