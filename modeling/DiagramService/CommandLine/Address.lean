import DiagramService.Error.System

/-!
# Addresses to listen on

An address is a host and a port with a colon between them. Only addresses that cannot be listened on
are told apart here, by why that is so.
-/

namespace DiagramService.CommandLine

/-- Why an address cannot be listened on. -/
inductive AddressError where
  /-- There is no colon. -/
  | noPort
  | badPort
  /-- The host has no address. -/
  | unknownHost
  /-- The host is not this one. -/
  | foreignHost
deriving DecidableEq, Repr

namespace AddressError

/-- What the error says. -/
def message : AddressError → String
  | .noPort => "invalid socket address"
  | .badPort => "invalid port value"
  | .unknownHost => "failed to lookup address information: Name or service not known"
  | .foreignHost => (IoError.system 99).message

end AddressError

/-- A number from zero to 255 without a zero before others. -/
def isOctet (cs : List Char) : Bool :=
  match Text.digits? cs with
  | some n => n < 256 && (cs.length = 1 || cs.head? != some '0')
  | none => false

/-- Whether a host is given by four numbers. -/
def isNumeric (host : List Char) : Bool :=
  let parts := host.splitOn '.'
  parts.length = 4 && parts.all isOctet

/-- Whether a numeric host is this one. -/
def isOwn (host : List Char) : Bool :=
  host == "0.0.0.0".toList || "127.".toList.isPrefixOf host

/-- Whether an address can be listened on, as far as it can be told without trying. -/
def checkAddress (address : String) : Except AddressError Unit :=
  let cs := address.toList
  let port := (cs.reverse.takeWhile (· != ':')).reverse
  let host := cs.take (cs.length - port.length - 1)
  if port.length = cs.length then .error .noPort
  else
    match Text.unsigned? port with
    | none => .error .badPort
    | some n =>
      if UInt16.size ≤ n then .error .badPort
      else if isNumeric host then if isOwn host then .ok () else .error .foreignHost
      else if host == "localhost".toList then .ok ()
      else .error .unknownHost

end DiagramService.CommandLine
