import EventCodec.Url.Address
import EventCodec.Url.Percent

/-! # Hosts

    A host is a domain name or an address.  In brackets it is an address
    of 128 bits.  Otherwise percent signs are decoded, the name is brought
    into ASCII, and if it ends in a number it has to be an address of 32
    bits. -/

namespace EventCodec.Url

/-- Why a text is no URL. -/
inductive UrlError where
  | emptyHost
  | invalidPort
  | invalidIpv4
  | invalidIpv6
  | invalidDomain
deriving DecidableEq, Repr

namespace UrlError

def message : UrlError → String
  | .emptyHost => "empty host"
  | .invalidPort => "invalid port number"
  | .invalidIpv4 => "invalid IPv4 address"
  | .invalidIpv6 => "invalid IPv6 address"
  | .invalidDomain => "invalid international domain name"

end UrlError

inductive Host where
  | domain (name : String)
  | ipv4 (address : UInt32)
  /-- An address of 128 bits in eight pieces. -/
  | ipv6 (address : List UInt16)
deriving DecidableEq, Repr

namespace Host

def text : Host → String
  | .domain name => name
  | .ipv4 address => ipv4Text address
  | .ipv6 address => ipv6Text address

/-- What stands between brackets. -/
def bracketed? (text : List Char) : Option (List Char) :=
  if text.getLast? == some ']' then some text.dropLast else none

/-- A name after its percent signs are decoded. -/
def ofName (names : Names) (name : List Char) : Except UrlError Host :=
  match (Bytes.toText? (decode (Bytes.ofText (String.ofList name)))).bind
    (Domain.ofText? names ·.toList) with
  | none => .error .invalidDomain
  | some name =>
    if name.isEmpty then .error .emptyHost
    else if endsInNumber name then
      match ipv4? name with
      | some address => .ok (.ipv4 address)
      | none => .error .invalidIpv4
    else .ok (.domain (String.ofList name))

/-- The host that a text names. -/
def ofText (names : Names) (text : List Char) : Except UrlError Host :=
  match text with
  | [] => .error .emptyHost
  | '[' :: rest =>
    match (bracketed? rest).bind ipv6? with
    | some address => .ok (.ipv6 address)
    | none => .error .invalidIpv6
  | text => ofName names text

end Host

end EventCodec.Url
