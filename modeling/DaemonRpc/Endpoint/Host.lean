import DaemonRpc.Endpoint.Ipv6
import DaemonRpc.Endpoint.Percent

/-!
# Hosts

The host of an endpoint is an address of either version or a domain.  `Host.ofChars` tells
them apart: brackets stand around an address of version 6, and a last label that is a number
makes an address of version 4.  A domain is lower-case ASCII without the characters that
delimit the parts of a URL.

A domain of other characters, or with an encoded label, is turned into such a one by tables that
grow with every version of Unicode.  They are no part of this library: a `DomainMapping` stands for
them, and whoever reads a host brings one.
-/

namespace DaemonRpc

/-- Why a text is not the address of a daemon. -/
inductive EndpointFault where
  | emptyHost
  | invalidDomain
  | invalidPort
  | invalidIpv4
  | invalidIpv6
deriving DecidableEq, Inhabited

/-- The fault in words. -/
def EndpointFault.message : EndpointFault → String
  | .emptyHost => "empty host"
  | .invalidDomain => "invalid international domain name"
  | .invalidPort => "invalid port number"
  | .invalidIpv4 => "invalid IPv4 address"
  | .invalidIpv6 => "invalid IPv6 address"

/-- A host. -/
inductive Host where
  | domain (name : String)
  | ipv4 (address : Ipv4)
  | ipv6 (address : Ipv6)
deriving DecidableEq, Inhabited

/-- What the tables of international names make of the bytes of a domain: a domain in ASCII, unless
they refuse it. -/
def DomainMapping := Bytes → Option (List Char)

/-- Without tables every international name is refused. -/
def DomainMapping.empty : DomainMapping := fun _ => none

namespace Host

/-- A character that no domain holds. -/
def forbidden (c : Char) : Bool :=
  c.toNat ≤ 0x20 || c.toNat = 0x7f ||
    ['#', '%', '/', ':', '<', '>', '?', '@', '[', '\\', ']', '^', '|'].contains c

/-- The mark of a label that stands for one with characters beyond ASCII. -/
def encodedMark : List Char := ['x', 'n', '-', '-']

/-- A domain in ASCII.  One of ASCII alone needs no tables, unless a label of it carries the
mark. -/
def toAscii (international : DomainMapping) (bytes : Bytes) : Option (List Char) :=
  let name := bytes.map fun b => (Char.ofNat b.toNat).toLower
  if bytes.all (· < 0x80) && !(name.splitOn '.').any encodedMark.isPrefixOf then some name
  else international bytes

/-- The domain of the given bytes, in small letters. -/
def domainChars (international : DomainMapping) (bytes : Bytes) :
    Except EndpointFault (List Char) :=
  match toAscii international bytes with
  | some name => if name.any forbidden then .error .invalidDomain else .ok name
  | none => .error .invalidDomain

/-- The host that a text is, which is not empty. -/
def ofChars (international : DomainMapping) (cs : List Char) : Except EndpointFault Host :=
  match cs with
  | '[' :: rest =>
    if rest.getLast? = some ']' then
      match Ipv6.ofChars? rest.dropLast with
      | some address => .ok (.ipv6 address)
      | none => .error .invalidIpv6
    else .error .invalidIpv6
  | cs => do
    let name ← domainChars international (Percent.decode (Bytes.utf8 (String.ofList cs)))
    if name.isEmpty then .error .emptyHost
    else if Ipv4.endsInNumber name then
      match Ipv4.ofChars? name with
      | some address => .ok (.ipv4 address)
      | none => .error .invalidIpv4
    else .ok (.domain (String.ofList name))

/-- The text of a host in a URL. -/
def text : Host → String
  | .domain name => name
  | .ipv4 address => address.text
  | .ipv6 address => "[" ++ address.text ++ "]"

end Host

end DaemonRpc
