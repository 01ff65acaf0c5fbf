import LiveSync.Url.Domain

/-!
# Hosts

Where a scheme is one of those whose addresses are looked up by name, its
host is a domain name or a numeric address; a text that ends with a number
has to be an address of version 4. The host of another scheme is any text
without delimiters. An address of version 6 stands in square brackets in
either case.
-/

namespace LiveSync.Url

/-- **Why a text denotes no address.** -/
inductive Flaw where
  /-- There is no scheme. -/
  | noScheme
  | emptyHost
  | invalidDomain
  | invalidIPv4
  | invalidIPv6
  /-- A delimiter stands in the host of a scheme without domain names. -/
  | invalidHostCharacter
  | invalidPort
deriving DecidableEq, Repr

/-- The message of a flaw. -/
def Flaw.message : Flaw → String
  | noScheme => "relative URL without a base"
  | emptyHost => "empty host"
  | invalidDomain => "invalid international domain name"
  | invalidIPv4 => "invalid IPv4 address"
  | invalidIPv6 => "invalid IPv6 address"
  | invalidHostCharacter => "invalid domain character"
  | invalidPort => "invalid port number"

/-- **What an address names as its host.** -/
inductive Host where
  | domain (name : List Char)
  | ipv4 (address : Nat)
  | ipv6 (groups : List Nat)
deriving DecidableEq, Repr

namespace Host

/-- The delimiters that stand in no host. -/
def isDelimiter (c : Char) : Bool := c ∈ "\x00\t\n\r #/:<>?@[\\]^|".toList

/-- An address of version 6 whose opening bracket was read. -/
def bracketed (cs : List Char) : Except Flaw Host :=
  match if cs.getLast? = some ']' then IPv6.parse? cs.dropLast else none with
  | some groups => .ok (ipv6 groups)
  | none => .error .invalidIPv6

/-- **The host that a text denotes** in an address that is looked up by
name. -/
def named : List Char → Except Flaw Host
  | '[' :: cs => bracketed cs
  | cs =>
    match Domain.parse? cs with
    | none => .error .invalidDomain
    | some [] => .error .emptyHost
    | some name =>
      if IPv4.isMeant name then
        match IPv4.parse? name with
        | some address => .ok (ipv4 address)
        | none => .error .invalidIPv4
      else .ok (domain name)

/-- **The host that a text denotes** in another address. It may be empty. -/
def plain : List Char → Except Flaw Host
  | '[' :: cs => bracketed cs
  | cs =>
    if cs.any isDelimiter then .error .invalidHostCharacter
    else .ok (domain (Percent.encode Percent.isControl cs))

/-- The host that is no host. -/
def isEmpty : Host → Bool
  | domain [] => true
  | _ => false

end Host

end LiveSync.Url
