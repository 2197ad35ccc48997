import AiGateway.Api.RequestLog

/-!
# The client address in the log (`gateway-api/src/routes/proxy.rs:624-647`)

A proxy in front of the gateway names the client by its address, with the port of the connection
or without it. An address of the sixth version stands in brackets in front of a port.
-/

namespace AiGateway.Api
open AiGateway.Core

/-! ### Addresses -/

def decimal (n : ℕ) : List Char := (toString n).toList

def IsIpv4 (cs : List Char) : Prop :=
  ∃ a b c d : UInt8, cs = decimal a.toNat ++ '.' :: decimal b.toNat ++ '.' :: decimal c.toNat ++
    '.' :: decimal d.toNat

def isHexDigit (c : Char) : Bool := c ∈ "0123456789abcdefABCDEF".toList

def HexGroup (cs : List Char) : Prop :=
  1 ≤ cs.length ∧ cs.length ≤ 4 ∧ ∀ c ∈ cs, isHexDigit c = true

def joinGroups (groups : List (List Char)) : List Char := List.intercalate [':'] groups

/-- Eight groups, of which the last two may be written as an IPv4 address; `::` stands for one
group of zeros or more. -/
inductive IsIpv6 : List Char → Prop
  | full (groups : List (List Char)) (hgroups : ∀ g ∈ groups, HexGroup g)
      (hlength : groups.length = 8) : IsIpv6 (joinGroups groups)
  | mixed (groups : List (List Char)) (v4 : List Char) (hgroups : ∀ g ∈ groups, HexGroup g)
      (hlength : groups.length = 6) (hv4 : IsIpv4 v4) : IsIpv6 (joinGroups groups ++ ':' :: v4)
  | short (front back : List (List Char)) (hgroups : ∀ g ∈ front ++ back, HexGroup g)
      (hlength : front.length + back.length ≤ 7) :
      IsIpv6 (joinGroups front ++ ':' :: ':' :: joinGroups back)
  | shortMixed (front back : List (List Char)) (v4 : List Char)
      (hgroups : ∀ g ∈ front ++ back, HexGroup g) (hlength : front.length + back.length ≤ 5)
      (hv4 : IsIpv4 v4) :
      IsIpv6 (joinGroups front ++ ':' :: ':' :: joinGroups (back ++ [v4]))

inductive IpFamily where
  | v4
  | v6
  deriving DecidableEq, Repr

/-- An address, and a port behind it or none. -/
structure AddressEntry where
  family : IpFamily
  address : String
  port : Option UInt16
  valid : match family with
    | .v4 => IsIpv4 address.toList
    | .v6 => IsIpv6 address.toList

def AddressEntry.text (e : AddressEntry) : String :=
  match e.port with
  | none => e.address
  | some port =>
    match e.family with
    | .v4 => e.address ++ ":" ++ toString port.toNat
    | .v6 => "[" ++ e.address ++ "]:" ++ toString port.toNat

/-- The text with white space around it. -/
def Padded (text value : String) : Prop :=
  ∃ before behind, value.toList = before ++ (text.toList ++ behind) ∧
    (∀ c ∈ before, isWhitespace c = true) ∧ ∀ c ∈ behind, isWhitespace c = true

def firstEntry (value : String) : String := String.ofList (value.toList.takeWhile (· ≠ ','))

/-- The header that names the client says `text`. -/
inductive Announces (headers : HeaderMap) (text : String) : Prop
  | forwarded (value : String) (hvalue : headers.text "x-forwarded-for" = some value)
      (htext : Padded text (firstEntry value))
  | realIp (value : String)
      (hblank : ∀ v, headers.text "x-forwarded-for" = some v → trim (firstEntry v) = "")
      (hvalue : headers.text "x-real-ip" = some value) (htext : Padded text value)

/-! ### What an address is made of -/

namespace AddressEntry

end AddressEntry

/-! ### What is logged -/

end AiGateway.Api
