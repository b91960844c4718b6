/-! # Attributes
What a fact asserts. An attribute is one octet on the wire, and attributes are ordered by it. -/
namespace MeshFacts

inductive Attribute where
  | unknown
  | endpointV4
  | endpointV6
  | allowedIpsV4
  | allowedIpsV6
  | membership
  | alive
  | signedGroup
deriving DecidableEq, Repr, Inhabited

namespace Attribute

def all : List Attribute :=
  [unknown, endpointV4, endpointV6, allowedIpsV4, allowedIpsV6, membership, alive, signedGroup]

def byte : Attribute → UInt8
  | unknown => 0
  | endpointV4 => 0x34
  | endpointV6 => 0x36
  | allowedIpsV4 => 0x61
  | allowedIpsV6 => 0x41
  | membership => 0x6d
  | alive => 0x21
  | signedGroup => 0x53

def ofByte? (b : UInt8) : Option Attribute := all.find? fun a => a.byte = b

def isEndpoint : Attribute → Bool
  | endpointV4 | endpointV6 => true
  | _ => false

def isAllowedIps : Attribute → Bool
  | allowedIpsV4 | allowedIpsV6 => true
  | _ => false

def text : Attribute → String
  | unknown => "unknown"
  | endpointV4 => "endpoint-v4"
  | endpointV6 => "endpoint-v6"
  | allowedIpsV4 => "allowed-ips-v4"
  | allowedIpsV6 => "allowed-ips-v6"
  | membership => "membership"
  | alive => "alive"
  | signedGroup => "signed-group"

/-- How many attributes come before this one. -/
def rank (a : Attribute) : Nat := (all.filter fun b => b.byte < a.byte).length

theorem ofByte?_byte (a : Attribute) : ofByte? a.byte = some a := by cases a <;> decide

theorem isAllowedIps_iff {a : Attribute} : a.isAllowedIps = true ↔ a = allowedIpsV4 ∨ a = allowedIpsV6 := by
  cases a <;> decide

theorem byte_injective {a b : Attribute} (h : a.byte = b.byte) : a = b := by
  have := congrArg ofByte? h
  simpa [ofByte?_byte] using this

theorem eq_byte_of_ofByte? {b : UInt8} {a : Attribute} (h : ofByte? b = some a) : a.byte = b := by
  simpa using List.find?_some h

end Attribute

end MeshFacts
