import MeshFacts.Attribute

/-! # Faults of facts
Why octets are no fact, a value does not suit an attribute, or a fact cannot be sent. -/
namespace MeshFacts

inductive ValueFault where
  | notNormalized
  | mismatch
  | width (expected actual : Nat)
  | notEmpty (actual : Nat)
  | tooShort (least actual : Nat)
  | netLength
deriving DecidableEq, Repr

def ValueFault.message : ValueFault → String
  | notNormalized => "address is not normalized"
  | mismatch => "value does not match attribute"
  | width n m => "expected " ++ toString n ++ " bytes, got " ++ toString m
  | notEmpty m => "expected no bytes, got " ++ toString m
  | tooShort n m => "expected at least " ++ toString n ++ " bytes, got " ++ toString m
  | netLength => "invalid IP prefix length"

inductive FactError where
  | truncatedHeader (available : Nat)
  | truncatedBody (needed available : Nat)
  | invalidSubjectLength (length : Nat)
  | unknownAttribute (byte : UInt8)
  | invalidSubject (kind : Attribute) (length : Nat)
  | invalidValue (kind : Attribute) (fault : ValueFault)
  | invalidVarint
  | nestedSignedGroup
  | valueTooLong (length : Nat)
  | factTooLarge (size max : Nat)
deriving DecidableEq, Repr

def FactError.message : FactError → String
  | truncatedHeader n => "truncated fact header: " ++ toString n ++ " bytes"
  | truncatedBody n m =>
    "truncated fact body: need " ++ toString n ++ " bytes, have " ++ toString m
  | invalidSubjectLength n => "invalid subject length " ++ toString n
  | unknownAttribute b =>
    "unknown attribute byte 0x"
      ++ String.ofList [Nat.digitChar (b.toNat / 16), Nat.digitChar (b.toNat % 16)]
  | invalidSubject a n =>
    "invalid subject for " ++ a.text ++ ": expected 32-byte public key, got " ++ toString n
  | invalidValue a f => "invalid value for " ++ a.text ++ ": " ++ f.message
  | invalidVarint => "invalid variable-length integer"
  | nestedSignedGroup => "signed group nested inside a signed group"
  | valueTooLong n => "value of " ++ toString n ++ " bytes does not fit the wire encoding"
  | factTooLarge n m => "fact of " ++ toString n ++ " bytes exceeds group limit of " ++ toString m

end MeshFacts
