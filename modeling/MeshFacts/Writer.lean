import MeshFacts.FactError

/-! # Writers
Writing octets behind those that a buffer holds already. A writer that fails tells why, and what it put into
the buffer before stays there. -/
namespace MeshFacts

/-- What becomes of a buffer. -/
abbrev Writer := List UInt8 → Except FactError Unit × List UInt8

namespace Writer

def put (bytes : List UInt8) : Writer := fun buffer => (.ok (), buffer ++ bytes)

def fail (e : FactError) : Writer := fun buffer => (.error e, buffer)

/-- The second writer goes on where the first ends, unless the first fails. -/
def andThen (w v : Writer) : Writer := fun buffer =>
  match w buffer with
  | (.ok (), buffer) => v buffer
  | (.error e, buffer) => (.error e, buffer)

def bytes (w : Writer) : Except FactError (List UInt8) :=
  match w [] with
  | (.ok (), bytes) => .ok bytes
  | (.error e, _) => .error e

@[simp] theorem put_apply (bytes buffer : List UInt8) : put bytes buffer = (.ok (), buffer ++ bytes) := rfl

@[simp] theorem fail_apply (e : FactError) (buffer : List UInt8) : fail e buffer = (.error e, buffer) := rfl

theorem andThen_of_ok {w v : Writer} {buffer written : List UInt8} (h : w buffer = (.ok (), written)) :
    w.andThen v buffer = v written := by
  simp [andThen, h]

theorem bytes_of_ok {w : Writer} {written : List UInt8} (h : w [] = (.ok (), written)) :
    w.bytes = .ok written := by
  simp [bytes, h]

theorem bytes_of_error {w : Writer} {e : FactError} {written : List UInt8}
    (h : w [] = (.error e, written)) : w.bytes = .error e := by
  simp [bytes, h]

end Writer

end MeshFacts
