/-! # Sorted sets
Sets as lists in the order of octet strings, each member once. The order is that of `octets`, which must
tell members apart. -/
namespace MeshFacts.SortedSet

variable {α : Type} [DecidableEq α]

/-- Puts a member in its place, unless it is there. -/
def insert (octets : α → List UInt8) (x : α) : List α → List α
  | [] => [x]
  | y :: r =>
    if x = y then y :: r
    else if octets x < octets y then x :: y :: r
    else y :: insert octets x r

def ofList (octets : α → List UInt8) (xs : List α) : List α :=
  xs.foldr (insert octets) []

theorem mem_insert (octets : α → List UInt8) (x y : α) (xs : List α) :
    y ∈ insert octets x xs ↔ y = x ∨ y ∈ xs := by
  induction xs with
  | nil => simp [insert]
  | cons z zs ih =>
    simp only [insert]
    split
    · rename_i h
      subst h
      simp
    · split
      · simp
      · simp only [List.mem_cons, ih]
        constructor
        · rintro (h | h | h) <;> simp [h]
        · rintro (h | h | h) <;> simp [h]

theorem mem_ofList (octets : α → List UInt8) (y : α) (xs : List α) :
    y ∈ ofList octets xs ↔ y ∈ xs := by
  induction xs with
  | nil => simp [ofList]
  | cons x xs ih =>
    have h : ofList octets (x :: xs) = insert octets x (ofList octets xs) := rfl
    rw [h, mem_insert, ih]
    simp

end MeshFacts.SortedSet
