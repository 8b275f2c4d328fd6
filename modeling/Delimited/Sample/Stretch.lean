/- Stretches of a list, with ends that may be counted from its own end. -/
namespace Delimited.Stretch

/-- A place in a list of `length` items. A negative place is counted from the end; one outside the
list is moved to its nearer end. -/
def place (length : Nat) (i : Int) : Nat :=
  if i < 0 then (length + i).toNat else min i.toNat length

theorem place_ofNat (length i : Nat) : place length (i : Int) = min i length := by
  unfold place
  rw [if_neg (by omega), Int.toNat_natCast]

def between {α : Type} (low high : Int) (xs : List α) : List α :=
  (xs.take (place xs.length high)).drop (place xs.length low)

def upTo {α : Type} (high : Int) (xs : List α) : List α := xs.take (place xs.length high)

end Delimited.Stretch
