/- Statistics of a whole population. They are asked of a library, which is a parameter of the guess:
it adds floating-point numbers in an order of its own, and their sum depends on that order. -/
import Delimited.Number.Binary64

namespace Delimited

/-- What a library makes of a population. It is never asked about an empty one. -/
structure Statistics (α : Type) where
  /-- The mean. It is infinite where no floating-point number is large enough and the library has
  no answer. -/
  meanOf : List α → Float
  /-- The mean squared distance from the mean. -/
  varianceOf : List α → Float
  /-- The square root of the variance. -/
  deviationOf : List α → Float

namespace Statistics

section Asked

variable {α : Type} (s : Statistics α)

/-- The mean; zero for no values. -/
def mean (xs : List α) : Float := if xs.isEmpty then 0.0 else s.meanOf xs

/-- The variance; zero for no values. -/
def variance (xs : List α) : Float := if xs.isEmpty then 0.0 else s.varianceOf xs

/-- The deviation, or `floor` where that is below `epsilon` or there are no values. -/
def deviation (floor epsilon : Float) (xs : List α) : Float :=
  if xs.isEmpty then floor
  else if s.deviationOf xs < epsilon then floor
  else s.deviationOf xs

end Asked

/-! ### Sums by halves -/

/-- Adds whole blocks of eight values to eight sums side by side, then the sums in pairs, and at
last the fewer than eight values that are left over. -/
def blockwise : (sums : List Float) → List Float → Float
  | sums, a :: b :: c :: d :: e :: f :: g :: h :: rest =>
    blockwise (List.zipWith (· + ·) sums [a, b, c, d, e, f, g, h]) rest
  | [a, b, c, d, e, f, g, h], rest =>
    rest.foldl (· + ·) (((a + b) + (c + d)) + ((e + f) + (g + h)))
  | sums, rest => rest.foldl (· + ·) (sums.foldl (· + ·) 0.0)

/-- A few values are added from left to right, up to 128 in blocks of eight, and more than that by
halves, the first of whole blocks. -/
def pairwiseSum (xs : List Float) : Float :=
  if xs.length < 8 then xs.foldl (· + ·) 0.0
  else if xs.length ≤ 128 then blockwise (xs.take 8) (xs.drop 8)
  else
    let half := xs.length / 2 / 8 * 8
    pairwiseSum (xs.take half) + pairwiseSum (xs.drop half)
termination_by xs.length
decreasing_by
  · simp only [List.length_take]
    omega
  · simp only [List.length_drop]
    omega

def pairwiseMean (xs : List Float) : Float := pairwiseSum xs / xs.length.toFloat

def pairwiseVariance (xs : List Float) : Float :=
  let m := pairwiseMean xs
  pairwiseMean (xs.map fun x => (x - m) * (x - m))

/-- The statistics of floating-point numbers, with sums by halves. -/
def pairwise : Statistics Float where
  meanOf := pairwiseMean
  varianceOf := pairwiseVariance
  deviationOf xs := (pairwiseVariance xs).sqrt

/-- Machine words hold these numbers. -/
def FitWords (xs : List Int) : Prop :=
  ∀ x ∈ xs, -0x8000000000000000 ≤ x ∧ x ≤ 0xFFFFFFFFFFFFFFFF

instance (xs : List Int) : Decidable (FitWords xs) := inferInstanceAs (Decidable (∀ x ∈ xs, _))

/-- The statistics of whole numbers: those of the nearest floating-point numbers. The mean of
numbers beyond machine words is taken of their exact sum. -/
def ofWhole (s : Statistics Float) : Statistics Int where
  meanOf xs :=
    if FitWords xs then s.meanOf (xs.map Float.ofInt)
    else (Binary64.ofQuotient (xs.foldl (· + ·) 0) xs.length).toFloat
  varianceOf xs := s.varianceOf (xs.map Float.ofInt)
  deviationOf xs := s.deviationOf (xs.map Float.ofInt)

end Statistics

end Delimited
