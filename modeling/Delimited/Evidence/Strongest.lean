/- The choice between candidates by the weight of the evidence for each. -/
namespace Delimited

variable {α β : Type} [LT β] [DecidableLT β]

/-- The candidate of greatest weight, with its weight. A weight must exceed `least` to count, and
of equal weights the first is kept. -/
def strongest (weight : α → β) (least : β) (candidates : List α) : Option (α × β) :=
  candidates.foldl (fun best candidate =>
    if (best.map Prod.snd).getD least < weight candidate then some (candidate, weight candidate)
    else best) none

end Delimited
