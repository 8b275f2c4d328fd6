/- The quote: fields open with it after a delimiter and close with it before one. -/
import Delimited.Evidence.Strongest
import Delimited.Text.Blank
import Delimited.Text.Pattern
import Delimited.Tunables

namespace Delimited.Evidence

open Pattern

/-- Where a field starts: at the start of the line or after a delimiter. -/
def fieldStart (delimiter : Text) : Pattern := either start (literal delimiter)

/-- Where a field ends: at the end of the line or before a delimiter, which is taken up. -/
def fieldEnd (delimiter : Text) : Pattern := either finish (literal delimiter)

def blanks : Pattern := run (before Text.isBlank)

/-- A place in a line where `barred` does not start. -/
def clearOf (barred : Text) (t : Text) : Bool :=
  before (· != '\n') t && !Text.startsWith barred t

/-- A whole field between quotes, with white space around them on the inside of the delimiters,
and without `barred` in it. -/
def enclosedField (delimiter quote barred : Text) : Pattern :=
  both (fieldStart delimiter) <| both blanks <| both (literal quote) <|
    both (run (clearOf barred)) <| both blanks <| both (literal quote) (fieldEnd delimiter)

def cleanField (delimiter quote : Text) : Pattern := enclosedField delimiter quote quote

def undelimitedField (delimiter quote : Text) : Pattern := enclosedField delimiter quote delimiter

/-- The score of a quote on one line, if it occurs there. -/
def quoteLineScore (c : Tunables) (delimiter quote : Text) (line : Text) : Option Int :=
  let found := Text.occurrences quote line
  if found = 0 then none
  else some (found + (cleanField delimiter quote).count line * c.cleanFieldBonus +
    (undelimitedField delimiter quote).count line * c.delimitedFieldBonus)

inductive QuoteFault
  /-- The mean score of a candidate is beyond all floating-point numbers. -/
  | scoreTooLarge
  deriving DecidableEq

/-- The mean score of a quote over the lines it occurs on. -/
def quoteScore (c : Tunables) (lines : List Text) (delimiter quote : Text) :
    Except QuoteFault Float :=
  let score := c.statistics.mean (lines.filterMap (quoteLineScore c delimiter quote))
  if score.isInf then .error .scoreTooLarge else .ok score

/-- A quote after something else in a field. -/
def innerQuote (delimiter quote : Text) : Pattern :=
  let other := one (before fun c => !quote.contains c)
  both (fieldStart delimiter) <| both blanks <|
    both (both other (run (before fun c => !quote.contains c))) (literal quote)

/-- Some field holds the quote after something else, so that the quote is data. -/
def quoteIsData (lines : List Text) (delimiter quote : Text) : Bool :=
  lines.any (innerQuote delimiter quote).occurs

/-- The candidate of greatest score, if that reaches the threshold; else the default quote, unless
that is data. -/
def quote (c : Tunables) (lines : List Text) (delimiter : Text) :
    Except QuoteFault (Option Text) := do
  let scored ← c.quotes.mapM fun candidate =>
    return (candidate, ← quoteScore c lines delimiter candidate)
  match strongest Prod.snd 0.0 scored with
  | some ((candidate, score), _) =>
    return if c.quoteMinScore ≤ score then some candidate else unquoted
  | none => return unquoted
where
  unquoted : Option Text :=
    if quoteIsData lines delimiter c.defaultQuote then none else some c.defaultQuote

end Delimited.Evidence
