/- The candidates that a guess considers, the thresholds that it applies, and the statistics that it
weighs them by. -/
import Delimited.Number.Decimal
import Delimited.Number.Reading
import Delimited.Statistics
import Delimited.Text.Quoted

namespace Delimited

/-- Candidates stand in order of preference. -/
structure Tunables where
  delimiters : List Text := [[','], ['\t'], ['|'], [';']]
  quotes : List Text := [['"'], ['\'']]
  /-- No text stands for the quote in use. -/
  escapes : List (Option Text) := [some ['\\'], none]
  nullStrings : List Text := ["null".toList, "NULL".toList, "#N/A".toList, "\\N".toList]
  commentMarkers : List Text := [['#'], ['/', '/']]
  /-- The quote taken when no candidate has enough evidence. -/
  defaultQuote : Text := ['"']
  /-- The weight that a delimiter must exceed. -/
  delimiterMinWeight : Float := 1.0
  /-- The deviation taken for one below `deviationEpsilon`. -/
  deviationFloor : Float := 1e-9
  deviationEpsilon : Float := 1e-11
  /-- The score of a cleanly quoted field. -/
  cleanFieldBonus : Int := 20
  /-- The score of a quoted field without a delimiter between its quotes. -/
  delimitedFieldBonus : Int := 40
  /-- The mean score that a quote must reach. -/
  quoteMinScore : Float := 10.0
  /-- The most ragged leading lines that are skipped. -/
  maxSkipLines : Int := 10
  /-- How many of the following records must fit under the width of a first body row. -/
  noSkipDetectLines : Int := 10
  /-- The greatest variance of the value lengths in a body against which a header stands out. -/
  headerLengthVarianceMax : Float := 0.2
  /-- The relative distance from the mean length that a header value must exceed. -/
  headerLengthDeviationMin : Float := 0.7
  /-- The most code points in one enclosed value. -/
  maxQuotedSize : Int := 131072
  maxSampleLines : Int := 1000
  maxSampleChars : Int := 32768
  /-- How the evidence is averaged; nothing is assumed of it. -/
  statistics : Statistics Int := .ofWhole .pairwise

/-- A setting of the environment that is not the number it should be. -/
inductive NumberFault
  | notWhole (shown : Text)
  | tooLong (count : Nat)
  | notReal (shown : Text)
  deriving DecidableEq

def NumberFault.message : NumberFault → Text
  | .notWhole t =>
    "invalid literal for int() with base 10: ".toList ++ (Text.quoted t).take 200
  | .tooLong n =>
    "Exceeds the limit (".toList ++ Decimal.ofNat Numeral.maxDigits ++
      " digits) for integer string conversion: value has ".toList ++ Decimal.ofNat n ++
      " digits; use sys.set_int_max_str_digits() to increase the limit".toList
  | .notReal t => "could not convert string to float: ".toList ++ Text.quoted t

namespace Tunables

/-- The escapes to consider beside `quote`, each once, in the order of their first places. -/
def escapesFor (c : Tunables) (quote : Text) : List Text :=
  c.escapes.foldl (fun found escape =>
    let escape := escape.getD quote
    if found.contains escape then found else found ++ [escape]) []

def variableOf (setting : String) : Text := "CSVGUESS_".toList ++ setting.toList

section Environment

variable (environment : Text → Option Text)

def wholeFrom (name : String) (default : Int) : Except NumberFault Int :=
  match environment (variableOf name) with
  | none => .ok default
  | some t => match Numeral.integer t with
    | .ok n => .ok n
    | .error .invalid => .error (.notWhole t)
    | .error (.tooLong n) => .error (.tooLong n)

def realFrom (name : String) (default : Float) : Except NumberFault Float :=
  match environment (variableOf name) with
  | none => .ok default
  | some t => match Numeral.real? t with
    | some x => .ok x
    | none => .error (.notReal t)

/-- The defaults, with what the environment sets in their place. The first faulty setting is the
one reported. -/
def ofEnvironment : Except NumberFault Tunables := do
  let delimiterMinWeight ← realFrom environment "DELIMITER_MIN_WEIGHT" 1.0
  let cleanFieldBonus ← wholeFrom environment "QUOTE_CLEAN_FIELD_BONUS" 20
  let delimitedFieldBonus ← wholeFrom environment "QUOTE_DELIMITED_FIELD_BONUS" 40
  let quoteMinScore ← realFrom environment "QUOTE_MIN_SCORE" 10.0
  let maxSkipLines ← wholeFrom environment "MAX_SKIP_LINES" 10
  let noSkipDetectLines ← wholeFrom environment "NO_SKIP_DETECT_LINES" 10
  let maxQuotedSize ← wholeFrom environment "MAX_QUOTED_SIZE" 131072
  let maxSampleLines ← wholeFrom environment "MAX_SAMPLE_LINES" 1000
  let maxSampleChars ← wholeFrom environment "MAX_SAMPLE_CHARS" 32768
  return { delimiterMinWeight, cleanFieldBonus, delimitedFieldBonus, quoteMinScore, maxSkipLines,
           noSkipDetectLines, maxQuotedSize, maxSampleLines, maxSampleChars }

end Environment

/-- The environment variables that count. -/
def environmentVariables : List Text :=
  ["DELIMITER_MIN_WEIGHT", "QUOTE_CLEAN_FIELD_BONUS", "QUOTE_DELIMITED_FIELD_BONUS",
    "QUOTE_MIN_SCORE", "MAX_SKIP_LINES", "NO_SKIP_DETECT_LINES", "MAX_QUOTED_SIZE",
    "MAX_SAMPLE_LINES", "MAX_SAMPLE_CHARS"].map variableOf

end Tunables

end Delimited
