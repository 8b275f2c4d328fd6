/- The settings fragment that a guess is written as, ready to be merged into other settings. -/
import Delimited.Guess

namespace Delimited

namespace Column

def toValue (column : Column) : Value :=
  let named : Table :=
    [("name".toList, .text column.name), ("type".toList, .text column.type.name.toList)]
  .table <| match column.type.format? with
    | some format => named ++ [("format".toList, .text format)]
    | none => named

end Column

namespace Guess

def ofText? : Option Text → Value
  | some t => .text t
  | none => .null

/-- The entries that the guess sets, in order. A null string and a comment marker are set only if
there is one, and an escape only if it is known. -/
def entries (g : Guess) : Table :=
  [("type".toList, .text "csv".toList), ("delimiter".toList, .text g.dialect.delimiter),
    ("quote".toList, ofText? g.dialect.quote)] ++
  (if g.escapeResolved then [("escape".toList, ofText? g.dialect.escape)] else []) ++
  (g.dialect.nullString.toList.map fun t => ("null_string".toList, .text t)) ++
  [("skip_header_lines".toList, .whole g.skipHeaderLines)] ++
  (g.skipPlan.commentMarker.toList.map fun t => ("comment_line_marker".toList, .text t)) ++
  [("allow_extra_columns".toList, .boolean g.allowExtraColumns),
    ("allow_optional_columns".toList, .boolean g.allowOptionalColumns),
    ("trim_if_not_quoted".toList, .boolean g.dialect.trim),
    ("columns".toList, .list (g.columns.map Column.toValue))]

def parserTable (g : Guess) : Table :=
  g.entries.foldl (fun table (key, value) => Table.set key value table) g.base

def fragment (g : Guess) : Value := .table [("parser".toList, .table g.parserTable)]

end Guess

end Delimited
