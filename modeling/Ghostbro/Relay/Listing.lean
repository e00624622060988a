import Ghostbro.Foundation.Text
import Ghostbro.Relay.Fetch
import Ghostbro.Relay.Responses

/-!
# Reading a job list

A list response has a line for each live job, with six fields, a tab after each, and the source.
None of the fields holds a tab or a line break: they are hexadecimal digits, words of the code and
decimal numbers.  The source is the text of the client, as it came.  A URL parser drops tabs and
line breaks, so the validation lets them through; a tab does no harm in the last place, a line
break ends the line.
-/

namespace Ghostbro.Relay

open Machine Text

/-! ### Lines and fields -/

/-- The fields before the source. -/
def JobRow.columns (row : JobRow) : List String :=
  [row.jobId, row.kind.text, row.status.text, toString row.httpStatus, toString row.bodyLen,
    if row.normalized then "1" else "0"]

/-- The fields of a row. -/
def JobRow.fields (row : JobRow) : List (List Char) :=
  (row.columns ++ [row.source]).map String.toList

section Runs

variable {externals : Externals} {config : RelayConfig} {state : State} {now : UInt64}
  {events : List Event} {outputs : List Output}

end Runs

namespace Sample

end Sample

/-! ### What the validation lets through -/

namespace Sample

end Sample

end Ghostbro.Relay
