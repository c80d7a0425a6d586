import ConsumerGroups.Json.Printer
import ConsumerGroups.Json.Reader
import ConsumerGroups.Json.Record
import ConsumerGroups.Progress.Basic

/-! # Progress in JSON

A progress record is a flat record of five fields, all of which have to be given.
-/

namespace ConsumerGroups.Progress

/-- The names of the fields, in their declared order. -/
def fieldNames : List String := ["partition", "begin", "end", "offset", "metadata"]

def ofJson? (json : Json) : Option Progress := do
  let fields ← json.toFields? fieldNames
  let partition ← fields.required? "partition" Json.toInt32?
  let oldest ← fields.required? "begin" Json.toInt64?
  let newest ← fields.required? "end" Json.toInt64?
  let offset ← fields.required? "offset" Json.toInt64?
  let metadata ← fields.required? "metadata" Json.toString?
  pure { partition, oldest, newest, mark := { offset, metadata } }

def toJson (progress : Progress) : Json :=
  .ofMembers
    [("partition", .ofInt progress.partition.toInt),
     ("begin", .ofInt progress.oldest.toInt),
     ("end", .ofInt progress.newest.toInt),
     ("offset", .ofInt progress.mark.offset.toInt),
     ("metadata", .ofString progress.mark.metadata)]

def read? (text : String) : Option Progress :=
  (Json.parse? text).bind ofJson?

end ConsumerGroups.Progress
