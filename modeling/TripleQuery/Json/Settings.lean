import TripleQuery.Json.Terms
import TripleQuery.Search.Config
import TripleQuery.Fetch.State
/-!
# Settings and reports in JSON

The settings of a search are a record all of whose members may be absent, or an array that may end
early; what is absent takes its default. They can be read from the bytes of a file, which may be
missing or not hold text. The state of a document is a tagged value, and the summary of a search a
record.
-/

namespace TripleQuery

namespace Json

/-! ## The settings of a search -/

/-- What has been read of the settings. -/
structure SettingParts where
  followLinks : Option Bool := none
  fetchPredicates : Option Bool := none
  maxMatches : Option (Option Nat) := none

/-- The fields of the settings. -/
def settingFields : List (Field SettingParts) :=
  [.of "follow_links" (fun _ => truth) (·.followLinks) fun v s => { s with followLinks := some v },
    .of "fetch_predicates" (fun _ => truth) (·.fetchPredicates)
      fun v s => { s with fetchPredicates := some v },
    .of "max_matches" (fun _ => optional natural) (·.maxMatches)
      fun v s => { s with maxMatches := some v }]

/-- The settings made of their parts, with defaults for what is missing. -/
def SettingParts.build (p : SettingParts) : Option SearchConfig :=
  let standard : SearchConfig := {}
  some ⟨p.followLinks.getD standard.followLinks, p.fetchPredicates.getD standard.fetchPredicates,
    p.maxMatches.getD standard.maxMatches⟩

/-- The settings of a search. -/
def readConfig : Nat → Reader SearchConfig :=
  record settingFields true {} SettingParts.build

/-- The settings of a search as a record. -/
def writeConfig (c : SearchConfig) : List Char :=
  writeObject
    [("follow_links", writeBool c.followLinks),
      ("fetch_predicates", writeBool c.fetchPredicates),
      ("max_matches", writeOption writeNat c.maxMatches)]

/-! ## Reports -/

/-- The tags of the states of a document. -/
def stateTags : String → Option (Tagged FetchState)
  | "Unrequested" => some (.alone .unrequested)
  | "Requested" => some (.alone .requested)
  | "Fetched" => some (.alone .fetched)
  | "Failed" => some (.carrying fun _ cs => (text cs).map fun (r, rest) => (.failed r, rest))
  | _ => none

/-- The state of a document. -/
def readState : Nat → Reader FetchState :=
  tagged stateTags

/-- The state of a document: its tag alone, or with the reason of a failure. -/
def writeState : FetchState → List Char
  | .unrequested => writeString "Unrequested"
  | .requested => writeString "Requested"
  | .fetched => writeString "Fetched"
  | .failed reason => writeTagged "Failed" (writeString reason)

/-- What has been read of a summary. -/
structure SummaryParts where
  matchCount : Option Nat := none
  fetches : Option Nat := none
  truncated : Option Bool := none
  cancelled : Option Bool := none

/-- The fields of a summary. -/
def summaryFields : List (Field SummaryParts) :=
  [.of "matches" (fun _ => natural) (·.matchCount) fun v s => { s with matchCount := some v },
    .of "fetches" (fun _ => natural) (·.fetches) fun v s => { s with fetches := some v },
    .of "truncated" (fun _ => truth) (·.truncated) fun v s => { s with truncated := some v },
    .of "cancelled" (fun _ => truth) (·.cancelled) fun v s => { s with cancelled := some v }]

/-- The summary made of its parts, none of which must be missing. -/
def SummaryParts.build (p : SummaryParts) : Option SearchSummary := do
  return ⟨← p.matchCount, ← p.fetches, ← p.truncated, ← p.cancelled⟩

/-- The summary of a search. -/
def readSummary : Nat → Reader SearchSummary :=
  record summaryFields false {} SummaryParts.build

/-- The summary of a search as a record. -/
def writeSummary (s : SearchSummary) : List Char :=
  writeObject
    [("matches", writeNat s.matchCount),
      ("fetches", writeNat s.fetches),
      ("truncated", writeBool s.truncated),
      ("cancelled", writeBool s.cancelled)]

end Json

/-! ## Settings from a file -/

/-- Why settings cannot be taken from a file. -/
inductive LoadError where
  /-- There is no file. -/
  | missing
  /-- The bytes of the file are no text. -/
  | notText
  /-- The text is not that of settings. -/
  | fault (f : Json.Fault)
deriving DecidableEq

namespace SearchConfig

/-- The settings that a text describes. -/
def ofText (s : String) : Except Json.Fault SearchConfig :=
  Json.readText Json.readConfig s

/-- The settings that the bytes of a file describe, if there is one. -/
def ofFile (contents : Option ByteArray) : Except LoadError SearchConfig :=
  match contents with
  | none => .error .missing
  | some bytes =>
    match String.fromUTF8? bytes with
    | none => .error .notText
    | some s =>
      match ofText s with
      | .error f => .error (.fault f)
      | .ok c => .ok c

end SearchConfig

end TripleQuery
