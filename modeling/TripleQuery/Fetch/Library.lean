import TripleQuery.Fetch.State
import TripleQuery.Graph.Basic
/-!
# A library of documents in memory

A library keeps the contents of documents, or the reason why one cannot be loaded. A request only
puts the document on a queue; a delivery takes the oldest document off the queue, adds its
statements to the store, marks it resolved and hands over those who watched for it. Documents are
named without fragments. Watchers are of any type `κ`.
-/

namespace TripleQuery

/-- What is known of a document that was requested at least once. -/
inductive FetchRecord where
  /-- It is on the queue. -/
  | requested
  /-- Its last delivery had this outcome. -/
  | resolved (o : FetchOutcome)
deriving DecidableEq, Inhabited

/-- The state of a document with this record. -/
def FetchRecord.state : FetchRecord → FetchState
  | requested => .requested
  | resolved o => o.state

/-- Documents in memory, the requests for them, and who watches for what. -/
structure Library (κ : Type) where
  /-- The contents of documents, or why they cannot be loaded. -/
  shelf : Std.ExtTreeMap String (Except String (List Statement)) := ∅
  /-- The documents that were requested at least once. -/
  records : Std.ExtTreeMap String FetchRecord := ∅
  /-- The requested documents, the oldest request first. -/
  queue : List String := []
  /-- Those who watch for a document, the earliest first. -/
  watchers : Std.ExtTreeMap String (List κ) := ∅
  /-- Every document that was put on the queue, in order. -/
  log : List String := []

/-- What a delivery leaves behind. -/
structure Delivery (κ : Type) where
  library : Library κ
  graph : Graph
  outcome : FetchOutcome
  /-- Those who watched for the document, and are to be told now. -/
  watchers : List κ

/-- The store with the statements of a document, each marked with the document it comes from. -/
def Graph.load (g : Graph) (document : String) (ss : List Statement) : Graph :=
  g.addAll (ss.map (·.withWhy (.symbol document)))

namespace Library

variable {κ : Type}

/-- Make a document available. -/
def publish (l : Library κ) (document : String) (ss : List Statement) : Library κ :=
  { l with shelf := l.shelf.insert (documentPart document) (.ok ss) }

/-- Make a document impossible to load. -/
def failWith (l : Library κ) (document reason : String) : Library κ :=
  { l with shelf := l.shelf.insert (documentPart document) (.error reason) }

/-- The state of a document. -/
def state (l : Library κ) (resource : String) : FetchState :=
  match l.records[documentPart resource]? with
  | some r => r.state
  | none => .unrequested

/-- The outcome of a document's last delivery, unless it was requested again since. -/
def outcome? (l : Library κ) (resource : String) : Option FetchOutcome :=
  match l.records[documentPart resource]? with
  | some (.resolved o) => some o
  | _ => none

/-- Put a document on the queue. -/
def enqueue (l : Library κ) (document : String) : Library κ :=
  { l with
    records := l.records.insert document .requested
    queue := l.queue ++ [document]
    log := l.log ++ [document] }

/-- Ask for a document that was never asked for; otherwise do nothing. -/
def request (l : Library κ) (resource : String) : Library κ :=
  match l.records[documentPart resource]? with
  | some _ => l
  | none => l.enqueue (documentPart resource)

/-- Ask for a document again, unless it is on the queue already. -/
def refresh (l : Library κ) (resource : String) : Library κ :=
  match l.records[documentPart resource]? with
  | some .requested => l
  | _ => l.enqueue (documentPart resource)

/-- Watch for a document. If it is resolved, the watcher is to be told the given outcome at once;
otherwise the library keeps it. -/
def watch (l : Library κ) (resource : String) (w : κ) : Library κ × Option FetchOutcome :=
  match l.outcome? resource with
  | some o => (l, some o)
  | none =>
    let document := documentPart resource
    let earlier := l.watchers[document]?.getD []
    ({ l with watchers := l.watchers.insert document (earlier ++ [w]) }, none)

/-- What the shelf says of a document. One that was never put there is not found. -/
def contents (l : Library κ) (document : String) : Except String (List Statement) :=
  l.shelf[document]?.getD (.error "not found")

/-- Load a document into the store. -/
def fetch (l : Library κ) (g : Graph) (document : String) : Graph × FetchOutcome :=
  match l.contents document with
  | .ok ss =>
    let g' := g.load document ss
    (g', ⟨document, none, g'.size - g.size⟩)
  | .error reason => (g, ⟨document, some reason, 0⟩)

/-- Resolve the oldest request, if there is one. -/
def deliver (l : Library κ) (g : Graph) : Option (Delivery κ) :=
  match l.queue with
  | [] => none
  | document :: queue =>
    let (g', outcome) := l.fetch g document
    some
      { library :=
          { l with
            records := l.records.insert document (.resolved outcome)
            queue := queue
            watchers := l.watchers.erase document }
        graph := g'
        outcome := outcome
        watchers := l.watchers[document]?.getD [] }

/-- Everyone who watches for some document. -/
def allWatchers (l : Library κ) : List κ :=
  l.watchers.toList.flatMap (·.2)

end Library

end TripleQuery
