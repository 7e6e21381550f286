import TripleQuery.Search.Basic
/-!
# The work of searches

A search is carried out in jobs. A job reads the store and the state of documents, changes the table
of searches, and leaves orders to be carried out next, in their order, before anything that was
waiting already. Some orders are jobs again; the others ask the surroundings to request a document,
to watch for one on behalf of a parked path, to tell the caller of a match, or to tell the caller
that the search is done. What the surroundings do in between may start, stop and resume searches,
this one included.

Every piece of unfinished work on a branch is counted by the branch, and a branch whose last piece
of work is released is complete (`Searches.release`): the root branch tells the caller, the branch
of a clause fills its place in the junction.
-/

namespace TripleQuery

/-- A piece of work of a search. -/
inductive Job where
  /-- Enter a scope: go on only if the bindings keep its constraints. -/
  | start (f : Frame)
  /-- Take a path one step further. -/
  | step (f : Frame)
  /-- Park a path until a document is there. The document may just have been asked for. -/
  | await (f : Frame) (document : String) (asked : Bool)
  /-- Report matches to a branch, one after the other. -/
  | report (branch : Id) (found : List Bindings)
  /-- Tell the caller of the queued matches, one after the other. -/
  | drain (search : Id)
  /-- One piece of work on a branch is done. -/
  | release (branch : Id)
deriving Inhabited

/-- What is to be done next. -/
inductive Order where
  /-- Go on with the work of a search. -/
  | job (j : Job)
  /-- Refer to the source of documents from here on. -/
  | enterSource
  /-- Refer to the source of documents no more. -/
  | leaveSource
  /-- Ask for a document. -/
  | request (document : String)
  /-- See to it that a parked path is resumed once a document is there. -/
  | watch (document : String) (ticket : Id)
  /-- Tell the caller of a match. -/
  | deliver (search : Id) (found : Bindings)
  /-- Tell the caller that the search is done. -/
  | finish (search : Id) (result : Except QueryError SearchSummary)
deriving Inhabited

/-- What a job can see of the world. -/
structure Surroundings where
  /-- The store of statements. -/
  graph : Graph
  /-- The state of documents, if there is a source of documents. -/
  state? : Option (String → FetchState)

/-- All searches with their branches, junctions and parked paths. -/
structure Searches where
  searches : Std.ExtTreeMap Id Search := ∅
  branches : Std.ExtTreeMap Id Branch := ∅
  junctions : Std.ExtTreeMap Id Junction := ∅
  /-- The paths that wait for a document, by their ticket. -/
  parked : Std.ExtTreeMap Id Frame := ∅
  /-- The next number that names nothing yet. -/
  next : Id := 0

/-- The first document that a path of a search has to wait for, if the search reaches a source of
documents. -/
def Search.nextFetch (s : Search) (env : Surroundings) (f : Frame) : Option String :=
  if s.linked then
    env.state?.bind fun state => f.nextFetch s.config state s.requested
  else none

/-- Whether nobody has asked for a document yet. -/
def Surroundings.isUnrequested (env : Surroundings) (document : String) : Bool :=
  env.state?.any fun state => state document = .unrequested

namespace Searches

/-- Change the shared state of one search. -/
def update (t : Searches) (search : Id) (change : Search → Search) : Searches :=
  match t.searches[search]? with
  | none => t
  | some s => { t with searches := t.searches.insert search (change s) }

/-- Count more pieces of work on a branch. -/
def hold (t : Searches) (branch : Id) (n : Nat) : Searches :=
  match t.branches[branch]? with
  | none => t
  | some b =>
    { t with branches := t.branches.insert branch { b with holders := b.holders + n } }

/-! ## Completion -/

/-- The root branch is complete: the search is done. -/
def finish (t : Searches) (search : Id) : Searches × List Order :=
  match t.searches[search]? with
  | none => (t, [])
  | some s =>
    (t.update search fun s => { s with finished := true }, [.finish search s.result])

/-- A clause is complete: its results go to the junction, which reports once it has them all. -/
def fill (t : Searches) (junction : Id) (slot : Nat) (results : List Bindings) :
    Searches × List Order :=
  match t.junctions[junction]? with
  | none => (t, [])
  | some j =>
    let j := j.fill slot results
    match j.combinations? with
    | none => ({ t with junctions := t.junctions.insert junction j }, [])
    | some combos =>
      ({ t with junctions := t.junctions.erase junction },
        [.job (.report j.parent combos), .job (.release j.parent)])

/-- A branch on which no work is left goes away. -/
def complete (t : Searches) (branch : Id) (b : Branch) : Searches × List Order :=
  let t := { t with branches := t.branches.erase branch }
  match b.role with
  | .root => t.finish b.search
  | .clause junction slot => t.fill junction slot b.results

/-- One piece of work on a branch is done. The last one completes the branch. -/
def release (t : Searches) (branch : Id) : Searches × List Order :=
  match t.branches[branch]? with
  | none => (t, [])
  | some b =>
    if b.holders ≤ 1 then t.complete branch b
    else
      ({ t with branches := t.branches.insert branch { b with holders := b.holders - 1 } }, [])

/-! ## Matches -/

/-- Report one match to a branch of a search that goes on: a clause keeps it, and the root branch
queues it for the caller, who is told at once unless he is being told of another one. -/
def accept (t : Searches) (branch : Id) (b : Branch) (s : Search) (m : Bindings) :
    Searches × List Order :=
  match b.role with
  | .clause _ _ =>
    ({ t with branches := t.branches.insert branch { b with found := b.found ++ [m] } }, [])
  | .root =>
    if s.delivering then (t.update b.search (·.take m), [])
    else
      (t.update b.search fun s => { s.take m with delivering := true }, [.job (.drain b.search)])

/-- Report one match to a branch. A search that was stopped takes no more. -/
def reportOne (t : Searches) (branch : Id) (m : Bindings) : Searches × List Order :=
  match t.branches[branch]? with
  | none => (t, [])
  | some b =>
    match t.searches[b.search]? with
    | none => (t, [])
    | some s => if s.stopped then (t, []) else t.accept branch b s m

/-- Report matches to a branch, one after the other. -/
def report (t : Searches) (branch : Id) : List Bindings → Searches × List Order
  | [] => (t, [])
  | m :: ms =>
    let (t, orders) := t.reportOne branch m
    (t, orders ++ [.job (.report branch ms)])

/-- Tell the caller of the first queued match and come back for the next. -/
def drain (t : Searches) (search : Id) : Searches × List Order :=
  match t.searches[search]? with
  | none => (t, [])
  | some s =>
    match s.queue with
    | [] => (t.update search fun s => { s with delivering := false }, [])
    | m :: ms =>
      (t.update search fun s => { s with queue := ms }, [.deliver search m, .job (.drain search)])

/-! ## Paths -/

/-- Park a path until a document is there. -/
def park (t : Searches) (f : Frame) (document : String) : Searches × List Order :=
  ({ t with parked := t.parked.insert t.next (f.awaiting document), next := t.next + 1 },
    [.watch document t.next])

/-- Park a path, and if the document was asked for on its behalf, note that first. -/
def await (t : Searches) (f : Frame) (document : String) (asked : Bool) : Searches × List Order :=
  if asked then (t.update f.search (·.noteRequest document)).park f document
  else t.park f document

/-- The branches for the clauses of one pattern, numbered from `first`. -/
def addClauses (t : Searches) (search junction first : Id) (n : Nat) : Searches :=
  { t with
    branches := (List.range n).foldl
      (fun bs i => bs.insert (first + i) { search := search, role := .clause junction i })
      t.branches }

/-- Start the optional clauses of a path whose triples have all matched. A junction takes its place.
-/
def split (t : Searches) (f : Frame) : Searches × List Order :=
  let clauses := f.scope.clauses
  let junction := t.next
  let first := t.next + 1
  let t := t.addClauses f.search junction first clauses.length
  ({ t with
      junctions := t.junctions.insert junction
        ⟨f.bindings, f.branch, List.replicate clauses.length none⟩
      next := first + clauses.length },
    clauses.mapIdx fun i c =>
      .job (.start (.enter f.search (first + i) c (c.startFrom f.bindings) f.awaited)))

/-- A path whose triples have all matched reports its bindings, or goes on into the clauses. -/
def exhaust (t : Searches) (f : Frame) : Searches × List Order :=
  if f.scope.clauses.isEmpty then
    (t, [.job (.report f.branch [f.bindings]), .job (.release f.branch)])
  else t.split f

/-- Match the easiest remaining triple of a path and go on with every alternative. -/
def branchOut (t : Searches) (env : Surroundings) (f : Frame) : Searches × List Order :=
  match f.expand env.graph with
  | .error e => (t.update f.search (·.fail e), [.job (.release f.branch)])
  | .ok fs =>
    (t.hold f.branch fs.length, fs.map (fun f' => .job (.step f')) ++ [.job (.release f.branch)])

/-- Park a path for a document, asking for the document first if nobody has. The source is referred
to until the path is parked, or is back from a source that has the document already. -/
def suspend (t : Searches) (env : Surroundings) (f : Frame) (document : String) :
    Searches × List Order :=
  if env.isUnrequested document then
    (t, [.enterSource, .request document, .job (.await f document true), .leaveSource])
  else (t, [.enterSource, .job (.await f document false), .leaveSource])

/-- Take a path one step further: give up if the search was stopped, wait if a document has to be
there first, and otherwise match the next triple. -/
def step (t : Searches) (env : Surroundings) (f : Frame) : Searches × List Order :=
  match t.searches[f.search]? with
  | none => (t, [])
  | some s =>
    if s.stopped then (t, [.job (.release f.branch)])
    else
      match s.nextFetch env f with
      | some d => t.suspend env f d
      | none => if f.remaining.isEmpty then t.exhaust f else t.branchOut env f

/-- Enter a scope, unless the bindings break its constraints. -/
def start (t : Searches) (f : Frame) : Searches × List Order :=
  if f.isAllowed f.bindings then (t, [.job (.step f)]) else (t, [.job (.release f.branch)])

/-- Do one job. -/
def run (t : Searches) (env : Surroundings) : Job → Searches × List Order
  | .start f => t.start f
  | .step f => t.step env f
  | .await f document asked => t.await f document asked
  | .report branch ms => t.report branch ms
  | .drain search => t.drain search
  | .release branch => t.release branch

/-! ## What the surroundings may do -/

/-- Set up a search for a pattern. The answer is its number and the job that sets it going. -/
def launch (t : Searches) (config : SearchConfig) (linked : Bool) (p : Pattern) :
    Searches × Id × Job :=
  let search := t.next
  let branch := t.next + 1
  ({ t with
      searches := t.searches.insert search { config := config, linked := linked }
      branches := t.branches.insert branch { search := search, role := .root }
      next := branch + 1 },
    search,
    .start (.enter search branch (.ofPattern p) p.initial []))

/-- Resume a parked path. -/
def resume (t : Searches) (ticket : Id) : Searches × List Order :=
  match t.parked[ticket]? with
  | none => (t, [])
  | some f => ({ t with parked := t.parked.erase ticket }, [.job (.step f)])

/-- Give up a parked path. -/
def discard (t : Searches) (ticket : Id) : Searches × List Order :=
  match t.parked[ticket]? with
  | none => (t, [])
  | some f => ({ t with parked := t.parked.erase ticket }, [.job (.release f.branch)])

end Searches

end TripleQuery
