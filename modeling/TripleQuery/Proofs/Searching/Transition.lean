import TripleQuery.Search.Work
import TripleQuery.Proofs.Matching.Unifying
/-!
# Transitions — all that a job can do

`Transition` lists, one constructor each, what a job does when the search, the
branch and the junction it refers to are there (`Searches.Serves`). A property
of searches at work is shown by going through this list; nothing below it looks
into the functions that carry out a job. `Searches.transition_run` says that
the list is complete. `Leaves` is the same list by the orders that are left
(`Transition.leaves`): where an order comes from is read off it.
-/

namespace TripleQuery

/-- What a job refers to is there. -/
def Searches.Serves (t : Searches) : Job → Prop
  | .start _ => True
  | .step f => f.search ∈ t.searches ∧ f.branch ∈ t.branches
  | .await f _ _ => f.search ∈ t.searches
  | .report b _ => ∃ y, t.branches[b]? = some y ∧ y.search ∈ t.searches
  | .drain i => i ∈ t.searches
  | .release b => ∃ y, t.branches[b]? = some y ∧ y.search ∈ t.searches ∧
      ∀ j slot, y.role = .clause j slot → j ∈ t.junctions

/-- What a job does to the table of searches, and the orders it leaves. -/
inductive Transition (env : Surroundings) (t : Searches) : Job → Searches → List Order → Prop
  /-- A scope is not entered by bindings that break its constraints. -/
  | barred {f : Frame} :
      f.isAllowed f.bindings = false →
      Transition env t (.start f) t [.job (.release f.branch)]
  /-- A scope is entered. -/
  | entered {f : Frame} :
      f.isAllowed f.bindings = true →
      Transition env t (.start f) t [.job (.step f)]
  /-- A path of a stopped search is given up. -/
  | halted {f : Frame} {x : Search} :
      t.searches[f.search]? = some x → x.stopped = true →
      Transition env t (.step f) t [.job (.release f.branch)]
  /-- A document is asked for. -/
  | asked {f : Frame} {x : Search} {d : String} :
      t.searches[f.search]? = some x → x.stopped = false → x.nextFetch env f = some d →
      env.isUnrequested d = true →
      Transition env t (.step f) t
        [.enterSource, .request d, .job (.await f d true), .leaveSource]
  /-- A document that was asked for before is waited for. -/
  | awaited {f : Frame} {x : Search} {d : String} :
      t.searches[f.search]? = some x → x.stopped = false → x.nextFetch env f = some d →
      env.isUnrequested d = false →
      Transition env t (.step f) t [.enterSource, .job (.await f d false), .leaveSource]
  /-- A path has no triple left, and its pattern no clause. -/
  | exhausted {f : Frame} {x : Search} :
      t.searches[f.search]? = some x → x.stopped = false → x.nextFetch env f = none →
      f.remaining = [] → f.scope.clauses = [] →
      Transition env t (.step f) t
        [.job (.report f.branch [f.bindings]), .job (.release f.branch)]
  /-- A path has no triple left and goes on into the clauses. -/
  | split {f : Frame} {x : Search} :
      t.searches[f.search]? = some x → x.stopped = false → x.nextFetch env f = none →
      f.remaining = [] → f.scope.clauses ≠ [] →
      Transition env t (.step f) (t.split f).1 (t.split f).2
  /-- A triple is no pattern for what it meets. -/
  | failed {f : Frame} {x : Search} {e : QueryError} :
      t.searches[f.search]? = some x → x.stopped = false → x.nextFetch env f = none →
      f.remaining ≠ [] → f.expand env.graph = .error e →
      Transition env t (.step f) { t with searches := t.searches.insert f.search (x.fail e) }
        [.job (.release f.branch)]
  /-- A triple is matched, and every alternative goes on. -/
  | expanded {f : Frame} {x : Search} {y : Branch} {fs : List Frame} :
      t.searches[f.search]? = some x → x.stopped = false → x.nextFetch env f = none →
      f.remaining ≠ [] → f.expand env.graph = .ok fs → t.branches[f.branch]? = some y →
      Transition env t (.step f)
        { t with
          branches := t.branches.insert f.branch { y with holders := y.holders + fs.length } }
        (fs.map (fun f' => .job (.step f')) ++ [.job (.release f.branch)])
  /-- A path is parked. -/
  | parked {f : Frame} {d : String} :
      Transition env t (.await f d false)
        { t with parked := t.parked.insert t.next (f.awaiting d), next := t.next + 1 }
        [.watch d t.next]
  /-- A path is parked for a document that was just asked for. -/
  | parkedAsked {f : Frame} {d : String} {x : Search} :
      t.searches[f.search]? = some x →
      Transition env t (.await f d true)
        { t with
          searches := t.searches.insert f.search (x.noteRequest d)
          parked := t.parked.insert t.next (f.awaiting d)
          next := t.next + 1 }
        [.watch d t.next]
  /-- Nothing is left to report. -/
  | reported {b : Id} : Transition env t (.report b []) t []
  /-- A stopped search takes no match. -/
  | refused {b : Id} {m : Bindings} {ms : List Bindings} {y : Branch} {x : Search} :
      t.branches[b]? = some y → t.searches[y.search]? = some x → x.stopped = true →
      Transition env t (.report b (m :: ms)) t [.job (.report b ms)]
  /-- A clause keeps a match. -/
  | kept {b : Id} {m : Bindings} {ms : List Bindings} {y : Branch} {x : Search} {j : Id}
      {slot : Nat} :
      t.branches[b]? = some y → t.searches[y.search]? = some x → x.stopped = false →
      y.role = .clause j slot →
      Transition env t (.report b (m :: ms))
        { t with branches := t.branches.insert b { y with found := y.found ++ [m] } }
        [.job (.report b ms)]
  /-- A match is queued while the caller is told of others. -/
  | queued {b : Id} {m : Bindings} {ms : List Bindings} {y : Branch} {x : Search} :
      t.branches[b]? = some y → t.searches[y.search]? = some x → x.stopped = false →
      y.role = .root → x.delivering = true →
      Transition env t (.report b (m :: ms))
        { t with searches := t.searches.insert y.search (x.take m) } [.job (.report b ms)]
  /-- A match is queued, and the caller is to be told at once. -/
  | announced {b : Id} {m : Bindings} {ms : List Bindings} {y : Branch} {x : Search} :
      t.branches[b]? = some y → t.searches[y.search]? = some x → x.stopped = false →
      y.role = .root → x.delivering = false →
      Transition env t (.report b (m :: ms))
        { t with searches := t.searches.insert y.search { x.take m with delivering := true } }
        [.job (.drain y.search), .job (.report b ms)]
  /-- The caller was told of everything. -/
  | drained {i : Id} {x : Search} :
      t.searches[i]? = some x → x.queue = [] →
      Transition env t (.drain i)
        { t with searches := t.searches.insert i { x with delivering := false } } []
  /-- The caller is told of the first queued match. -/
  | delivered {i : Id} {x : Search} {m : Bindings} {ms : List Bindings} :
      t.searches[i]? = some x → x.queue = m :: ms →
      Transition env t (.drain i)
        { t with searches := t.searches.insert i { x with queue := ms } }
        [.deliver i m, .job (.drain i)]
  /-- A piece of work is done, and others on the branch are not. -/
  | released {b : Id} {y : Branch} :
      t.branches[b]? = some y → 1 < y.holders →
      Transition env t (.release b)
        { t with branches := t.branches.insert b { y with holders := y.holders - 1 } } []
  /-- The last piece of work on the root branch is done. -/
  | finished {b : Id} {y : Branch} {x : Search} :
      t.branches[b]? = some y → y.holders ≤ 1 → y.role = .root →
      t.searches[y.search]? = some x →
      Transition env t (.release b)
        { t with
          branches := t.branches.erase b
          searches := t.searches.insert y.search { x with finished := true } }
        [.finish y.search x.result]
  /-- The last piece of work on a clause is done, and other clauses are not complete. -/
  | filled {b : Id} {y : Branch} {j : Id} {slot : Nat} {jn : Junction} :
      t.branches[b]? = some y → y.holders ≤ 1 → y.role = .clause j slot →
      t.junctions[j]? = some jn → (jn.fill slot y.results).combinations? = none →
      Transition env t (.release b)
        { t with
          branches := t.branches.erase b
          junctions := t.junctions.insert j (jn.fill slot y.results) } []
  /-- The last piece of work on the last clause is done. -/
  | combined {b : Id} {y : Branch} {j : Id} {slot : Nat} {jn : Junction}
      {combos : List Bindings} :
      t.branches[b]? = some y → y.holders ≤ 1 → y.role = .clause j slot →
      t.junctions[j]? = some jn → (jn.fill slot y.results).combinations? = some combos →
      Transition env t (.release b)
        { t with
          branches := t.branches.erase b
          junctions := t.junctions.erase j }
        [.job (.report jn.parent combos), .job (.release jn.parent)]

/-- **An order that a job leaves**, by what it is left for. -/
inductive Leaves (env : Surroundings) (t t' : Searches) : Job → Order → Prop
  /-- A path lets go of the branch of a scope that it may not enter. -/
  | barred {f : Frame} : Leaves env t t' (.start f) (.job (.release f.branch))
  /-- A path goes on in the scope that it has entered. -/
  | entered {f : Frame} :
      f.isAllowed f.bindings = true → Leaves env t t' (.start f) (.job (.step f))
  /-- A path lets go of its branch. -/
  | ended {f : Frame} : Leaves env t t' (.step f) (.job (.release f.branch))
  | enterSource {f : Frame} {x : Search} {d : String} :
      t.searches[f.search]? = some x → x.nextFetch env f = some d →
      Leaves env t t' (.step f) .enterSource
  | request {f : Frame} {x : Search} {d : String} :
      t.searches[f.search]? = some x → x.nextFetch env f = some d →
      Leaves env t t' (.step f) (.request d)
  /-- A path waits for a document, which is asked for if nobody has. -/
  | await {f : Frame} {x : Search} {d : String} {asked : Bool} :
      t.searches[f.search]? = some x → x.nextFetch env f = some d →
      env.isUnrequested d = asked → Leaves env t t' (.step f) (.job (.await f d asked))
  | leaveSource {f : Frame} {x : Search} {d : String} :
      t.searches[f.search]? = some x → x.nextFetch env f = some d →
      Leaves env t t' (.step f) .leaveSource
  /-- A path with no triple left reports what it has found. -/
  | found {f : Frame} :
      f.remaining = [] → Leaves env t t' (.step f) (.job (.report f.branch [f.bindings]))
  /-- Or it enters a clause. -/
  | clause {f : Frame} {k : Nat} {c : Scope} :
      f.remaining = [] → f.scope.clauses[k]? = some c → t' = (t.split f).1 →
      Leaves env t t' (.step f)
        (.job (.start (.enter f.search (t.next + 1 + k) c (c.startFrom f.bindings) f.awaited)))
  /-- A path goes on with a triple matched. -/
  | matched {f f' : Frame} {fs : List Frame} :
      f.expand env.graph = .ok fs → f' ∈ fs → Leaves env t t' (.step f) (.job (.step f'))
  /-- A path that is parked is to be called. -/
  | watch {f : Frame} {d : String} {asked : Bool} :
      t'.parked = t.parked.insert t.next (f.awaiting d) → t'.next = t.next + 1 →
      Leaves env t t' (.await f d asked) (.watch d t.next)
  /-- The other matches are reported. -/
  | others {b : Id} {m : Bindings} {ms : List Bindings} :
      Leaves env t t' (.report b (m :: ms)) (.job (.report b ms))
  /-- The caller is to be told of a match that was reported. -/
  | announced {b : Id} {m : Bindings} {ms : List Bindings} {y : Branch} :
      t.branches[b]? = some y → y.role = .root →
      Leaves env t t' (.report b (m :: ms)) (.job (.drain y.search))
  | delivered {i : Id} {x : Search} {m : Bindings} {ms : List Bindings} :
      t.searches[i]? = some x → x.queue = m :: ms → Leaves env t t' (.drain i) (.deliver i m)
  /-- And then of the others. -/
  | again {i : Id} : Leaves env t t' (.drain i) (.job (.drain i))
  | finished {b : Id} {y : Branch} {x : Search} :
      t.branches[b]? = some y → y.role = .root → t.searches[y.search]? = some x →
      Leaves env t t' (.release b) (.finish y.search x.result)
  /-- A junction reports the combinations. -/
  | combined {b : Id} {y : Branch} {j : Id} {slot : Nat} {jn : Junction}
      {combos : List Bindings} :
      t.branches[b]? = some y → y.role = .clause j slot → t.junctions[j]? = some jn →
      (jn.fill slot y.results).combinations? = some combos →
      Leaves env t t' (.release b) (.job (.report jn.parent combos))
  /-- And lets go of the branch that it reports to. -/
  | completed {b : Id} {y : Branch} {j : Id} {slot : Nat} {jn : Junction} :
      t.branches[b]? = some y → y.role = .clause j slot → t.junctions[j]? = some jn →
      Leaves env t t' (.release b) (.job (.release jn.parent))

section

variable {env : Surroundings} {t t' : Searches} {job : Job} {os : List Order} {o : Order}
  {P : Order → Prop}

/-- What holds of every order to enter a clause holds of those for a path. -/
theorem Searches.forall_mem_split (t : Searches) (f : Frame)
    (h : ∀ f' : Frame, P (.job (.start f'))) : ∀ o ∈ (t.split f).2, P o := by
  intro o ho
  obtain ⟨k, hk, rfl⟩ := List.mem_mapIdx.1 ho
  exact h _

/-- What holds of every path that goes on and of the branch that is let go holds
of the orders that are left when a triple is matched. -/
theorem forall_mem_steps {fs : List Frame} {b : Id} (h : ∀ f' ∈ fs, P (.job (.step f')))
    (hb : P (.job (.release b))) :
    ∀ o ∈ fs.map (fun f' => Order.job (.step f')) ++ [.job (.release b)], P o := by
  intro o ho
  rcases List.mem_append.1 ho with ho | ho
  · obtain ⟨f', hf', rfl⟩ := List.mem_map.1 ho
    exact h f' hf'
  · obtain rfl := List.mem_singleton.1 ho
    exact hb

/-- **A job leaves one of the listed orders.** -/
theorem Transition.leaves (h : Transition env t job t' os) (ho : o ∈ os) :
    Leaves env t t' job o := by
  cases h with
  | barred _ =>
    obtain rfl := List.mem_singleton.1 ho
    exact .barred
  | entered hf =>
    obtain rfl := List.mem_singleton.1 ho
    exact .entered hf
  | halted _ _ | failed _ _ _ _ _ =>
    obtain rfl := List.mem_singleton.1 ho
    exact .ended
  | asked hx _ hd hu =>
    simp only [List.mem_cons, List.not_mem_nil, or_false] at ho
    rcases ho with rfl | rfl | rfl | rfl
    · exact .enterSource hx hd
    · exact .request hx hd
    · exact .await hx hd hu
    · exact .leaveSource hx hd
  | awaited hx _ hd hu =>
    simp only [List.mem_cons, List.not_mem_nil, or_false] at ho
    rcases ho with rfl | rfl | rfl
    · exact .enterSource hx hd
    · exact .await hx hd hu
    · exact .leaveSource hx hd
  | exhausted _ _ _ hr _ =>
    simp only [List.mem_cons, List.not_mem_nil, or_false] at ho
    rcases ho with rfl | rfl
    · exact .found hr
    · exact .ended
  | split _ _ _ hr _ =>
    obtain ⟨k, hk, rfl⟩ := List.mem_mapIdx.1 ho
    exact .clause hr (List.getElem?_eq_getElem hk) rfl
  | expanded _ _ _ _ he _ =>
    exact forall_mem_steps (fun f' hf' => .matched he hf') .ended o ho
  | parked | parkedAsked _ =>
    obtain rfl := List.mem_singleton.1 ho
    exact .watch rfl rfl
  | reported | drained _ _ | released _ _ | filled _ _ _ _ _ => cases ho
  | refused _ _ _ | kept _ _ _ _ | queued _ _ _ _ _ =>
    obtain rfl := List.mem_singleton.1 ho
    exact .others
  | announced hy _ _ hr _ =>
    simp only [List.mem_cons, List.not_mem_nil, or_false] at ho
    rcases ho with rfl | rfl
    · exact .announced hy hr
    · exact .others
  | delivered hx hq =>
    simp only [List.mem_cons, List.not_mem_nil, or_false] at ho
    rcases ho with rfl | rfl
    · exact .delivered hx hq
    · exact .again
  | finished hy _ hr hx =>
    obtain rfl := List.mem_singleton.1 ho
    exact .finished hy hr hx
  | combined hy _ hr hj hc =>
    simp only [List.mem_cons, List.not_mem_nil, or_false] at ho
    rcases ho with rfl | rfl
    · exact .combined hy hr hj hc
    · exact .completed hy hr hj

end

namespace Searches

variable {t : Searches} {i b : Id} {x : Search} {f : Frame}

/-- Changing a search that is there replaces it. -/
theorem update_of_getElem? (h : t.searches[i]? = some x) (change : Search → Search) :
    t.update i change = { t with searches := t.searches.insert i (change x) } := by
  simp [update, h]

theorem transition_start (env : Surroundings) (t : Searches) (f : Frame) :
    Transition env t (.start f) (t.start f).1 (t.start f).2 := by
  unfold start
  cases h : f.isAllowed f.bindings with
  | false => exact .barred h
  | true => exact .entered h

theorem transition_branchOut (env : Surroundings) (hx : t.searches[f.search]? = some x)
    (hs : x.stopped = false) (hd : x.nextFetch env f = none) (hr : f.remaining ≠ [])
    (hb : f.branch ∈ t.branches) :
    Transition env t (.step f) (t.branchOut env f).1 (t.branchOut env f).2 := by
  obtain ⟨y, hy⟩ := exists_getElem? hb
  unfold branchOut
  cases he : f.expand env.graph with
  | error e =>
    simp only [update_of_getElem? hx]
    exact .failed hx hs hd hr he
  | ok fs =>
    simp only [hold, hy]
    exact .expanded hx hs hd hr he hy

theorem transition_step (env : Surroundings) (h : t.Serves (.step f)) :
    Transition env t (.step f) (t.step env f).1 (t.step env f).2 := by
  obtain ⟨x, hx⟩ := exists_getElem? h.1
  simp only [step, hx]
  cases hs : x.stopped with
  | true => exact .halted hx hs
  | false =>
    simp only [Bool.false_eq_true, if_false]
    cases hd : x.nextFetch env f with
    | some d =>
      simp only [suspend]
      cases hu : env.isUnrequested d with
      | true => exact .asked hx hs hd hu
      | false => exact .awaited hx hs hd hu
    | none =>
      simp only [List.isEmpty_iff]
      split
      · rename_i hr
        simp only [exhaust, List.isEmpty_iff]
        split
        · rename_i hc
          exact .exhausted hx hs hd hr hc
        · rename_i hc
          exact .split hx hs hd hr hc
      · rename_i hr
        exact transition_branchOut env hx hs hd hr h.2

theorem transition_await (env : Surroundings) {d : String} {asked : Bool}
    (h : t.Serves (.await f d asked)) :
    Transition env t (.await f d asked) (t.await f d asked).1 (t.await f d asked).2 := by
  obtain ⟨x, hx⟩ := exists_getElem? h
  cases asked with
  | false => exact .parked
  | true =>
    simp only [await, if_true, update_of_getElem? hx, park]
    exact .parkedAsked hx

theorem transition_report (env : Surroundings) {ms : List Bindings}
    (h : t.Serves (.report b ms)) :
    Transition env t (.report b ms) (t.report b ms).1 (t.report b ms).2 := by
  obtain ⟨y, hy, hx⟩ := h
  obtain ⟨x, hx⟩ := exists_getElem? hx
  cases ms with
  | nil => exact .reported
  | cons m ms =>
    simp only [report, reportOne, hy, hx]
    cases hs : x.stopped with
    | true => exact .refused hy hx hs
    | false =>
      simp only [Bool.false_eq_true, if_false, accept]
      split
      · rename_i j slot hr
        exact .kept hy hx hs hr
      · rename_i hr
        cases hd : x.delivering with
        | true =>
          simp only [if_true, update_of_getElem? hx]
          exact .queued hy hx hs hr hd
        | false =>
          simp only [Bool.false_eq_true, if_false, update_of_getElem? hx]
          exact .announced hy hx hs hr hd

theorem transition_drain (env : Surroundings) (h : t.Serves (.drain i)) :
    Transition env t (.drain i) (t.drain i).1 (t.drain i).2 := by
  obtain ⟨x, hx⟩ := exists_getElem? h
  simp only [drain, hx]
  cases hq : x.queue with
  | nil =>
    simp only [update_of_getElem? hx]
    exact .drained hx hq
  | cons m ms =>
    simp only [update_of_getElem? hx]
    exact .delivered hx hq

theorem transition_release (env : Surroundings) (h : t.Serves (.release b)) :
    Transition env t (.release b) (t.release b).1 (t.release b).2 := by
  obtain ⟨y, hy, hx, hj⟩ := h
  simp only [release, hy]
  split
  · rename_i hle
    simp only [complete]
    cases hr : y.role with
    | root =>
      obtain ⟨x, hx⟩ := exists_getElem? hx
      simp only [finish, update, hx]
      exact .finished hy hle hr hx
    | clause j slot =>
      obtain ⟨jn, hjn⟩ := exists_getElem? (hj j slot hr)
      simp only [fill, hjn]
      cases hc : (jn.fill slot y.results).combinations? with
      | none => exact .filled hy hle hr hjn hc
      | some combos =>
        change Transition env t (.release b) _
          [.job (.report jn.parent combos), .job (.release jn.parent)]
        exact .combined hy hle hr hjn hc
  · rename_i hlt
    exact .released hy (by omega)

/-- **A job whose search, branch and junction are there does one of the listed
things.** -/
theorem transition_run (env : Surroundings) {job : Job} (h : t.Serves job) :
    Transition env t job (t.run env job).1 (t.run env job).2 := by
  cases job with
  | start f => exact transition_start env t f
  | step f => exact transition_step env h
  | await f d asked => exact transition_await env h
  | report b ms => exact transition_report env h
  | drain i => exact transition_drain env h
  | release b => exact transition_release env h

end Searches

end TripleQuery
