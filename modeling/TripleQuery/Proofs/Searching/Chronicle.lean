import TripleQuery.Proofs.Searching.Sparing
import TripleQuery.Proofs.Searching.Stopped
/-!
# Chronicles — who took which match, and on whose behalf

A scene does not say what was reported in the past, nor which of its orders
report combinations, and of which junction. Its chronicle does (`Chronicle`): it
keeps every match that was taken, and every order that reports what a junction
has combined bears the number of the junction. A chronicle is nothing but a
record: whatever happens in a scene can be recorded
(`Scene.Steps.exists_recorded`), and what the branches of clauses keep is what
the chronicle says was reported to them (`Chronicle.IsTrue.kept`).
-/

namespace TripleQuery

open Std (ExtTreeMap)
open Relation (ReflTransGen)

variable {t t' : Searches} {os : List Order} {o : Order} {job : Job} {env : Surroundings}
  {mark : Option Id} {b i j k n : Nat} {m : Bindings} {y y' : Branch} {jn : Junction}
  {rs : List Bindings}

/-- A match that was taken. -/
structure Entry where
  /-- The branch that it was reported to. -/
  branch : Id
  found : Bindings
  /-- The junction that it was reported by, if it is a combination. -/
  behalf : Option Id
deriving Inhabited

/-- A scene, with what is known of its past. -/
structure Chronicle where
  graph : Graph
  table : Searches
  /-- The orders that are left, each with the junction that it reports for. -/
  orders : List (Order × Option Id)
  told : List Notice
  /-- The matches that were taken, the earliest first. -/
  log : List Entry

/-! ## What is recorded -/

/-- The match that a job has its branch take: a stopped search takes none. -/
def Searches.takes (t : Searches) : Job → Option (Id × Bindings)
  | .report b (m :: _) =>
    match t.branches[b]? with
    | none => none
    | some y =>
      match t.searches[y.search]? with
      | none => none
      | some x => if x.stopped then none else some (b, m)
  | _ => none

/-- The junction that waits for a branch. -/
def BranchRole.junction? : BranchRole → Option Id
  | .root => none
  | .clause j _ => some j

/-- The junction that an order reports for which a job leaves: a clause that is
complete leaves the combinations of its junction, and who has reported one match
goes on with the others. -/
def Searches.behalf (t : Searches) (job : Job) (mark : Option Id) : Order → Option Id
  | .job (.report _ _) =>
    match job with
    | .release b => t.branches[b]?.bind fun y => y.role.junction?
    | .report _ _ => mark
    | _ => none
  | _ => none

/-- What a job adds to the log. -/
def Searches.entries (t : Searches) (job : Job) (mark : Option Id) : List Entry :=
  (t.takes job).toList.map fun (b, m) => ⟨b, m, mark⟩

namespace Chronicle

variable {c c' : Chronicle}

/-- The scene alone. -/
def scene (c : Chronicle) : Scene :=
  ⟨c.graph, c.table, c.orders.map Prod.fst, c.told⟩

/-- The chronicle of a scene in which nothing has happened yet. -/
def start (g : Graph) : Chronicle :=
  ⟨g, {}, [], [], []⟩

/-- One thing that happens, and is recorded. -/
inductive Records : Chronicle → Chronicle → Prop
  /-- The first order is a job, and is done. -/
  | work {g : Graph} {t : Searches} {job : Job} {mark : Option Id}
      {rest : List (Order × Option Id)} {told : List Notice} {log : List Entry}
      (state? : Option (String → FetchState)) :
      Records ⟨g, t, (.job job, mark) :: rest, told, log⟩
        ⟨g, (t.run ⟨g, state?⟩ job).1,
          (t.run ⟨g, state?⟩ job).2.map (fun o => (o, t.behalf job mark o)) ++ rest,
          told, log ++ t.entries job mark⟩
  /-- The first order is for somebody else. -/
  | handOver {g : Graph} {t : Searches} {o : Order} {mark : Option Id}
      {rest : List (Order × Option Id)} {told : List Notice} {log : List Entry} :
      (∀ job, o ≠ .job job) →
      Records ⟨g, t, (o, mark) :: rest, told, log⟩ ⟨g, t, rest, told ++ o.notices, log⟩
  /-- No order is carried out: what happens might happen if none were left. -/
  | aside {g g' : Graph} {t t' : Searches} {os : List Order} {told told' : List Notice}
      {orders : List (Order × Option Id)} {log : List Entry} :
      Scene.Step ⟨g, t, [], told⟩ ⟨g', t', os, told'⟩ →
      Records ⟨g, t, orders, told, log⟩
        ⟨g', t', os.map (fun o => (o, none)) ++ orders, told', log⟩

/-- Whatever happens, and is recorded. -/
abbrev Recorded : Chronicle → Chronicle → Prop :=
  ReflTransGen Records

end Chronicle

/-! ## Whatever happens can be recorded -/

namespace Scene

variable {w w' : Scene} {g g' : Graph} {told told' : List Notice} {os' : List Order}

/-- What happens without an order being carried out may happen whatever orders
are left. -/
theorem Step.beside (h : Step ⟨g, t, [], told⟩ ⟨g', t', os', told'⟩) (os : List Order) :
    Step ⟨g, t, os, told⟩ ⟨g', t', os' ++ os, told'⟩ := by
  cases h with
  | add s => exact .add s
  | equate he => exact .equate he
  | launch config linked hp => exact .launch config linked hp
  | stop i => exact .stop i
  | cancel i => exact .cancel i
  | resume ticket =>
    rw [List.append_nil]
    exact .resume ticket
  | discard ticket =>
    rw [List.append_nil]
    exact .discard ticket

/-- **Every step can be recorded.** -/
theorem Step.exists_records {c : Chronicle} (h : Step w w') (hc : c.scene = w) :
    ∃ c', c.Records c' ∧ c'.scene = w' := by
  obtain ⟨g, t, orders, told, log⟩ := c
  subst hc
  have beside : ∀ {g' : Graph} {t' : Searches} {os : List Order} {told' : List Notice},
      Step ⟨g, t, [], told⟩ ⟨g', t', os, told'⟩ →
      ∃ c', Chronicle.Records ⟨g, t, orders, told, log⟩ c' ∧
        c'.scene = ⟨g', t', os ++ orders.map Prod.fst, told'⟩ := fun hstep =>
    ⟨_, .aside hstep, by simp [Chronicle.scene, List.map_append, Function.comp_def]⟩
  generalize ho : orders.map Prod.fst = os at h beside
  rw [Chronicle.scene, ho] at h
  cases h with
  | work state? =>
    obtain ⟨⟨o, mark⟩, rest, rfl, rfl, rfl⟩ := List.map_eq_cons_iff.1 ho
    refine ⟨_, .work state?, ?_⟩
    simp [Chronicle.scene, List.map_append, Function.comp_def]
  | handOver hjob =>
    obtain ⟨⟨o, mark⟩, rest, rfl, rfl, rfl⟩ := List.map_eq_cons_iff.1 ho
    exact ⟨_, .handOver hjob, rfl⟩
  | add s => exact beside (.add s)
  | equate he => exact beside (.equate he)
  | launch config linked hp => exact beside (.launch config linked hp)
  | stop i => exact beside (.stop i)
  | cancel i => exact beside (.cancel i)
  | resume ticket =>
    have hstep : Step ⟨g, t, [], told⟩ ⟨g, (t.resume ticket).1, (t.resume ticket).2 ++ [], told⟩ :=
      .resume ticket
    rw [List.append_nil] at hstep
    exact beside hstep
  | discard ticket =>
    have hstep : Step ⟨g, t, [], told⟩
        ⟨g, (t.discard ticket).1, (t.discard ticket).2 ++ [], told⟩ :=
      .discard ticket
    rw [List.append_nil] at hstep
    exact beside hstep

/-- **Whatever happens can be recorded.** -/
theorem Steps.exists_recorded {c : Chronicle} (h : Steps c.scene w) :
    ∃ c', c.Recorded c' ∧ c'.scene = w := by
  induction h with
  | refl => exact ⟨c, .refl, rfl⟩
  | tail _ hstep ih =>
    obtain ⟨c', hc', hscene⟩ := ih
    obtain ⟨c'', hc'', hscene'⟩ := hstep.exists_records hscene
    exact ⟨c'', hc'.tail hc'', hscene'⟩

end Scene

/-! ## What a chronicle says -/

/-- The matches that an order is to report. -/
def Order.reported : Order → List Bindings
  | .job (.report _ ms) => ms
  | _ => []

/-- What a log says was reported to a branch. -/
def reportedIn (log : List Entry) (b : Id) : List Bindings :=
  (log.filter fun e => e.branch = b).map Entry.found

/-- What a log says was reported by a junction. -/
def heardIn (log : List Entry) (j : Id) : List Bindings :=
  (log.filter fun e => e.behalf = some j).map Entry.found

/-- What some orders are to report for a junction. -/
def aheadIn (orders : List (Order × Option Id)) (j : Id) : List Bindings :=
  orders.flatMap fun p => if p.2 = some j then p.1.reported else []

section

variable {log log' : List Entry} {orders orders' : List (Order × Option Id)}

theorem reportedIn_append : reportedIn (log ++ log') b = reportedIn log b ++ reportedIn log' b := by
  rw [reportedIn, List.filter_append, List.map_append]
  rfl

theorem heardIn_append : heardIn (log ++ log') j = heardIn log j ++ heardIn log' j := by
  rw [heardIn, List.filter_append, List.map_append]
  rfl

theorem aheadIn_append :
    aheadIn (orders ++ orders') j = aheadIn orders j ++ aheadIn orders' j :=
  List.flatMap_append

theorem aheadIn_cons (p : Order × Option Id) :
    aheadIn (p :: orders) j = (if p.2 = some j then p.1.reported else []) ++ aheadIn orders j :=
  List.flatMap_cons

theorem reportedIn_eq_nil (h : ∀ e ∈ log, e.branch ≠ b) : reportedIn log b = [] := by
  rw [reportedIn, List.filter_eq_nil_iff.2 fun e he => by simpa using h e he, List.map_nil]

theorem heardIn_eq_nil (h : ∀ e ∈ log, e.behalf ≠ some j) : heardIn log j = [] := by
  rw [heardIn, List.filter_eq_nil_iff.2 fun e he => by simpa using h e he, List.map_nil]

theorem aheadIn_eq_nil (h : ∀ o, (o, some j) ∈ orders → o.reported = []) :
    aheadIn orders j = [] := by
  refine List.flatMap_eq_nil_iff.2 fun p hp => ?_
  split
  · rename_i hmark
    exact h p.1 (by rw [← hmark]; exact hp)
  · rfl

end

namespace Chronicle

/-- What was reported to a branch, the earliest first. -/
def reportedTo (c : Chronicle) (b : Id) : List Bindings :=
  reportedIn c.log b

/-- What was reported by a junction, the earliest first. -/
def heardFrom (c : Chronicle) (j : Id) : List Bindings :=
  heardIn c.log j

/-- What is still to be reported for a junction. -/
def aheadOf (c : Chronicle) (j : Id) : List Bindings :=
  aheadIn c.orders j

/-- What a clause contributes by what was reported to its branch: one empty
binding set, if that is nothing. -/
def resultsOf (c : Chronicle) (b : Id) : List Bindings :=
  if (c.reportedTo b).isEmpty then [∅] else c.reportedTo b

theorem resultsOf_congr {c c' : Chronicle} (h : c'.reportedTo b = c.reportedTo b) :
    c'.resultsOf b = c.resultsOf b := by
  rw [resultsOf, resultsOf, h]

end Chronicle

/-! ## What jobs add -/

/-- A match that is taken is the first one that is reported to a branch of a
search that goes on. -/
theorem Searches.takes_eq_some (h : t.takes job = some (b, m)) :
    ∃ ms y x, job = .report b (m :: ms) ∧ t.branches[b]? = some y ∧
      t.searches[y.search]? = some x ∧ x.stopped = false := by
  unfold takes at h
  split at h
  · rename_i b' m' ms
    split at h
    · cases h
    · rename_i y hy
      split at h
      · cases h
      · rename_i x hx
        split at h
        · cases h
        · rename_i hgoes
          cases h
          exact ⟨ms, y, x, rfl, hy, hx, by simpa using hgoes⟩
  · cases h

theorem Searches.mem_entries {e : Entry} (h : e ∈ t.entries job mark) :
    e.behalf = mark ∧ ∃ ms y x, job = .report e.branch (e.found :: ms) ∧
      t.branches[e.branch]? = some y ∧ t.searches[y.search]? = some x ∧ x.stopped = false := by
  rw [entries, List.mem_map] at h
  obtain ⟨⟨b, m⟩, hm, rfl⟩ := h
  exact ⟨rfl, takes_eq_some (Option.mem_toList.1 hm)⟩

/-- A branch that is there takes what is reported to it while its search goes
on. -/
theorem Searches.entries_report {ms : List Bindings} {x : Search} (hy : t.branches[b]? = some y)
    (hx : t.searches[y.search]? = some x) (hs : x.stopped = false) :
    t.entries (.report b (m :: ms)) mark = [⟨b, m, mark⟩] := by
  simp [entries, takes, hy, hx, hs]

theorem Searches.entries_refused {ms : List Bindings} {x : Search}
    (hy : t.branches[b]? = some y) (hx : t.searches[y.search]? = some x) (hs : x.stopped = true) :
    t.entries (.report b (m :: ms)) mark = [] := by
  simp [entries, takes, hy, hx, hs]

/-- Nothing is reported to a branch that is not there. -/
theorem Searches.reportedIn_entries (hb : b ∉ t.branches) :
    reportedIn (t.entries job mark) b = [] := by
  refine reportedIn_eq_nil fun e he hbranch => hb ?_
  obtain ⟨-, ms, y, x, -, hy, -⟩ := Searches.mem_entries he
  exact hbranch ▸ mem_of_getElem? hy

/-- **The branch of a clause keeps what is reported to it**, and nothing else. -/
theorem Transition.found_cases (h : Transition env t job t' os) (mark : Option Id)
    (hy : t'.branches[b]? = some y') (hr : y'.role = .clause j k) :
    (t.next ≤ b ∧ y'.found = []) ∨ ∃ y, t.branches[b]? = some y ∧ y.role = .clause j k ∧
      y'.found = y.found ++ reportedIn (t.entries job mark) b := by
  have hsame : t.branches[b]? = some y' → reportedIn (t.entries job mark) b = [] →
      (t.next ≤ b ∧ y'.found = []) ∨ ∃ y, t.branches[b]? = some y ∧ y.role = .clause j k ∧
        y'.found = y.found ++ reportedIn (t.entries job mark) b := by
    intro hold hnone
    exact .inr ⟨y', hold, hr, by rw [hnone, List.append_nil]⟩
  cases h with
  | split _ _ _ _ _ =>
    rw [Searches.getElem?_branches_split] at hy
    split at hy
    · rename_i hrange
      cases hy
      exact .inl ⟨Nat.le_of_succ_le hrange.1, rfl⟩
    · exact hsame hy rfl
  | expanded _ _ _ _ _ hz | released hz _ =>
    rcases of_getElem?_insert hy with ⟨rfl, rfl⟩ | hy
    · exact .inr ⟨_, hz, hr, (List.append_nil _).symm⟩
    · exact hsame hy rfl
  | @kept c m ms z x _ _ hz hx hgoes _ =>
    rw [Searches.entries_report hz hx hgoes]
    by_cases hc : c = b
    · subst hc
      rw [ExtTreeMap.getElem?_insert_self] at hy
      cases hy
      exact .inr ⟨z, hz, hr, by simp [reportedIn]⟩
    · rcases of_getElem?_insert hy with ⟨hc', -⟩ | hold
      · exact absurd hc' hc
      · exact .inr ⟨y', hold, hr, by simp [reportedIn, hc]⟩
  | @queued c m ms z x hz hx hgoes hroot _ | @announced c m ms z x hz hx hgoes hroot _ =>
    -- what is reported to the root branch is not reported to a clause
    rw [Searches.entries_report hz hx hgoes]
    have hc : c ≠ b := by
      rintro rfl
      obtain rfl := Option.some.inj (hz.symm.trans hy)
      rw [hroot] at hr
      cases hr
    exact .inr ⟨y', hy, hr, by simp [reportedIn, hc]⟩
  | refused hz hx hs => exact hsame hy (by rw [Searches.entries_refused hz hx hs]; rfl)
  | finished _ _ _ _ | filled _ _ _ _ _ | combined _ _ _ _ _ =>
    exact hsame (of_getElem?_erase hy) rfl
  | _ => exact hsame hy rfl

/-- **A place of a junction is filled when its clause is complete.** -/
theorem Transition.filled_cases (h : Transition env t job t' os)
    (hj : t'.junctions[j]? = some jn) (hk : jn.slots[k]? = some (some rs)) :
    (∃ jn' : Junction, t.junctions[j]? = some jn' ∧ jn'.slots[k]? = some (some rs)) ∨
      ∃ b y, job = .release b ∧ t.branches[b]? = some y ∧ y.role = .clause j k ∧
        rs = y.results ∧ t'.branches = t.branches.erase b := by
  cases h with
  | split _ _ _ _ _ =>
    rcases of_getElem?_insert hj with ⟨-, rfl⟩ | hj
    · simp [List.getElem?_replicate] at hk
    · exact .inl ⟨jn, hj, hk⟩
  | @filled b y j' slot jn' hy _ hr hj' _ =>
    rcases of_getElem?_insert hj with ⟨rfl, rfl⟩ | hj
    · rcases Junction.getElem?_fill hk with ⟨rfl, rfl⟩ | hk
      · exact .inr ⟨b, y, rfl, hy, hr, rfl, rfl⟩
      · exact .inl ⟨jn', hj', hk⟩
    · exact .inl ⟨jn, hj, hk⟩
  | combined _ _ _ _ _ => exact .inl ⟨jn, of_getElem?_erase hj, hk⟩
  | _ => exact .inl ⟨jn, hj, hk⟩

/-- The last clause of a junction is complete, and what is left of the branch is
to report the combinations. -/
structure Searches.Completes (t : Searches) (b : Id) (j : Id) (jn : Junction)
    (rss : List (List Bindings)) (t' : Searches) : Prop where
  there : t.junctions[j]? = some jn
  branch : ∃ y slot, t.branches[b]? = some y ∧ y.role = .clause j slot ∧
    (jn.fill slot y.results).slots = rss.map some
  branches : t'.branches = t.branches.erase b
  junctions : t'.junctions = t.junctions.erase j

/-- **Whom an order reports for that a job leaves**: the junction that the job
reports for, or the one that the job has completed. -/
theorem Transition.behalf_cases (h : Transition env t job t' os) (ho : o ∈ os)
    (hmark : t.behalf job mark o = some j) :
    (∃ b m ms, job = .report b (m :: ms) ∧ o = .job (.report b ms) ∧ mark = some j) ∨
      ∃ b jn rss, job = .release b ∧ t.Completes b j jn rss t' ∧
        o = .job (.report jn.parent (Junction.combine jn.trunk rss)) ∧
        os = [o, .job (.release jn.parent)] := by
  cases h with
  | refused _ _ _ | kept _ _ _ _ | queued _ _ _ _ _ =>
    obtain rfl := List.mem_singleton.1 ho
    exact .inl ⟨_, _, _, rfl, rfl, hmark⟩
  | announced _ _ _ _ _ =>
    simp only [List.mem_cons, List.not_mem_nil, or_false] at ho
    rcases ho with rfl | rfl
    · cases hmark
    · exact .inl ⟨_, _, _, rfl, rfl, hmark⟩
  | @combined b y j' slot jn combos hy _ hr hj hc =>
    obtain ⟨rss, hslots, rfl⟩ := Junction.combinations?_eq_some_iff.1 hc
    simp only [List.mem_cons, List.not_mem_nil, or_false] at ho
    rcases ho with rfl | rfl
    · obtain rfl : j' = j := by
        simpa [Searches.behalf, hy, hr, BranchRole.junction?] using hmark
      exact .inr ⟨b, jn, rss, rfl, ⟨hj, ⟨y, slot, hy, hr, hslots⟩, rfl, rfl⟩, rfl, rfl⟩
    · cases hmark
  | split _ _ _ _ _ =>
    obtain ⟨n, hn, rfl⟩ := List.mem_mapIdx.1 ho
    cases hmark
  | expanded _ _ _ _ _ _ =>
    rcases List.mem_append.1 ho with ho | ho
    · obtain ⟨f', -, rfl⟩ := List.mem_map.1 ho
      cases hmark
    · obtain rfl := List.mem_singleton.1 ho
      cases hmark
  | reported | drained _ _ | released _ _ | filled _ _ _ _ _ => cases ho
  | _ =>
    simp only [List.mem_cons, List.not_mem_nil, or_false] at ho
    rcases ho with rfl | rfl | rfl | rfl <;> cases hmark

/-! ## What is true of a chronicle -/

namespace Chronicle

variable {c c' : Chronicle} {e : Entry}

/-- Nothing is reported, and no clause is started or completed. -/
structure Rests (c c' : Chronicle) : Prop where
  log : c'.log = c.log
  junctions : c'.table.junctions = c.table.junctions
  clause {b j k : Nat} {y : Branch} : c'.table.branches[b]? = some y → y.role = .clause j k →
    c.table.branches[b]? = some y
  marked {o : Order} {j : Nat} : (o, some j) ∈ c'.orders → (o, some j) ∈ c.orders
  ahead (j : Nat) : c'.aheadOf j = c.aheadOf j

/-- A job is done, and recorded. -/
structure Works (c c' : Chronicle) (env : Surroundings) (job : Job) (mark : Option Id)
    (os : List Order) (rest : List (Order × Option Id)) : Prop where
  orders : c.orders = (.job job, mark) :: rest
  transition : Transition env c.table job c'.table os
  orders' : c'.orders = os.map (fun o => (o, c.table.behalf job mark o)) ++ rest
  log : c'.log = c.log ++ c.table.entries job mark

/-- What the surroundings do leaves the clauses alone. -/
theorem rests_aside {g g' : Graph} {told told' : List Notice}
    {orders : List (Order × Option Id)} {log : List Entry}
    (h : Scene.Step ⟨g, t, [], told⟩ ⟨g', t', os, told'⟩) :
    Rests ⟨g, t, orders, told, log⟩
      ⟨g', t', os.map (fun o => (o, none)) ++ orders, told', log⟩ := by
  have hmarked : ∀ {o : Order} {j : Nat},
      (o, some j) ∈ os.map (fun o => (o, (none : Option Id))) ++ orders → (o, some j) ∈ orders := by
    intro o j ho
    rcases List.mem_append.1 ho with ho | ho
    · obtain ⟨o', -, he⟩ := List.mem_map.1 ho
      cases he
    · exact ho
  have hahead : ∀ j : Nat,
      aheadIn (os.map (fun o => (o, (none : Option Id))) ++ orders) j = aheadIn orders j := by
    intro j
    rw [aheadIn_append, aheadIn_eq_nil, List.nil_append]
    intro o ho
    obtain ⟨o', -, he⟩ := List.mem_map.1 ho
    cases he
  suffices hrest : t'.junctions = t.junctions ∧ ∀ {b j k : Nat} {y : Branch},
      t'.branches[b]? = some y → y.role = .clause j k → t.branches[b]? = some y from
    ⟨rfl, hrest.1, hrest.2, hmarked, hahead⟩
  cases h with
  | add _ | equate _ => exact ⟨rfl, fun hy _ => hy⟩
  | launch config linked _ =>
    refine ⟨rfl, fun {b j k y} hy hr => ?_⟩
    rcases of_getElem?_insert hy with ⟨-, rfl⟩ | hy
    · cases hr
    · exact hy
  | stop _ | cancel _ | resume _ | discard _ =>
    exact ⟨by simp, fun hy _ => by simpa using hy⟩

/-- **What may happen**: a job is done, or nothing that concerns clauses. -/
theorem Records.cases (h : Records c c') (hs : c.scene.IsSound) :
    (∃ env job mark os rest, c.Works c' env job mark os rest) ∨ c.Rests c' := by
  cases h with
  | @work g t job mark rest told log state? =>
    exact .inl ⟨⟨g, state?⟩, job, mark, _, rest, rfl, Sound.transition hs ⟨g, state?⟩, rfl, rfl⟩
  | @handOver g t o mark rest told log hjob =>
    refine .inr ⟨rfl, rfl, fun hy _ => hy, fun ho => List.mem_cons_of_mem _ ho, fun j => ?_⟩
    -- an order for somebody else reports nothing
    have hnone : o.reported = [] := by
      cases o with
      | job job => exact absurd rfl (hjob job)
      | _ => rfl
    change aheadIn rest j = aheadIn ((o, mark) :: rest) j
    rw [aheadIn_cons, hnone, ite_self, List.nil_append]
  | aside hstep => exact .inr (rests_aside hstep)

/-- It is a step of the scene. -/
theorem Records.step (h : Records c c') : Scene.Step c.scene c'.scene := by
  cases h with
  | work state? =>
    simp only [scene, List.map_append, List.map_map, Function.comp_def, List.map_id',
      List.map_cons]
    exact .work state?
  | handOver hjob => exact .handOver hjob
  | aside hstep =>
    simp only [scene, List.map_append, List.map_map, Function.comp_def, List.map_id']
    exact hstep.beside _

/-- Whatever is recorded happens. -/
theorem Recorded.steps (h : Recorded c c') : Scene.Steps c.scene c'.scene := by
  induction h with
  | refl => exact .refl
  | tail _ hstep ih => exact ih.tail hstep.step

/-- Nothing is reported to a branch that is not there. -/
theorem Records.reportedTo_eq (h : Records c c') (hb : b ∉ c.table.branches) :
    c'.reportedTo b = c.reportedTo b := by
  cases h with
  | work state? =>
    refine reportedIn_append.trans ?_
    rw [Searches.reportedIn_entries hb, List.append_nil]
    rfl
  | handOver _ | aside _ => rfl

/-- What is true of the chronicle of a scene. -/
structure IsTrue (c : Chronicle) : Prop where
  inOrder : c.scene.InOrder
  known {e : Entry} : e ∈ c.log → e.branch < c.table.next
  /-- The branch of a clause keeps what was reported to it. -/
  kept {b j k : Nat} {y : Branch} : c.table.branches[b]? = some y → y.role = .clause j k →
    y.found = c.reportedTo b
  /-- A place of a junction is filled by the results of a branch that is gone. -/
  filled {j k : Nat} {jn : Junction} {rs : List Bindings} : c.table.junctions[j]? = some jn →
    jn.slots[k]? = some (some rs) → rs = c.resultsOf (j + 1 + k) ∧ j + 1 + k ∉ c.table.branches
  /-- A junction is gone when its combinations are reported. -/
  marked {o : Order} {j : Nat} : (o, some j) ∈ c.orders →
    j < c.table.next ∧ j ∉ c.table.junctions
  heard {e : Entry} {j : Nat} : e ∈ c.log → e.behalf = some j →
    j < c.table.next ∧ j ∉ c.table.junctions

/-- A junction that has gone does not come back. -/
theorem Records.junction_gone (h : Records c c') (hs : c.scene.IsSound)
    (hj : j < c.table.next ∧ j ∉ c.table.junctions) :
    j < c'.table.next ∧ j ∉ c'.table.junctions := by
  have hbefore := (h.step.before hs).table
  refine ⟨Nat.lt_of_lt_of_le hj.1 hbefore.next_le, fun hj' => ?_⟩
  obtain ⟨jn, hjn⟩ := exists_getElem? hj'
  obtain ⟨jn', hjn', -⟩ := hbefore.junction hj.1 hjn
  exact hj.2 (mem_of_getElem? hjn')

/-- A branch that has gone does not come back. -/
theorem Records.branch_gone (h : Records c c') (hs : c.scene.IsSound)
    (hb : b < c.table.next ∧ b ∉ c.table.branches) :
    b < c'.table.next ∧ b ∉ c'.table.branches := by
  have hbefore := (h.step.before hs).table
  refine ⟨Nat.lt_of_lt_of_le hb.1 hbefore.next_le, fun hb' => ?_⟩
  obtain ⟨y, hy⟩ := exists_getElem? hb'
  exact hb.2 (Searches.mem_of_seat? (hbefore.seat hb.1 (Searches.seat?_of_getElem? hy)))

/-- What a complete clause hands over is what was reported to its branch. -/
theorem IsTrue.results (h : c.IsTrue) (hy : c.table.branches[b]? = some y)
    (hr : y.role = .clause j k) : y.results = c.resultsOf b := by
  rw [Branch.results, resultsOf, h.kept hy hr]

/-- The branch of a clause follows its junction. -/
theorem IsTrue.branch_eq (h : c.IsTrue) (hy : c.table.branches[b]? = some y)
    (hr : y.role = .clause j k) : b = j + 1 + k := by
  have hseat := Searches.seat?_of_role hy hr
  exact (h.inOrder.sound.layout.clause hseat).1

/-- A place that was filled stays filled by what was reported to its branch. -/
theorem IsTrue.filled_before (h : c.IsTrue) (hc : Records c c')
    (hj : c.table.junctions[j]? = some jn) (hk : jn.slots[k]? = some (some rs)) :
    rs = c'.resultsOf (j + 1 + k) ∧ j + 1 + k ∉ c'.table.branches := by
  have hs : c.scene.IsSound := h.inOrder.sound
  obtain ⟨rfl, hb⟩ := h.filled hj hk
  obtain ⟨hlen, -⟩ := List.getElem?_eq_some_iff.1 hk
  have hlt : j + 1 + k < c.table.next :=
    Nat.lt_of_lt_of_le (Nat.add_lt_add_left hlen (j + 1)) (hs.layout.slots_le hj)
  exact ⟨(resultsOf_congr (hc.reportedTo_eq hb)).symm, (hc.branch_gone hs ⟨hlt, hb⟩).2⟩

/-- **It stays true when a job is done.** -/
theorem IsTrue.works {rest : List (Order × Option Id)} (h : c.IsTrue) (hc : Records c c')
    (hw : c.Works c' env job mark os rest) : c'.IsTrue := by
  have hs : c.scene.IsSound := h.inOrder.sound
  have hl : Layout c.table := hs.layout
  have hle : c.table.next ≤ c'.table.next := (hc.step.before hs).table.next_le
  have hreported : ∀ b, c'.reportedTo b =
      c.reportedTo b ++ reportedIn (c.table.entries job mark) b := fun b => by
    rw [reportedTo, hw.log, reportedIn_append]
    rfl
  have hnew : ∀ {e : Entry}, e ∈ c'.log → e ∈ c.log ∨ e ∈ c.table.entries job mark := by
    intro e he
    rw [hw.log] at he
    exact List.mem_append.1 he
  -- whoever reports for a junction now did so before, or has just completed it
  have hgone : ∀ {j : Nat}, mark = some j → j < c'.table.next ∧ j ∉ c'.table.junctions := by
    rintro j rfl
    exact hc.junction_gone hs (h.marked (o := .job job) (hw.orders ▸ List.mem_cons_self))
  refine ⟨h.inOrder.step hc.step, fun {e} he => ?_, fun {b j k y'} hy hr => ?_,
    fun {j k jn rs} hj hk => ?_, fun {o j} ho => ?_, fun {e j} he hbehalf => ?_⟩
  · rcases hnew he with he | he
    · exact Nat.lt_of_lt_of_le (h.known he) hle
    · obtain ⟨-, ms, y, x, -, hy, -⟩ := Searches.mem_entries he
      exact Nat.lt_of_lt_of_le (hl.branch_lt (mem_of_getElem? hy)) hle
  · rcases hw.transition.found_cases mark hy hr with ⟨hb, hnil⟩ | ⟨y, hy, hr', hf⟩
    · -- nothing was reported to a branch before it was there
      have hold : c.reportedTo b = [] :=
        reportedIn_eq_nil fun e he => Nat.ne_of_lt (Nat.lt_of_lt_of_le (h.known he) hb)
      rw [hreported, hold, Searches.reportedIn_entries (hl.not_mem_branches hb), hnil]
      rfl
    · rw [hf, hreported, h.kept hy hr']
  · rcases hw.transition.filled_cases hj hk with ⟨jn', hj', hk'⟩ |
      ⟨b, y, rfl, hy, hr, rfl, hbranches⟩
    · exact h.filled_before hc hj' hk'
    · obtain rfl := h.branch_eq hy hr
      have hsame : c'.reportedTo (j + 1 + k) = c.reportedTo (j + 1 + k) :=
        (hreported _).trans (List.append_nil _)
      refine ⟨(h.results hy hr).trans (resultsOf_congr hsame).symm, ?_⟩
      rw [hbranches]
      simp
  · rw [hw.orders'] at ho
    rcases List.mem_append.1 ho with ho | ho
    · obtain ⟨o', ho', he⟩ := List.mem_map.1 ho
      obtain ⟨rfl, hbehalf⟩ := Prod.mk.inj he
      rcases hw.transition.behalf_cases ho' hbehalf with ⟨-, -, -, -, -, hmark⟩ |
        ⟨b, jn, rss, rfl, hcompletes, -, -⟩
      · exact hgone hmark
      · refine ⟨Nat.lt_of_lt_of_le (hl.junction_lt (mem_of_getElem? hcompletes.there)) hle, ?_⟩
        rw [hcompletes.junctions]
        simp
    · refine hc.junction_gone hs (h.marked (o := o) ?_)
      rw [hw.orders]
      exact List.mem_cons_of_mem _ ho
  · rcases hnew he with he | he
    · exact hc.junction_gone hs (h.heard he hbehalf)
    · exact hgone ((Searches.mem_entries he).1.symm.trans hbehalf)

/-- It stays true when nothing is reported. -/
theorem IsTrue.rests (h : c.IsTrue) (hc : Records c c') (hrests : c.Rests c') : c'.IsTrue := by
  have hs : c.scene.IsSound := h.inOrder.sound
  refine ⟨h.inOrder.step hc.step, fun he => ?_, fun {b j k y'} hy hr => ?_,
    fun hj hk => h.filled_before hc (hrests.junctions ▸ hj) hk,
    fun ho => hc.junction_gone hs (h.marked (hrests.marked ho)),
    fun he hbehalf => hc.junction_gone hs (h.heard (hrests.log ▸ he) hbehalf)⟩
  · exact Nat.lt_of_lt_of_le (h.known (hrests.log ▸ he)) (hc.step.before hs).table.next_le
  · rw [reportedTo, hrests.log]
    exact h.kept (hrests.clause hy hr) hr

/-- **It stays true.** -/
theorem IsTrue.records (h : c.IsTrue) (hc : Records c c') : c'.IsTrue := by
  rcases hc.cases h.inOrder.sound with ⟨env, job, mark, os, rest, hw⟩ | hrests
  · exact h.works hc hw
  · exact h.rests hc hrests

/-- Nothing is false of a scene in which nothing has happened. -/
theorem isTrue_start (g : Graph) : (start g).IsTrue where
  inOrder := Scene.Steps.inOrder .refl
  known he := by cases he
  kept hy := by simp [start] at hy
  filled hj := by simp [start] at hj
  marked ho := by cases ho
  heard he := by cases he

/-- **Every chronicle is true.** -/
theorem Recorded.isTrue {g : Graph} (h : Recorded (start g) c) : c.IsTrue := by
  induction h with
  | refl => exact isTrue_start g
  | tail _ hstep ih => exact ih.records hstep

end Chronicle

end TripleQuery
