import TripleQuery.Proofs.Searching.Lasting
import TripleQuery.Proofs.Searching.Turn
/-!
# Origin — where paths and matches come from

A scene walks on the paths of its orders and of its parking places
(`Scene.Walks`), and carries matches to branches: those reported, those kept,
those queued for the caller, and the trunks of junctions (`Scene.Carries`).
An order was there before a step, or was left by the job that was done, or comes
of what the surroundings did (`OrderOrigin`). So whatever path a scene walks on
and whatever match it carries after a step was there before the step, or comes
from something that was there in one of few ways (`PathOrigin`, `MatchOrigin`),
and so do junctions, and what fills the place of a clause in them
(`JunctionOrigin`, `SlotOrigin`). A path that is yet to enter its scope finds
nothing; those that were let in are told apart from it (`Scene.Explores`,
`ExploreOrigin`).
-/

namespace TripleQuery

variable {t t' : Searches} {os rest : List Order} {job : Job} {env : Surroundings}
  {b i j k n : Nat} {f f' : Frame} {o : Order} {x : Bindings} {w w' : Scene} {y : Branch}
  {jn : Junction} {rs : List Bindings}

/-! ## Paths and matches of a scene -/

/-- The path that an order goes on with, if it was let into its scope. -/
def Order.admitted? : Order → Option Frame
  | .job (.step f) | .job (.await f _ _) => some f
  | _ => none

theorem Order.frame?_of_admitted? (h : o.admitted? = some f) : o.frame? = some f := by
  unfold admitted? at h
  split at h <;> cases h <;> rfl

/-- An order takes a match to a branch. -/
def Order.Carries : Order → Nat → Bindings → Prop
  | .job (.report c ms), b, x => c = b ∧ x ∈ ms
  | .deliver i m, b, x => i + 1 = b ∧ m = x
  | _, _, _ => False

/-- Who takes a match to a branch reports to it. -/
theorem Order.reportsTo?_of_carries (h : o.Carries b x) : o.reportsTo? = some b := by
  unfold Carries at h
  split at h
  · exact congrArg some h.1
  · exact congrArg some h.1
  · exact h.elim

namespace Scene

/-- A path that goes on in a scene. -/
inductive Walks (w : Scene) (f : Frame) : Prop
  /-- It is about to go on. -/
  | order {o : Order} : o ∈ w.orders → o.frame? = some f → Walks w f
  /-- It is parked. -/
  | parked {n : Nat} : w.table.parked[n]? = some f → Walks w f

/-- A path that was let into its scope, and goes on. -/
inductive Explores (w : Scene) (f : Frame) : Prop
  /-- It is about to go on. -/
  | order {o : Order} : o ∈ w.orders → o.admitted? = some f → Explores w f
  /-- It is parked. -/
  | parked {n : Nat} : w.table.parked[n]? = some f → Explores w f

theorem Explores.walks (h : w.Explores f) : w.Walks f := by
  cases h with
  | order ho hf => exact .order ho (Order.frame?_of_admitted? hf)
  | parked hf => exact .parked hf

/-- A match that has come to a branch, or is on its way. -/
inductive Carries (w : Scene) : Nat → Bindings → Prop
  /-- An order takes it there. -/
  | order {o : Order} {b : Nat} {x : Bindings} : o ∈ w.orders → o.Carries b x → Carries w b x
  /-- The branch keeps it. -/
  | kept {b : Nat} {y : Branch} {x : Bindings} :
      w.table.branches[b]? = some y → x ∈ y.found → Carries w b x
  /-- It is queued for the caller. -/
  | queued {k : Nat} {s : Search} {x : Bindings} :
      w.table.searches[k]? = some s → x ∈ s.queue → Carries w (k + 1) x
  /-- It is the trunk of a junction, which will report to the branch. -/
  | trunk {j : Nat} {jn : Junction} :
      w.table.junctions[j]? = some jn → Carries w jn.parent jn.trunk

/-- A path that goes on has a branch. -/
theorem Walks.branch_lt (h : w.Walks f) (hw : w.IsSound) : f.branch < w.table.next := by
  refine hw.layout.branch_lt ?_
  cases h with
  | order ho hf => exact hw.accounted.mem_of_mem_orders ho (Order.held?_of_frame? hf)
  | parked hf => exact hw.accounted.mem_of_parked hf

/-- A match is on its way to a branch that had a number. -/
theorem Carries.branch_lt (h : w.Carries b x) (hw : w.IsSound) : b < w.table.next := by
  cases h with
  | order ho hx =>
    have hrel := hw.covered.mem ho (Order.reportsTo?_of_carries hx)
    exact hw.layout.branch_lt (hw.accounted.mem_of_mem_orders hrel rfl)
  | kept hy _ =>
    exact hw.layout.branch_lt (mem_of_getElem? hy)
  | queued hs _ =>
    exact hw.layout.search_lt (mem_of_getElem? hs)
  | trunk hj => exact hw.parent_lt hj

end Scene

/-! ## Where they come from -/

/-- Where an order comes from. -/
inductive OrderOrigin (w w' : Scene) (o : Order) : Prop
  /-- It was there. -/
  | same : o ∈ w.orders → OrderOrigin w w' o
  /-- The first order, a job, left it. -/
  | left {job : Job} {rest os : List Order} {state? : Option (String → FetchState)} :
      w.orders = .job job :: rest → Transition ⟨w.graph, state?⟩ w.table job w'.table os →
      o ∈ os → OrderOrigin w w' o
  /-- A parked path was resumed. -/
  | resumed {n : Nat} {f : Frame} :
      w.table.parked[n]? = some f → o = .job (.step f) → OrderOrigin w w' o
  /-- A parked path was given up. -/
  | discarded {n : Nat} {f : Frame} :
      w.table.parked[n]? = some f → o = .job (.release f.branch) → OrderOrigin w w' o
  /-- A search was started. -/
  | launched {config : SearchConfig} {linked : Bool} {p : Pattern} :
      w'.table = (w.table.launch config linked p).1 →
      w'.told = w.told ++ [.started w.table.next p] →
      o = .job (w.table.launch config linked p).2.2 → OrderOrigin w w' o

/-- Where a path comes from. -/
inductive PathOrigin (w w' : Scene) : Frame → Prop
  /-- It was there. -/
  | same {f : Frame} : w.Walks f → PathOrigin w w' f
  /-- It is to wait for one more document. -/
  | waiting {f : Frame} (d : String) : w.Walks f → PathOrigin w w' (f.awaiting d)
  /-- One more triple has matched. -/
  | matched {f f' : Frame} {fs : List Frame} :
      w.Walks f → f.expand w.graph = .ok fs → f' ∈ fs → PathOrigin w w' f'
  /-- All triples have matched, and a clause is tried. -/
  | clause {f : Frame} {k : Nat} {c : Scope} :
      w.Walks f → f.remaining = [] → f.scope.clauses[k]? = some c →
      w'.table = (w.table.split f).1 →
      PathOrigin w w'
        (.enter f.search (w.table.next + 1 + k) c (c.startFrom f.bindings) f.awaited)
  /-- A search has started. -/
  | launched {config : SearchConfig} {linked : Bool} {p : Pattern} :
      w'.table = (w.table.launch config linked p).1 →
      w'.told = w.told ++ [.started w.table.next p] →
      PathOrigin w w' (.enter w.table.next (w.table.next + 1) (.ofPattern p) p.initial [])

/-- Where a path comes from that was let into its scope. -/
inductive ExploreOrigin (w : Scene) : Frame → Prop
  /-- It was there. -/
  | same {f : Frame} : w.Explores f → ExploreOrigin w f
  /-- It is let in. -/
  | entered {f : Frame} : w.Walks f → f.isAllowed f.bindings = true → ExploreOrigin w f
  /-- It is to wait for one more document. -/
  | waiting {f : Frame} (d : String) : w.Explores f → ExploreOrigin w (f.awaiting d)
  /-- One more triple has matched. -/
  | matched {f f' : Frame} {fs : List Frame} :
      w.Explores f → f.expand w.graph = .ok fs → f' ∈ fs → ExploreOrigin w f'

/-- The last clause of a junction is complete, and the combinations are
reported. -/
structure Junction.Reports (t : Searches) (jn : Junction) (combos : List Bindings) : Prop where
  filled : ∃ (j slot c : Nat) (y : Branch), t.junctions[j]? = some jn ∧
    t.branches[c]? = some y ∧ y.role = .clause j slot ∧
    (jn.fill slot y.results).combinations? = some combos

/-- Where a match comes from. -/
inductive MatchOrigin (w : Scene) : Nat → Bindings → Prop
  /-- It was there. -/
  | same {b : Nat} {x : Bindings} : w.Carries b x → MatchOrigin w b x
  /-- All triples of a path have matched. -/
  | found {f : Frame} : w.Explores f → f.remaining = [] → MatchOrigin w f.branch f.bindings
  /-- It is a combination. -/
  | combined {jn : Junction} {combos : List Bindings} {x : Bindings} :
      jn.Reports w.table combos → x ∈ combos → MatchOrigin w jn.parent x

/-- Where a junction comes from. -/
inductive JunctionOrigin (w : Scene) (j : Nat) (jn : Junction) : Prop
  /-- It was there. -/
  | same {jn' : Junction} :
      w.table.junctions[j]? = some jn' → jn.trunk = jn'.trunk → jn.parent = jn'.parent →
      jn.slots.length = jn'.slots.length → JunctionOrigin w j jn
  /-- All triples of a path have matched, and its clauses are started. -/
  | opened {f : Frame} :
      w.Explores f → f.remaining = [] → jn.trunk = f.bindings → jn.parent = f.branch →
      jn.slots.length = f.scope.clauses.length → JunctionOrigin w j jn

/-- Where the results at some place of a junction come from. -/
inductive SlotOrigin (w : Scene) (j : Nat) (jn : Junction) (k : Nat) (rs : List Bindings) : Prop
  /-- They were there. -/
  | same {jn' : Junction} :
      w.table.junctions[j]? = some jn' → jn.trunk = jn'.trunk → jn.parent = jn'.parent →
      jn'.slots[k]? = some (some rs) → SlotOrigin w j jn k rs
  /-- The clause is complete. -/
  | filled {jn' : Junction} {c : Nat} {y : Branch} :
      w.table.junctions[j]? = some jn' → jn.trunk = jn'.trunk → jn.parent = jn'.parent →
      w.table.branches[c]? = some y → y.role = .clause j k → rs = y.results →
      SlotOrigin w j jn k rs

/-! ## What a job adds -/

/-- **The paths that a job lets go on**: the path it is about, if that was let
into its scope or is so now, and what it goes on as when a triple is matched. -/
theorem Transition.admitted?_cases (h : Transition env t job t' os) (ho : o ∈ os)
    (hf : o.admitted? = some f) :
    Order.admitted? (.job job) = some f ∨
      (job = .start f ∧ f.isAllowed f.bindings = true) ∨
      ∃ f' fs, job = .step f' ∧ f'.expand env.graph = .ok fs ∧ f ∈ fs := by
  cases h.leaves ho with
  | entered hallowed =>
    cases hf
    exact .inr (.inl ⟨rfl, hallowed⟩)
  | await _ _ _ =>
    cases hf
    exact .inl rfl
  | matched he hf' =>
    cases hf
    exact .inr (.inr ⟨_, _, rfl, he, hf'⟩)
  | _ => cases hf

/-- **The matches that a job's orders take to a branch.** -/
theorem Transition.carries_cases {told : List Notice}
    (h : Transition env t job t' os) (ho : o ∈ os) (hx : o.Carries b x) :
    MatchOrigin ⟨env.graph, t, .job job :: rest, told⟩ b x := by
  cases h.leaves ho with
  | found hr =>
    obtain ⟨rfl, hm⟩ := hx
    obtain rfl := List.mem_singleton.1 hm
    exact .found (.order List.mem_cons_self rfl) hr
  | others =>
    obtain ⟨rfl, hm⟩ := hx
    exact .same (.order List.mem_cons_self ⟨rfl, List.mem_cons_of_mem _ hm⟩)
  | delivered hs hq =>
    obtain ⟨rfl, rfl⟩ := hx
    exact .same (.queued hs (hq ▸ List.mem_cons_self))
  | @combined c y j slot jn combos hy hr hj hc =>
    obtain ⟨rfl, hm⟩ := hx
    exact .combined ⟨j, slot, c, y, hj, hy, hr, hc⟩ hm
  | _ => exact hx.elim

/-- A branch keeps what is reported to it. -/
theorem Transition.kept_cases (h : Transition env t job t' os) (hy : t'.branches[b]? = some y)
    (hx : x ∈ y.found) :
    (∃ y', t.branches[b]? = some y' ∧ x ∈ y'.found) ∨ Order.Carries (.job job) b x := by
  have hnew : ∀ {c : Nat} {z z' : Branch}, t.branches[c]? = some z →
      (t.branches.insert c z')[b]? = some y → (∀ v ∈ z'.found, v ∈ z.found ∨
        Order.Carries (.job job) c v) →
      (∃ y', t.branches[b]? = some y' ∧ x ∈ y'.found) ∨ Order.Carries (.job job) b x := by
    intro c z z' hz hins hfound
    rcases of_getElem?_insert hins with ⟨rfl, rfl⟩ | hins
    · exact (hfound x hx).imp_left fun hm => ⟨z, hz, hm⟩
    · exact .inl ⟨y, hins, hx⟩
  cases h with
  | split _ _ _ _ _ =>
    rw [Searches.getElem?_branches_split] at hy
    split at hy
    · cases hy
      cases hx
    · exact .inl ⟨y, hy, hx⟩
  | expanded _ _ _ _ _ hz | released hz _ => exact hnew hz hy fun v hv => .inl hv
  | kept hz _ _ _ =>
    refine hnew hz hy fun v hv => ?_
    rcases List.mem_append.1 hv with hv | hv
    · exact .inl hv
    · obtain rfl := List.mem_singleton.1 hv
      exact .inr ⟨rfl, List.mem_cons_self⟩
  | finished _ _ _ _ | filled _ _ _ _ _ | combined _ _ _ _ _ =>
    exact .inl ⟨y, of_getElem?_erase hy, hx⟩
  | _ => exact .inl ⟨y, hy, hx⟩

/-- What is queued for a caller was reported to the root branch. -/
theorem Transition.queued_cases {s : Search} (hl : Layout t) (h : Transition env t job t' os)
    (hs : t'.searches[i]? = some s) (hx : x ∈ s.queue) :
    (∃ s', t.searches[i]? = some s' ∧ x ∈ s'.queue) ∨ Order.Carries (.job job) (i + 1) x := by
  have hnew : ∀ {c : Nat} {z z' : Search}, t.searches[c]? = some z →
      (t.searches.insert c z')[i]? = some s → (∀ v ∈ z'.queue, v ∈ z.queue ∨
        Order.Carries (.job job) (c + 1) v) →
      (∃ s', t.searches[i]? = some s' ∧ x ∈ s'.queue) ∨
        Order.Carries (.job job) (i + 1) x := by
    intro c z z' hz hins hqueue
    rcases of_getElem?_insert hins with ⟨rfl, rfl⟩ | hins
    · exact (hqueue x hx).imp_left fun hm => ⟨z, hz, hm⟩
    · exact .inl ⟨s, hins, hx⟩
  have htake : ∀ {z : Search} {m v : Bindings}, v ∈ (z.take m).queue → v ∈ z.queue ∨ v = m := by
    intro z m v hv
    rw [Search.queue_take] at hv
    simpa using hv
  cases h with
  | failed hz _ _ _ _ | parkedAsked hz | drained hz _ | finished _ _ _ hz =>
    exact hnew hz hs fun v hv => .inl hv
  | queued hy hz _ hr _ | announced hy hz _ hr _ =>
    -- the branch reported to is the root branch
    have hseat := Searches.seat?_of_role hy hr
    have hroot := hl.root hseat
    refine hnew hz hs fun v hv => (htake hv).imp_right ?_
    rintro rfl
    exact ⟨hroot, List.mem_cons_self⟩
  | delivered hz hq => exact hnew hz hs fun v hv => .inl (hq ▸ List.mem_cons_of_mem _ hv)
  | _ => exact .inl ⟨s, hs, hx⟩

/-- **A junction is there from the start of its clauses**, and keeps its trunk.
-/
theorem Transition.junction_cases {g : Graph} {told : List Notice}
    (h : Transition env t job t' os) (hj : t'.junctions[j]? = some jn) :
    JunctionOrigin ⟨g, t, .job job :: rest, told⟩ j jn := by
  cases h with
  | @split f _ _ _ _ hr _ =>
    rcases of_getElem?_insert hj with ⟨-, rfl⟩ | hj
    · exact .opened (.order List.mem_cons_self rfl) hr rfl rfl List.length_replicate
    · exact .same hj rfl rfl rfl
  | @filled c y j' slot jn' _ _ _ hj' _ =>
    rcases of_getElem?_insert hj with ⟨rfl, rfl⟩ | hj
    · exact .same hj' rfl rfl List.length_set
    · exact .same hj rfl rfl rfl
  | combined _ _ _ _ _ => exact .same (of_getElem?_erase hj) rfl rfl rfl
  | _ => exact .same hj rfl rfl rfl

/-- What is at a place of a junction was put there, or was there. -/
theorem Junction.getElem?_fill {slot : Nat} {rs' : List Bindings}
    (h : (jn.fill slot rs').slots[k]? = some (some rs)) :
    (slot = k ∧ rs = rs') ∨ jn.slots[k]? = some (some rs) := by
  by_cases hslot : slot = k
  · subst hslot
    simp only [Junction.fill, List.getElem?_set, if_true] at h
    split at h
    · exact .inl ⟨rfl, (Option.some.inj (Option.some.inj h)).symm⟩
    · cases h
  · rw [Junction.getElem?_fill_of_ne hslot] at h
    exact .inr h

/-- **A place of a junction is filled by the clause it is for.** -/
theorem Transition.slot_cases {g : Graph} {told : List Notice} (h : Transition env t job t' os)
    (hj : t'.junctions[j]? = some jn) (hk : jn.slots[k]? = some (some rs)) :
    SlotOrigin ⟨g, t, .job job :: rest, told⟩ j jn k rs := by
  cases h with
  | split _ _ _ _ _ =>
    rcases of_getElem?_insert hj with ⟨-, rfl⟩ | hj
    · simp [List.getElem?_replicate] at hk
    · exact .same hj rfl rfl hk
  | @filled c y j' slot jn' hy _ hr hj' _ =>
    rcases of_getElem?_insert hj with ⟨rfl, rfl⟩ | hj
    · rcases Junction.getElem?_fill hk with ⟨rfl, rfl⟩ | hk
      · exact .filled hj' rfl rfl hy hr rfl
      · exact .same hj' rfl rfl hk
    · exact .same hj rfl rfl hk
  | combined _ _ _ _ _ => exact .same (of_getElem?_erase hj) rfl rfl hk
  | _ => exact .same hj rfl rfl hk

/-! ## What the surroundings add -/

namespace Searches

variable {change : Search → Search}

@[simp] theorem branches_update : (t.update i change).branches = t.branches := by
  unfold update
  split <;> rfl

@[simp] theorem junctions_update : (t.update i change).junctions = t.junctions := by
  unfold update
  split <;> rfl

@[simp] theorem parked_update : (t.update i change).parked = t.parked := by
  unfold update
  split <;> rfl

@[simp] theorem next_update : (t.update i change).next = t.next := by
  unfold update
  split <;> rfl

/-- What a search is after a change. -/
theorem of_getElem?_update {s : Search} (h : (t.update i change).searches[k]? = some s) :
    ∃ s', t.searches[k]? = some s' ∧ (s = s' ∨ s = change s') := by
  unfold update at h
  split at h
  · exact ⟨s, h, .inl rfl⟩
  · rename_i z hz
    rcases of_getElem?_insert h with ⟨rfl, rfl⟩ | h
    · exact ⟨z, hz, .inr rfl⟩
    · exact ⟨s, h, .inl rfl⟩

/-- A parked path is resumed, or there was none. -/
theorem resume_cases (t : Searches) (n : Nat) :
    t.resume n = (t, []) ∨ ∃ f, t.parked[n]? = some f ∧
      t.resume n = ({ t with parked := t.parked.erase n }, [.job (.step f)]) := by
  unfold resume
  cases hf : t.parked[n]? with
  | none => exact .inl rfl
  | some f => exact .inr ⟨f, rfl, rfl⟩

@[simp] theorem searches_resume : (t.resume n).1.searches = t.searches := by
  unfold resume
  split <;> rfl

@[simp] theorem branches_resume : (t.resume n).1.branches = t.branches := by
  unfold resume
  split <;> rfl

@[simp] theorem junctions_resume : (t.resume n).1.junctions = t.junctions := by
  unfold resume
  split <;> rfl

/-- A parked path is given up, or there was none. -/
theorem discard_cases (t : Searches) (n : Nat) :
    t.discard n = (t, []) ∨ ∃ f, t.parked[n]? = some f ∧
      t.discard n = ({ t with parked := t.parked.erase n }, [.job (.release f.branch)]) := by
  unfold discard
  cases hf : t.parked[n]? with
  | none => exact .inl rfl
  | some f => exact .inr ⟨f, rfl, rfl⟩

@[simp] theorem searches_discard : (t.discard n).1.searches = t.searches := by
  unfold discard
  split <;> rfl

@[simp] theorem branches_discard : (t.discard n).1.branches = t.branches := by
  unfold discard
  split <;> rfl

@[simp] theorem junctions_discard : (t.discard n).1.junctions = t.junctions := by
  unfold discard
  split <;> rfl

end Searches

/-! ## What a step adds -/

namespace Scene

variable {g : Graph} {told : List Notice}

/-- **Every order was there, or was left by one that was carried out**, or comes
of what the surroundings did. -/
theorem Step.orderOrigin (h : Step w w') (hw : w.IsSound) (ho : o ∈ w'.orders) :
    OrderOrigin w w' o := by
  cases h with
  | @work g t job rest told state? =>
    rcases List.mem_append.1 ho with ho | ho
    · exact .left rfl (Sound.transition hw ⟨g, state?⟩) ho
    · exact .same (List.mem_cons_of_mem _ ho)
  | handOver _ => exact .same (List.mem_cons_of_mem _ ho)
  | add _ | equate _ | stop _ | cancel _ => exact .same ho
  | launch config linked _ =>
    rcases List.mem_cons.1 ho with rfl | ho
    · exact .launched rfl rfl rfl
    · exact .same ho
  | @resume g t rest told ticket =>
    rcases t.resume_cases ticket with he | ⟨f, hf, he⟩ <;> rw [he] at ho
    · exact .same ho
    · rcases List.mem_cons.1 ho with rfl | ho
      · exact .resumed hf rfl
      · exact .same ho
  | @discard g t rest told ticket =>
    rcases t.discard_cases ticket with he | ⟨f, hf, he⟩ <;> rw [he] at ho
    · exact .same ho
    · rcases List.mem_cons.1 ho with rfl | ho
      · exact .discarded hf rfl
      · exact .same ho

/-- **Every parked path was parked**, or the first order parks it. -/
theorem Step.parked_cases (h : Step w w') (hw : w.IsSound) (hn : w'.table.parked[n]? = some f) :
    w.table.parked[n]? = some f ∨ ∃ f' d asked os,
      w.orders = .job (.await f' d asked) :: os ∧ f = f'.awaiting d := by
  cases h with
  | @work g t job rest told state? =>
    rcases (Sound.transition hw ⟨g, state?⟩).parked_cases hn with hn | ⟨f', d, asked, rfl, rfl⟩
    · exact .inl hn
    · exact .inr ⟨f', d, asked, rest, rfl, rfl⟩
  | stop _ | cancel _ => exact .inl (by simpa using hn)
  | @resume g t rest told ticket =>
    rcases t.resume_cases ticket with he | ⟨f', -, he⟩ <;> rw [he] at hn
    · exact .inl hn
    · exact .inl (of_getElem?_erase hn)
  | @discard g t rest told ticket =>
    rcases t.discard_cases ticket with he | ⟨f', -, he⟩ <;> rw [he] at hn
    · exact .inl hn
    · exact .inl (of_getElem?_erase hn)
  | _ => exact .inl hn

/-- **Every path comes from one that was there**, or from the start of a
search. -/
theorem Step.pathOrigin (h : Step w w') (hw : w.IsSound) (hf : w'.Walks f) :
    PathOrigin w w' f := by
  cases hf with
  | order ho hframe =>
    cases h.orderOrigin hw ho with
    | same ho => exact .same (.order ho hframe)
    | left horders ht ho =>
      have hfirst := horders ▸ List.mem_cons_self
      rcases ht.frame?_cases ho hframe with hsame | ⟨f', fs, rfl, he, hmem⟩ |
        ⟨f', k, c, rfl, hr, hc, ht', rfl⟩
      · exact .same (.order hfirst hsame)
      · exact .matched (.order hfirst rfl) he hmem
      · exact .clause (.order hfirst rfl) hr hc ht'
    | resumed hn he =>
      subst he
      cases hframe
      exact .same (.parked hn)
    | discarded _ he =>
      subst he
      cases hframe
    | launched ht htold he =>
      subst he
      cases hframe
      exact .launched ht htold
  | parked hn =>
    rcases h.parked_cases hw hn with hn | ⟨f', d, asked, os, ho, rfl⟩
    · exact .same (.parked hn)
    · exact .waiting d (.order (ho ▸ List.mem_cons_self) rfl)

/-- **Every path that was let into its scope comes from one that was**, or is
let in. -/
theorem Step.exploreOrigin (h : Step w w') (hw : w.IsSound) (hf : w'.Explores f) :
    ExploreOrigin w f := by
  cases hf with
  | order ho hframe =>
    cases h.orderOrigin hw ho with
    | same ho => exact .same (.order ho hframe)
    | left horders ht ho =>
      have hfirst := horders ▸ List.mem_cons_self
      rcases ht.admitted?_cases ho hframe with hsame | ⟨rfl, hallowed⟩ | ⟨f', fs, rfl, he, hmem⟩
      · exact .same (.order hfirst hsame)
      · exact .entered (.order hfirst rfl) hallowed
      · exact .matched (.order hfirst rfl) he hmem
    | resumed hn he =>
      subst he
      cases hframe
      exact .same (.parked hn)
    | discarded _ he =>
      subst he
      cases hframe
    | launched _ _ he =>
      -- the new path is yet to enter its scope
      subst he
      cases hframe
  | parked hn =>
    rcases h.parked_cases hw hn with hn | ⟨f', d, asked, os, ho, rfl⟩
    · exact .same (.parked hn)
    · exact .waiting d (.order (ho ▸ List.mem_cons_self) rfl)

/-- What a branch keeps it kept, or the first order takes it there. -/
theorem Step.carries_of_kept (h : Step w w') (hw : w.IsSound)
    (hy : w'.table.branches[b]? = some y) (hx : x ∈ y.found) : w.Carries b x := by
  cases h with
  | @work g t job rest told state? =>
    rcases (Sound.transition hw ⟨g, state?⟩).kept_cases hy hx with ⟨y', hy', hx'⟩ | hc
    · exact .kept hy' hx'
    · exact .order List.mem_cons_self hc
  | launch _ _ _ =>
    rcases of_getElem?_insert hy with ⟨-, rfl⟩ | hy
    · cases hx
    · exact .kept hy hx
  | stop _ | cancel _ | resume _ | discard _ => exact .kept (by simpa using hy) hx
  | _ => exact .kept hy hx

/-- What is queued for a caller was queued, or the first order takes it to the
root branch. -/
theorem Step.carries_of_queued {s : Search} (h : Step w w') (hw : w.IsSound)
    (hs : w'.table.searches[k]? = some s) (hx : x ∈ s.queue) : w.Carries (k + 1) x := by
  cases h with
  | @work g t job rest told state? =>
    rcases (Sound.transition hw ⟨g, state?⟩).queued_cases hw.layout hs hx with
      ⟨s', hs', hx'⟩ | hc
    · exact .queued hs' hx'
    · exact .order List.mem_cons_self hc
  | launch _ _ _ =>
    rcases of_getElem?_insert hs with ⟨-, rfl⟩ | hs
    · cases hx
    · exact .queued hs hx
  | stop _ | cancel _ =>
    obtain ⟨s', hs', rfl | rfl⟩ := Searches.of_getElem?_update hs
    · exact .queued hs' hx
    · exact .queued hs' hx
  | resume _ | discard _ => exact .queued (by simpa using hs) hx
  | _ => exact .queued hs hx

/-- **Every junction was there, or is opened by a path whose triples have all
matched.** -/
theorem Step.junctionOrigin (h : Step w w') (hw : w.IsSound)
    (hj : w'.table.junctions[j]? = some jn) : JunctionOrigin w j jn := by
  cases h with
  | @work g t job rest told state? => exact (Sound.transition hw ⟨g, state?⟩).junction_cases hj
  | stop _ | cancel _ | resume _ | discard _ => exact .same (by simpa using hj) rfl rfl rfl
  | _ => exact .same hj rfl rfl rfl

/-- **Every match comes from one that was there**, from a path whose triples
have all matched, or from a junction. -/
theorem Step.matchOrigin (h : Step w w') (hw : w.IsSound) (hx : w'.Carries b x) :
    MatchOrigin w b x := by
  cases hx with
  | order ho hx =>
    cases h.orderOrigin hw ho with
    | same ho => exact .same (.order ho hx)
    | left horders ht ho =>
      obtain ⟨g, t, os, told⟩ := w
      obtain rfl : os = _ := horders
      exact ht.carries_cases ho hx
    | resumed _ he | discarded _ he | launched _ _ he =>
      subst he
      exact hx.elim
  | kept hy hx => exact .same (h.carries_of_kept hw hy hx)
  | queued hs hx => exact .same (h.carries_of_queued hw hs hx)
  | trunk hj =>
    cases h.junctionOrigin hw hj with
    | same hj' htrunk hparent _ =>
      rw [htrunk, hparent]
      exact .same (.trunk hj')
    | opened hf hr htrunk hparent _ =>
      rw [htrunk, hparent]
      exact .found hf hr

/-- **What fills a place of a junction was there, or is the result of the
clause for it.** -/
theorem Step.slotOrigin (h : Step w w') (hw : w.IsSound)
    (hj : w'.table.junctions[j]? = some jn) (hk : jn.slots[k]? = some (some rs)) :
    SlotOrigin w j jn k rs := by
  cases h with
  | @work g t job rest told state? => exact (Sound.transition hw ⟨g, state?⟩).slot_cases hj hk
  | stop _ | cancel _ | resume _ | discard _ => exact .same (by simpa using hj) rfl rfl hk
  | _ => exact .same hj rfl rfl hk

end Scene

end TripleQuery
