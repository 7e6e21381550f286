import TripleQuery.Proofs.Searching.Scene
/-!
# Turns — what a job means to one search

Of all that jobs do, five things matter to how a caller is told of one search:
nothing, a match is taken, the queue turns out to be empty, the caller is told
of a match, or the search ends (`Turn`). `Transition.turn` reads this off the
transitions.

A search takes its turns at a steady pace (`Paced`): while matches are queued
the caller is being told of them, and the search is over exactly when its root
branch has gone.
-/

namespace TripleQuery

open Std (ExtTreeMap)

variable {t t' : Searches} {os rest : List Order} {job : Job} {env : Surroundings}
  {i k : Nat} {x x' z z' : Search} {o : Order}

/-- The search of whose matches or end an order speaks. -/
def Order.speaksOf? : Order → Option Id
  | .job (.drain i) | .deliver i _ | .finish i _ => some i
  | _ => none

/-- What a job means to the search `i`, whose state was `x`. -/
inductive Turn (t t' : Searches) (i : Id) (x : Search) : Job → Search → List Order → Prop
  /-- Nothing that the caller is told of. -/
  | aside {job : Job} {x' : Search} {os : List Order} :
      x'.queue = x.queue → x'.delivering = x.delivering → x'.finished = x.finished →
      x'.matchCount = x.matchCount → job ≠ .drain i → (∀ o ∈ os, o.speaksOf? ≠ some i) →
      Turn t t' i x job x' os
  /-- A match is taken while the caller is told of others. -/
  | took {b : Id} {m : Bindings} {ms : List Bindings} :
      x.delivering = true → Turn t t' i x (.report b (m :: ms)) (x.take m) [.job (.report b ms)]
  /-- A match is taken, and the caller is to be told. -/
  | woke {b : Id} {m : Bindings} {ms : List Bindings} :
      x.delivering = false →
      Turn t t' i x (.report b (m :: ms)) { x.take m with delivering := true }
        [.job (.drain i), .job (.report b ms)]
  /-- The caller was told of everything. -/
  | rested :
      x.queue = [] → Turn t t' i x (.drain i) { x with delivering := false } []
  /-- The caller is told of a match. -/
  | told {m : Bindings} {ms : List Bindings} :
      x.queue = m :: ms →
      Turn t t' i x (.drain i) { x with queue := ms } [.deliver i m, .job (.drain i)]
  /-- The search ends. -/
  | ended :
      t.seat? (i + 1) = some (i, .root) → i + 1 ∉ t'.branches →
      Turn t t' i x (.release (i + 1)) { x with finished := true } [.finish i x.result]

namespace Search

variable {m : Bindings}

@[simp] theorem queue_take : (x.take m).queue = x.queue ++ [m] := by
  simp only [take]
  split <;> rfl

@[simp] theorem delivering_take : (x.take m).delivering = x.delivering := by
  simp only [take]
  split <;> rfl

@[simp] theorem finished_take : (x.take m).finished = x.finished := by
  simp only [take]
  split <;> rfl

@[simp] theorem matchCount_take : (x.take m).matchCount = x.matchCount + 1 := by
  simp only [take]
  split <;> rfl

@[simp] theorem fetches_take : (x.take m).fetches = x.fetches := by
  simp only [take]
  split <;> rfl

@[simp] theorem requested_take : (x.take m).requested = x.requested := by
  simp only [take]
  split <;> rfl

@[simp] theorem config_take : (x.take m).config = x.config := by
  simp only [take]
  split <;> rfl

@[simp] theorem linked_take : (x.take m).linked = x.linked := by
  simp only [take]
  split <;> rfl

@[simp] theorem error_take : (x.take m).error = x.error := by
  simp only [take]
  split <;> rfl

/-- A search without a limit goes on when a match is taken. -/
theorem stopped_take (h : x.config.maxMatches = none) : (x.take m).stopped = x.stopped := by
  simp [take, isFull, h]

end Search

/-- What is written for one search leaves the others as they are. -/
theorem turn_insert (hk : t.searches[k]? = some z) (hx : t.searches[i]? = some x)
    (hturn : k = i → z = x → Turn t t' i x job z' os)
    (hother : k ≠ i → job ≠ .drain i ∧ ∀ o ∈ os, o.speaksOf? ≠ some i) :
    ∃ x', (t.searches.insert k z')[i]? = some x' ∧ Turn t t' i x job x' os := by
  rw [ExtTreeMap.getElem?_insert]
  by_cases h : k = i
  · subst h
    obtain rfl : z = x := Option.some.inj (hk.symm.trans hx)
    exact ⟨z', by simp, hturn rfl rfl⟩
  · obtain ⟨hjob, hos⟩ := hother h
    exact ⟨x, by simp [h, hx], .aside rfl rfl rfl rfl hjob hos⟩

/-- The other way round, a job starts no search and forgets none. -/
theorem Transition.mem_searches (h : Transition env t job t' os) (i : Nat) :
    i ∈ t'.searches ↔ i ∈ t.searches := by
  cases h with
  | failed hx _ _ _ _ | parkedAsked hx | queued _ hx _ _ _ | announced _ hx _ _ _ | drained hx _
  | delivered hx _ | finished _ _ _ hx => exact mem_insert_of_getElem? hx _ i
  | _ => exact Iff.rfl

/-- **What a job means to a search.** -/
theorem Transition.turn (hs : Sound t (.job job :: rest)) (h : Transition env t job t' os)
    (hx : t.searches[i]? = some x) :
    ∃ x', t'.searches[i]? = some x' ∧ Turn t t' i x job x' os := by
  cases h with
  | barred _ | entered _ | halted _ _ | asked _ _ _ _ | awaited _ _ _ _ | exhausted _ _ _ _ _
  | parked | reported | refused _ _ _ | kept _ _ _ _ | released _ _ | filled _ _ _ _ _
  | combined _ _ _ _ _ =>
    exact ⟨x, hx, .aside rfl rfl rfl rfl (by simp) (by simp [Order.speaksOf?])⟩
  | split _ _ _ _ _ =>
    refine ⟨x, hx, .aside rfl rfl rfl rfl (by simp) ?_⟩
    exact Searches.forall_mem_split t _ fun _ => by simp [Order.speaksOf?]
  | expanded _ _ _ _ _ _ =>
    refine ⟨x, hx, .aside rfl rfl rfl rfl (by simp) ?_⟩
    exact forall_mem_steps (fun _ _ => by simp [Order.speaksOf?]) (by simp [Order.speaksOf?])
  | failed hf _ _ _ _ | parkedAsked hf =>
    refine turn_insert hf hx (fun _ hz => ?_) fun _ => ⟨by simp, by simp [Order.speaksOf?]⟩
    subst hz
    exact .aside rfl rfl rfl rfl (by simp) (by simp [Order.speaksOf?])
  | queued _ hf _ _ hd =>
    refine turn_insert hf hx (fun _ hz => ?_) fun _ => ⟨by simp, by simp [Order.speaksOf?]⟩
    subst hz
    exact .took hd
  | announced _ hf _ _ hd =>
    refine turn_insert hf hx (fun hk hz => ?_) fun hk => ⟨by simp, ?_⟩
    · subst hz
      rw [hk]
      exact .woke hd
    · simpa [Order.speaksOf?] using hk
  | drained hf hq =>
    refine turn_insert hf hx (fun hk hz => ?_) fun hk => ⟨by simpa using hk, by simp⟩
    subst hk hz
    exact .rested hq
  | delivered hf hq =>
    refine turn_insert hf hx (fun hk hz => ?_) fun hk => ⟨by simpa using hk, ?_⟩
    · subst hk hz
      exact .told hq
    · simpa [Order.speaksOf?] using hk
  | @finished b y z hy hle hr hf =>
    have hseat := Searches.seat?_of_role hy hr
    obtain rfl := hs.layout.root hseat
    refine turn_insert hf hx (fun hk hz => ?_) fun hk => ⟨by simp, ?_⟩
    · subst hz
      rw [hk] at hseat ⊢
      exact .ended hseat (by simp)
    · simpa [Order.speaksOf?] using hk

/-! ## The pace of a search -/

/-- How a search stands that is at work with some orders left. -/
structure Paced (t : Searches) (os : List Order) (i : Id) (x : Search) : Prop where
  /-- While matches are queued, the caller is being told. -/
  queued : x.queue ≠ [] → x.delivering = true
  /-- The caller is being told as long as an order says so. -/
  draining : x.delivering = true → .job (.drain i) ∈ os
  /-- A search that is not over has its root branch. -/
  running : x.finished = false → t.seat? (i + 1) = some (i, .root)
  /-- One that is over has none. -/
  gone : x.finished = true → i + 1 ∉ t.branches

/-- The number of a root branch names no other branch. -/
theorem Paced.eq_root {r : BranchRole} (hp : Paced t os i x)
    (h : t.seat? (i + 1) = some (k, r)) : k = i ∧ r = .root := by
  cases hf : x.finished with
  | false =>
    have hr := hp.running hf
    rw [h] at hr
    cases hr
    exact ⟨rfl, rfl⟩
  | true => exact absurd (Searches.mem_of_seat? h) (hp.gone hf)

/-- Every search is at its pace. -/
def AllPaced (t : Searches) (os : List Order) : Prop :=
  ∀ {i : Nat} {x : Search}, t.searches[i]? = some x → Paced t os i x

/-- A branch that has gone does not come back. -/
theorem Transition.not_mem_branches (hl : Layout t) (h : Transition env t job t' os)
    (hi : i ∈ t.searches) (hb : i + 1 ∉ t.branches) : i + 1 ∉ t'.branches := by
  have hold : ∀ {y y' : Branch} {b : Nat}, t.branches[b]? = some y →
      i + 1 ∉ t.branches.insert b y' := fun hy hm =>
    hb ((mem_insert_of_getElem? hy _ _).1 hm)
  cases h with
  | split _ _ _ _ _ =>
    intro hm
    have hlt := hl.search_lt hi
    rw [Searches.mem_branches_iff, Searches.seat?_split, if_neg, ← Searches.mem_branches_iff] at hm
    · exact hb hm
    · exact fun h => absurd h.1 (Nat.not_le.2 (Nat.lt_succ_of_lt hlt))
  | expanded _ _ _ _ _ hy | kept hy _ _ _ | released hy _ => exact hold hy
  | finished _ _ _ _ | filled _ _ _ _ _ | combined _ _ _ _ _ =>
    exact fun hm => hb (ExtTreeMap.mem_of_mem_erase hm)
  | _ => exact hb

/-- **A root branch stays until the search is over.** -/
theorem Transition.seat?_root (hl : Layout t) (h : Transition env t job t' os)
    (hr : t.seat? (i + 1) = some (i, .root)) :
    t'.seat? (i + 1) = some (i, .root) ∨
      ∃ x, t.searches[i]? = some x ∧ t'.searches[i]? = some { x with finished := true } := by
  have hmem : i + 1 ∈ t.branches := Searches.mem_of_seat? hr
  have hwrite : ∀ {y y' : Branch} {b : Nat}, t.branches[b]? = some y → y'.search = y.search →
      y'.role = y.role → { t with branches := t.branches.insert b y' }.seat? (i + 1) =
        some (i, .root) := fun hy h1 h2 => (Searches.seat?_insert hy h1 h2 _).trans hr
  -- the branch of a clause is no root branch
  have hclause : ∀ {y : Branch} {b j slot : Nat}, t.branches[b]? = some y →
      y.role = .clause j slot → b ≠ i + 1 := by
    rintro y b j slot hy hrole rfl
    rw [Searches.seat?_of_getElem? hy, hrole] at hr
    cases hr
  cases h with
  | split _ _ _ _ _ => exact .inl ((hl.seat?_split _ hmem).trans hr)
  | expanded _ _ _ _ _ hy | kept hy _ _ _ | released hy _ =>
    refine .inl (hwrite hy ?_ ?_)
    · rfl
    · rfl
  | @finished b y x hy _ hrole hx =>
    by_cases hb : b = i + 1
    · subst hb
      have hi : y.search = i := by
        rw [Searches.seat?_of_getElem? hy, hrole] at hr
        cases hr
        rfl
      subst hi
      exact .inr ⟨x, hx, by simp⟩
    · exact .inl ((Searches.seat?_erase t b _).trans ((if_neg hb).trans hr))
  | filled hy _ hrole _ _ | combined hy _ hrole _ _ =>
    exact .inl ((Searches.seat?_erase t _ _).trans ((if_neg (hclause hy hrole)).trans hr))
  | _ => exact .inl hr

/-- **A job keeps every search at its pace.** -/
theorem AllPaced.run (hs : Sound t (.job job :: rest)) (hp : AllPaced t (.job job :: rest))
    (h : Transition env t job t' os) : AllPaced t' (os ++ rest) := by
  intro i x' hx'
  have hmem : i ∈ t.searches := (h.mem_searches i).1
    (mem_of_getElem? hx')
  obtain ⟨x, hx⟩ := exists_getElem? hmem
  obtain ⟨x'', hx'', hturn⟩ := h.turn hs hx
  obtain rfl : x' = x'' := Option.some.inj (hx'.symm.trans hx'')
  have hold := hp hx
  have hrunning : x.finished = false → x'.finished = false →
      t'.seat? (i + 1) = some (i, .root) := by
    intro h1 h2
    rcases h.seat?_root hs.layout (hold.running h1) with hr | ⟨z, -, hz⟩
    · exact hr
    · obtain rfl := Option.some.inj (hx'.symm.trans hz)
      cases h2
  have hover : x.finished = true → i + 1 ∉ t'.branches :=
    fun h1 => h.not_mem_branches hs.layout hmem (hold.gone h1)
  -- an order that is not the one carried out is still there
  have hstay : job ≠ .drain i → .job (.drain i) ∈ .job job :: rest →
      .job (.drain i) ∈ os ++ rest := by
    intro hne hm
    rcases List.mem_cons.1 hm with he | hm
    · cases he
      exact absurd rfl hne
    · exact List.mem_append.2 (.inr hm)
  cases hturn with
  | aside hq hd hf _ hne _ =>
    refine ⟨fun h1 => ?_, fun h1 => ?_, fun h1 => ?_, fun h1 => ?_⟩
    · rw [hd]
      exact hold.queued (hq ▸ h1)
    · exact hstay hne (hold.draining (hd ▸ h1))
    · exact hrunning (hf ▸ h1) h1
    · exact hover (hf ▸ h1)
  | took hd =>
    refine ⟨fun _ => by simpa using hd, fun _ => hstay (by simp) (hold.draining hd),
      fun h1 => hrunning (by simpa using h1) h1, fun h1 => hover (by simpa using h1)⟩
  | woke _ =>
    exact ⟨fun _ => rfl, fun _ => by simp, fun h1 => hrunning (by simpa using h1) h1,
      fun h1 => hover (by simpa using h1)⟩
  | rested hq =>
    exact ⟨fun h1 => absurd hq h1, fun h1 => (by cases h1), fun h1 => hrunning h1 h1, hover⟩
  | told hq =>
    exact ⟨fun _ => hold.queued (by simp [hq]), fun _ => by simp, fun h1 => hrunning h1 h1, hover⟩
  | ended _ hgone =>
    refine ⟨hold.queued, fun h1 => hstay (by simp) (hold.draining h1), fun h1 => (by cases h1),
      fun _ => hgone⟩

end TripleQuery
