import TripleQuery.Proofs.Searching.Reckoning
/-!
# Queueing — matches are told in the order in which they are taken

The caller of a search is told of one match after the other: at most one order
to tell him of a match is there at a time, and it stands before the order to
come back for the next one (`InLine`). So what was told of a search, what is
about to be told, and what is queued make up one list in this order
(`Scene.taken`). A step leaves it as it is or takes one more match, which goes
to its end (`Scene.Step.taken`).
-/

namespace TripleQuery

open Std (ExtTreeMap)

variable {t t' : Searches} {os rest : List Order} {job : Job} {env : Surroundings}
  {i k : Nat} {x x' : Search} {o : Order} {delivering : Bool} {told : List Notice}

/-- The orders that tell the caller of a search of matches. -/
def tellersOf (i : Id) (os : List Order) : List Order :=
  os.filter fun o => o.tells? = some i

/-- How a caller is told of matches, one after the other. -/
inductive InLine (i : Id) : Bool → List Order → Prop
  /-- He is told of none. -/
  | silent : InLine i false []
  /-- He will be told of what is queued. -/
  | draining : InLine i true [.job (.drain i)]
  /-- He is about to be told of a match, and then of what is queued. -/
  | telling (m : Bindings) : InLine i true [.deliver i m, .job (.drain i)]

theorem tellersOf_append (i : Id) (os os' : List Order) :
    tellersOf i (os ++ os') = tellersOf i os ++ tellersOf i os' :=
  List.filter_append ..

theorem tellersOf_cons_of_eq (h : o.tells? = some i) (os : List Order) :
    tellersOf i (o :: os) = o :: tellersOf i os :=
  List.filter_cons_of_pos (by simpa using h)

theorem tellersOf_cons_of_ne (h : o.tells? ≠ some i) (os : List Order) :
    tellersOf i (o :: os) = tellersOf i os :=
  List.filter_cons_of_neg (by simpa using h)

theorem tellersOf_eq_nil (h : ∀ o ∈ os, o.tells? ≠ some i) : tellersOf i os = [] :=
  List.filter_eq_nil_iff.2 fun o ho => by simpa using h o ho

/-- Whoever tells a caller of matches speaks of the search. -/
theorem Order.speaksOf?_of_tells? (h : o.tells? = some i) : o.speaksOf? = some i := by
  unfold tells? at h
  split at h <;> cases h <;> rfl

/-- Of a search that was not started nobody tells. -/
theorem Sound.tellersOf_eq_nil (h : Sound t os) (hi : i ∉ t.searches) : tellersOf i os = [] :=
  TripleQuery.tellersOf_eq_nil fun _ ho ht => hi (h.layout.launched (h.rooted ho ht))

/-- A match is told by one of those orders. -/
theorem deliveriesOf_tellersOf (i : Id) (os : List Order) :
    deliveriesOf i (tellersOf i os) = deliveriesOf i os := by
  induction os with
  | nil => rfl
  | cons o os ih =>
    by_cases h : o.tells? = some i
    · rw [tellersOf_cons_of_eq h, deliveriesOf_cons, deliveriesOf_cons, ih]
    · have hnone : o.delivery? i = none := by
        unfold Order.delivery?
        split
        · exact if_neg fun hk => h (congrArg some hk)
        · rfl
      rw [tellersOf_cons_of_ne h, deliveriesOf_cons, hnone, ih]
      rfl

/-- Whoever is about to come back for the next match was the only one to tell. -/
theorem InLine.tail (h : InLine i delivering (.job (.drain i) :: os)) :
    delivering = true ∧ os = [] := by
  cases h
  exact ⟨rfl, rfl⟩

/-- Whoever is about to tell of a match is followed by one who comes back. -/
theorem InLine.of_deliver {m : Bindings} (h : InLine i delivering (.deliver i m :: os)) :
    InLine i delivering os := by
  cases h
  exact .draining

/-- While nobody tells of a match, nobody is to come back. -/
theorem InLine.eq_nil (h : InLine i false os) : os = [] := by
  cases h
  rfl

/-! ## What becomes of the line -/

/-- Callers are told of matches one after the other. -/
def AllInLine (t : Searches) (os : List Order) : Prop :=
  ∀ (i : Nat) (x : Search), t.searches[i]? = some x → InLine i x.delivering (tellersOf i os)

/-- A job that means something to a search keeps its line. -/
theorem Turn.inLine (h : Turn t t' i x job x' os)
    (hl : InLine i x.delivering (tellersOf i (.job job :: rest))) :
    InLine i x'.delivering (tellersOf i (os ++ rest)) := by
  rw [tellersOf_append]
  cases h with
  | aside _ hd _ _ hjob hos =>
    have hquiet : Order.tells? (.job job) ≠ some i := by
      cases job <;> simp_all [Order.tells?]
    rw [tellersOf_cons_of_ne hquiet] at hl
    rwa [hd, tellersOf_eq_nil fun o ho ht => hos o ho (Order.speaksOf?_of_tells? ht)]
  | took _ => simpa [tellersOf, Order.tells?] using hl
  | woke hd =>
    rw [tellersOf_cons_of_ne (by simp [Order.tells?]), hd] at hl
    rw [hl.eq_nil, List.append_nil, tellersOf_cons_of_eq rfl,
      tellersOf_cons_of_ne (by simp [Order.tells?])]
    exact .draining
  | rested _ =>
    rw [tellersOf_cons_of_eq rfl] at hl
    rw [hl.tail.2]
    exact .silent
  | @told m ms _ =>
    rw [tellersOf_cons_of_eq rfl] at hl
    obtain ⟨hd, hnil⟩ := hl.tail
    rw [hnil, List.append_nil, tellersOf_cons_of_eq rfl, tellersOf_cons_of_eq rfl]
    simp only [hd]
    exact .telling m
  | ended _ _ => simpa [tellersOf, Order.tells?] using hl

namespace AllInLine

/-- **A job leaves callers in line.** -/
theorem run (hs : Sound t (.job job :: rest)) (h : AllInLine t (.job job :: rest))
    (ht : Transition env t job t' os) : AllInLine t' (os ++ rest) := by
  intro i x' hx'
  obtain ⟨x, hx⟩ := exists_getElem? ((ht.mem_searches i).1 (mem_of_getElem? hx'))
  obtain ⟨x'', hx'', hturn⟩ := ht.turn hs hx
  obtain rfl := Option.some.inj (hx'.symm.trans hx'')
  exact hturn.inLine (h i x hx)

/-- Work that tells nobody of a match may go first. -/
theorem prepend (h : AllInLine t rest) (hs : t'.searches = t.searches)
    (hos : ∀ o ∈ os, o.tells? = none) : AllInLine t' (os ++ rest) := by
  intro i x hx
  rw [tellersOf_append, tellersOf_eq_nil fun o ho ht => by rw [hos o ho] at ht; cases ht]
  exact h i x (hs ▸ hx)

/-- An order for somebody else may be carried out. -/
theorem handOver (h : AllInLine t (o :: os)) (ho : ∀ job, o ≠ .job job) : AllInLine t os := by
  intro i x hx
  have hold := h i x hx
  by_cases ht : o.tells? = some i
  · rw [tellersOf_cons_of_eq ht] at hold
    cases o with
    | deliver k m =>
      cases ht
      exact hold.of_deliver
    | job job => exact absurd rfl (ho job)
    | _ => cases ht
  · rwa [tellersOf_cons_of_ne ht] at hold

/-- A search may be changed in other respects. -/
theorem update (h : AllInLine t os) (k : Nat) (change : Search → Search)
    (hd : ∀ x, (change x).delivering = x.delivering) : AllInLine (t.update k change) os := by
  cases hz : t.searches[k]? with
  | none =>
    have hsame : t.update k change = t := by simp only [Searches.update, hz]
    rwa [hsame]
  | some z =>
    rw [Searches.update_of_getElem? hz]
    intro i x hx
    rcases of_getElem?_insert hx with ⟨rfl, rfl⟩ | hx
    · rw [hd]
      exact h k z hz
    · exact h i x hx

/-- A search that is started tells of nothing yet. -/
theorem launch (hs : Sound t os) (h : AllInLine t os) (config : SearchConfig) (linked : Bool)
    (p : Pattern) : AllInLine (t.launch config linked p).1
      (.job (t.launch config linked p).2.2 :: os) := by
  intro i x hx
  rw [tellersOf_cons_of_ne (by simp [Searches.launch, Order.tells?])]
  change (t.searches.insert t.next _)[i]? = some x at hx
  rcases of_getElem?_insert hx with ⟨rfl, rfl⟩ | hx
  · rw [hs.tellersOf_eq_nil hs.layout.next_not_mem_searches]
    exact .silent
  · exact h i x hx

end AllInLine

/-! ## Everything that was taken -/

/-- A job that means something to a search leaves what is about to be told and
what is queued as they are, in this order, or takes a match at their end. -/
theorem Turn.taken (h : Turn t t' i x job x' os)
    (hl : InLine i x.delivering (tellersOf i (.job job :: rest))) :
    (deliveriesOf i (os ++ rest) ++ x'.queue = deliveriesOf i rest ++ x.queue ∧
        x'.matchCount = x.matchCount) ∨
      ∃ b m ms, job = .report b (m :: ms) ∧
        deliveriesOf i (os ++ rest) ++ x'.queue = deliveriesOf i rest ++ x.queue ++ [m] ∧
        x'.matchCount = x.matchCount + 1 := by
  rw [deliveriesOf_append]
  cases h with
  | aside hq _ _ hm _ hos => exact .inl ⟨by rw [deliveriesOf_eq_nil hos, hq]; rfl, hm⟩
  | @took b m ms _ => exact .inr ⟨b, m, ms, rfl, by simp [deliveriesOf, Order.delivery?], by simp⟩
  | @woke b m ms _ => exact .inr ⟨b, m, ms, rfl, by simp [deliveriesOf, Order.delivery?], by simp⟩
  | rested _ => exact .inl ⟨rfl, rfl⟩
  | told hq =>
    -- nobody else is about to tell of a match
    rw [tellersOf_cons_of_eq rfl] at hl
    have hrest : deliveriesOf i rest = [] := by
      rw [← deliveriesOf_tellersOf, hl.tail.2]
      rfl
    refine .inl ⟨?_, rfl⟩
    rw [hrest, hq]
    simp [deliveriesOf, Order.delivery?]
  | ended _ _ => exact .inl ⟨rfl, rfl⟩

namespace Scene

variable {w w' : Scene} {g : Graph}

/-- What a search has taken: what its caller was told, is about to be told, and
what is queued for him. -/
def taken (w : Scene) (i : Id) : List Bindings :=
  matchesOf i w.told ++ (deliveriesOf i w.orders ++ w.table.queueOf i)

/-- **Whatever happens, callers stay in line.** -/
theorem Step.inLine (h : Step w w') (hs : w.IsSound) (hl : AllInLine w.table w.orders) :
    AllInLine w'.table w'.orders := by
  cases h with
  | work state? => exact AllInLine.run hs hl (Sound.transition hs _)
  | handOver ho => exact hl.handOver ho
  | add _ | equate _ => exact hl
  | launch config linked _ => exact AllInLine.launch hs hl config linked _
  | stop i => exact AllInLine.update hl i .stop fun _ => rfl
  | cancel i => exact AllInLine.update hl i .cancel fun _ => rfl
  | resume ticket =>
    simp only [Searches.resume]
    split
    · exact hl
    · exact hl.prepend rfl (by simp [Order.tells?])
  | discard ticket =>
    simp only [Searches.discard]
    split
    · exact hl
    · exact hl.prepend rfl (by simp [Order.tells?])

/-- What is told by an order is what was about to be told. -/
theorem matchesOf_notices (i : Id) (o : Order) :
    matchesOf i o.notices = (o.delivery? i).toList := by
  cases o with
  | deliver k m =>
    by_cases hk : k = i <;> simp [matchesOf, Order.notices, Order.delivery?, Notice.match?, hk]
  | finish k r => simp [matchesOf, Order.notices, Order.delivery?, Notice.match?]
  | _ => rfl

/-- A search that is changed in other respects has taken what it had. -/
theorem queueOf_update (t : Searches) (i k : Nat) {change : Search → Search}
    (hq : ∀ x, (change x).queue = x.queue) : (t.update k change).queueOf i = t.queueOf i := by
  cases hz : t.searches[k]? with
  | none => simp only [Searches.update, hz]
  | some z =>
    rw [Searches.update_of_getElem? hz]
    exact Searches.queueOf_rewrite rfl hz (hq z)

/-- What a search has taken after a job: the match that was reported last, if it
was taken, goes to the end. -/
theorem taken_run (ht : Turn t t' i x job x' os) (hx : t.searches[i]? = some x)
    (hx' : t'.searches[i]? = some x') (hl : AllInLine t (.job job :: rest)) (g g' : Graph)
    (told : List Notice) :
    (taken ⟨g', t', os ++ rest, told⟩ i = taken ⟨g, t, .job job :: rest, told⟩ i ∧
        x'.matchCount = x.matchCount) ∨
      ∃ b m ms, job = .report b (m :: ms) ∧
        taken ⟨g', t', os ++ rest, told⟩ i = taken ⟨g, t, .job job :: rest, told⟩ i ++ [m] ∧
        x'.matchCount = x.matchCount + 1 := by
  have hjob : deliveriesOf i (.job job :: rest) = deliveriesOf i rest := by
    rw [deliveriesOf_cons]
    rfl
  simp only [taken, Searches.queueOf_of_getElem? hx, Searches.queueOf_of_getElem? hx', hjob]
  rcases ht.taken (hl i x hx) with ⟨heq, hm⟩ | ⟨b, m, ms, hreport, heq, hm⟩
  · exact .inl ⟨by rw [heq], hm⟩
  · exact .inr ⟨b, m, ms, hreport, by rw [heq]; simp only [List.append_assoc], hm⟩

/-- **A step takes no match, or the one that is reported first**, which goes to
the end and is counted. -/
theorem Step.taken (h : Step w w') (hs : w.IsSound) (hl : AllInLine w.table w.orders)
    (hx : w.table.searches[i]? = some x) (hx' : w'.table.searches[i]? = some x') :
    (w'.taken i = w.taken i ∧ x'.matchCount = x.matchCount) ∨
      ∃ b m ms rest, w.orders = .job (.report b (m :: ms)) :: rest ∧
        w'.taken i = w.taken i ++ [m] ∧ x'.matchCount = x.matchCount + 1 := by
  have hquiet : ∀ {t' : Searches} {os : List Order} {g g' : Graph} {t : Searches}
      {rest : List Order} {told : List Notice}, (∀ o ∈ os, o.speaksOf? = none) →
      t'.queueOf i = t.queueOf i →
      (⟨g', t', os ++ rest, told⟩ : Scene).taken i = (⟨g, t, rest, told⟩ : Scene).taken i := by
    intro t' os g g' t rest told hos hq
    simp only [Scene.taken, deliveriesOf_append, hq]
    rw [deliveriesOf_eq_nil fun o ho h => by rw [hos o ho] at h; cases h]
    rfl
  cases h with
  | @work g t job os told state? =>
    have ht := Sound.transition hs ⟨g, state?⟩
    obtain ⟨x'', hx'', hturn⟩ := ht.turn hs hx
    obtain rfl := Option.some.inj (hx'.symm.trans hx'')
    rcases taken_run hturn hx hx' hl g g told with hsame | ⟨b, m, ms, rfl, heq, hm⟩
    · exact .inl hsame
    · exact .inr ⟨b, m, ms, os, rfl, heq, hm⟩
  | @handOver g t o os told ho =>
    obtain rfl := Option.some.inj (hx'.symm.trans hx)
    refine .inl ⟨?_, rfl⟩
    simp only [Scene.taken, matchesOf_append, matchesOf_notices, deliveriesOf_cons,
      List.append_assoc]
  | add _ | equate _ =>
    obtain rfl := Option.some.inj (hx'.symm.trans hx)
    exact .inl ⟨rfl, rfl⟩
  | @launch g t os told config linked p _ =>
    have hne : t.next ≠ i := by
      rintro rfl
      exact hs.layout.next_not_mem_searches (mem_of_getElem? hx)
    have hsame : (t.launch config linked p).1.searches[i]? = t.searches[i]? := by
      change (t.searches.insert t.next _)[i]? = _
      rw [ExtTreeMap.getElem?_insert, if_neg (by simpa using hne)]
    have hqueue : (t.launch config linked p).1.queueOf i = t.queueOf i := by
      rw [Searches.queueOf, hsame, Searches.queueOf]
    obtain rfl := Option.some.inj (hx'.symm.trans (hsame.trans hx))
    refine .inl ⟨?_, rfl⟩
    simp only [Scene.taken, hqueue, matchesOf_append]
    rw [deliveriesOf_cons]
    simp [matchesOf, Notice.match?, Order.delivery?]
  | @stop g t os told k | @cancel g t os told k =>
    refine .inl ⟨?_, ?_⟩
    · simp only [Scene.taken]
      rw [queueOf_update]
      exact fun _ => rfl
    · simp only [Searches.update] at hx'
      split at hx'
      · obtain rfl := Option.some.inj (hx'.symm.trans hx)
        rfl
      · rename_i z hz
        rcases of_getElem?_insert hx' with ⟨rfl, rfl⟩ | hx'
        · obtain rfl := Option.some.inj (hz.symm.trans hx)
          rfl
        · obtain rfl := Option.some.inj (hx'.symm.trans hx)
          rfl
  | @resume g t os told ticket =>
    simp only [Searches.resume] at hx' ⊢
    split at hx'
    · obtain rfl := Option.some.inj (hx'.symm.trans hx)
      exact .inl ⟨rfl, rfl⟩
    · obtain rfl := Option.some.inj (hx'.symm.trans hx)
      exact .inl ⟨hquiet (by simp [Order.speaksOf?]) rfl, rfl⟩
  | @discard g t os told ticket =>
    simp only [Searches.discard] at hx' ⊢
    split at hx'
    · obtain rfl := Option.some.inj (hx'.symm.trans hx)
      exact .inl ⟨rfl, rfl⟩
    · obtain rfl := Option.some.inj (hx'.symm.trans hx)
      exact .inl ⟨hquiet (by simp [Order.speaksOf?]) rfl, rfl⟩

/-- A search that is started has taken nothing. -/
theorem taken_launch (hs : Sound t os) (hw : IsFaithful ⟨g, t, os, told⟩)
    (config : SearchConfig) (linked : Bool) (p : Pattern) :
    taken ⟨g, (t.launch config linked p).1, .job (t.launch config linked p).2.2 :: os,
      told ++ [.started t.next p]⟩ t.next = [] := by
  have hnew := hs.layout.next_not_mem_searches
  have hqueue : (t.launch config linked p).1.queueOf t.next = [] := by
    rw [Searches.queueOf_insert rfl, if_pos rfl]
  have hmatches : matchesOf t.next (told ++ [.started t.next p]) = [] :=
    hw.matchesOf_started hnew
  have hdeliver : deliveriesOf t.next os = [] := by
    rw [← deliveriesOf_tellersOf, hs.tellersOf_eq_nil hnew]
    rfl
  simp only [Scene.taken, hqueue, hmatches, deliveriesOf_cons, hdeliver]
  rfl

end Scene

end TripleQuery
