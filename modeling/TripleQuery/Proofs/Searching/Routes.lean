import TripleQuery.Proofs.Matching.Drawing
import TripleQuery.Proofs.Searching.Origin
import TripleQuery.Proofs.Searching.Outcome
import TripleQuery.Proofs.Searching.Sparing
/-!
# Routes — what a path has waited for on its way

A path comes from the start of its search along a route: it waits for a document,
goes on when a triple has matched, or enters a clause (`Frame.Route`). Between
two stops of a route anything may happen to the store and to what its source of
documents answers, so that a route is all that can be said of a path. On every
route the documents are pairwise distinct (`Frame.Route.nodup`), and each is
described by a symbol that was bound on the way and still is
(`Frame.Route.bound`).

Whatever happens in a scene (`Scene.Happens`), every path that goes on in it has
such a route, and has waited for what the route says (`Scene.Routed`).
-/

namespace TripleQuery

open Relation (ReflTransGen)

variable {f f' f₀ : Frame} {d : String} {ds : List String} {x : Search} {env : Surroundings}
  {w w' : Scene}

theorem Term.document?_eq_some {t : Term} :
    t.document? = some d ↔ ∃ iri, t = .symbol iri ∧ documentPart iri = d := by
  cases t <;> simp [Term.document?, Term.iri?]

/-- A document that a search has to wait for is one that a path has not waited
for, and a bound term points into it. -/
theorem Search.nextFetch_eq_some (h : x.nextFetch env f = some d) :
    d ∉ f.awaited ∧ d ∈ f.links x.config := by
  unfold nextFetch at h
  split at h
  · obtain ⟨state, -, hd⟩ := Option.bind_eq_some_iff.1 h
    refine ⟨Frame.not_mem_awaited_of_nextFetch hd, ?_⟩
    unfold Frame.nextFetch at hd
    split at hd
    · exact List.mem_of_find?_eq_some hd
    · cases hd
  · cases h

namespace Frame

/-- How a path came from another, with the documents it waited for on the way, the
first one first. -/
inductive Route (f₀ : Frame) : List String → Frame → Prop
  /-- It is where it was. -/
  | refl : Route f₀ [] f₀
  /-- It has waited for one more document. -/
  | waited {f : Frame} {ds : List String} {x : Search} {env : Surroundings} {d : String} :
      Route f₀ ds f → x.nextFetch env f = some d → Route f₀ (ds ++ [d]) (f.awaiting d)
  /-- One more triple has matched, in whatever store. -/
  | matched {f f' : Frame} {ds : List String} {g : Graph} {fs : List Frame} :
      Route f₀ ds f → f.expand g = .ok fs → f' ∈ fs → Route f₀ ds f'
  /-- All triples have matched, and a clause is tried. -/
  | clause {f : Frame} {ds : List String} {c : Scope} (branch : Id) :
      Route f₀ ds f → f.remaining = [] → c ∈ f.scope.clauses →
      Route f₀ ds (.enter f.search branch c (c.startFrom f.bindings) f.awaited)

namespace Route

/-- **A path remembers all that it has waited for.** -/
theorem awaited_eq (h : Route f₀ ds f) : f.awaited = ds.reverse ++ f₀.awaited := by
  induction h with
  | refl => rfl
  | waited _ _ ih =>
    rw [List.reverse_append, List.append_assoc, ← ih]
    rfl
  | matched _ he hf ih => exact (awaited_of_mem_expand he hf).trans ih
  | clause _ _ _ _ ih => exact ih

/-- **No document is waited for twice.** -/
theorem nodup (h : Route f₀ ds f) : ds.Nodup := by
  induction h with
  | refl => exact List.nodup_nil
  | waited hr hd ih =>
    refine List.nodup_append.2 ⟨ih, List.nodup_singleton _, fun a ha b hb hab => ?_⟩
    -- it would be among those that the path remembers
    refine (Search.nextFetch_eq_some hd).1 ?_
    rw [hr.awaited_eq, List.mem_append, List.mem_reverse, ← List.mem_singleton.1 hb, ← hab]
    exact .inl ha
  | matched _ _ _ ih => exact ih
  | clause _ _ _ _ ih => exact ih

/-- **A symbol is bound on the way that the document describes**, for each
document. -/
theorem bound (h : Route f₀ ds f) (hd : d ∈ ds) :
    ∃ (t : Term) (iri : String), f.bindings[t]? = some (.symbol iri) ∧ documentPart iri = d := by
  induction h with
  | refl => cases hd
  | @waited f _ x env d' _ hnext ih =>
    rcases List.mem_append.1 hd with hd | hd
    · exact ih hd
    · obtain rfl := List.mem_singleton.1 hd
      obtain ⟨-, hlink⟩ := Search.nextFetch_eq_some hnext
      obtain ⟨-, -, t, -, value, hvalue, hdoc⟩ := mem_links.1 hlink
      obtain ⟨iri, rfl, hiri⟩ := Term.document?_eq_some.1 hdoc
      exact ⟨t, iri, hvalue, hiri⟩
  | matched _ he hf ih =>
    obtain ⟨t, iri, hvalue, hiri⟩ := ih hd
    exact ⟨t, iri, extends_of_expand he hf t _ hvalue, hiri⟩
  | @clause f _ c _ _ _ _ ih =>
    obtain ⟨t, iri, hvalue, hiri⟩ := ih hd
    exact ⟨t, iri, Bindings.extends_union c.pattern.initial f.bindings t _ hvalue, hiri⟩

end Route

/-- The path that a search for a pattern starts with. -/
def root (search : Id) (p : Pattern) : Frame :=
  .enter search (search + 1) (.ofPattern p) p.initial []

end Frame

/-! ## Whatever happens -/

namespace Scene

/-- One thing that happens in a scene, whose source of documents may give another
answer whenever it is asked for the state of one. -/
inductive Happens : Scene → Scene → Prop
  /-- An order is carried out, or the surroundings do something. -/
  | step {w w' : Scene} : Step w w' → Happens w w'
  /-- A path has to wait for a document, whose state is another one by the time
  that this is acted upon. -/
  | recheck {g : Graph} {t : Searches} {f : Frame} {os : List Order} {told : List Notice}
      {x : Search} {d : String} (state? state'? : Option (String → FetchState)) :
      t.searches[f.search]? = some x → x.stopped = false →
      x.nextFetch ⟨g, state?⟩ f = some d →
      Happens ⟨g, t, .job (.step f) :: os, told⟩
        ⟨g, (t.suspend ⟨g, state'?⟩ f d).1, (t.suspend ⟨g, state'?⟩ f d).2 ++ os, told⟩

/-- **Whatever happens, a scene stays in order.** -/
theorem Happens.inOrder (h : Happens w w') (hw : w.InOrder) : w'.InOrder := by
  cases h with
  | step h => exact hw.step h
  | recheck state? state'? hx hs hd => exact (Proceeds.recheck state? state'? hx hs hd).inOrder hw

/-- What a scene without searches can come to. -/
abbrev Arises (g : Graph) (w : Scene) : Prop :=
  ReflTransGen Happens ⟨g, {}, [], []⟩ w

/-- A scene whose source answers once in each step arises. -/
theorem Steps.arises {g : Graph} (h : Steps ⟨g, {}, [], []⟩ w) : Arises g w :=
  h.lift id fun _ _ => .step

theorem Arises.inOrder {g : Graph} (h : Arises g w) : w.InOrder := by
  induction h with
  | refl => exact Steps.inOrder .refl
  | tail _ hnext ih => exact hnext.inOrder ih

/-- What was told stays told. -/
theorem Happens.told_prefix (h : Happens w w') : w.told <+: w'.told := by
  cases h with
  | recheck _ _ _ _ _ => exact List.prefix_refl _
  | step h =>
    cases h with
    | handOver _ | launch _ _ _ => exact List.prefix_append _ _
    | _ => exact List.prefix_refl _

/-- A path has come from the start of its search, and has waited for some
documents on the way. -/
def Reaches (w : Scene) (f : Frame) (ds : List String) : Prop :=
  ∃ p, .started f.search p ∈ w.told ∧ (Frame.root f.search p).Route ds f

theorem Reaches.happens (hr : w.Reaches f ds) (h : Happens w w') : w'.Reaches f ds := by
  obtain ⟨p, hp, hr⟩ := hr
  exact ⟨p, h.told_prefix.subset hp, hr⟩

/-- Every path that goes on has its route, and waits for a document that it has
not waited for. -/
structure Routed (w : Scene) : Prop where
  reaches {f : Frame} : w.Walks f → ∃ ds, w.Reaches f ds
  /-- A path that is to wait had a document to wait for. -/
  awaits {f : Frame} {d : String} {asked : Bool} : .job (.await f d asked) ∈ w.orders →
    ∃ (x : Search) (env : Surroundings), x.nextFetch env f = some d
  /-- What is watched for on behalf of a parked path is what it has come to wait
  for last. -/
  watches {d : String} {n : Nat} : .watch d n ∈ w.orders → n < w.table.next ∧
    ∀ f, w.table.parked[n]? = some f → f.awaited.head? = some d

end Scene

variable {t t' : Searches} {job : Job} {os : List Order} {n : Nat} {o : Order}

/-- A path that has a number is left alone, or goes on. -/
theorem Transition.parked_of_lt (h : Transition env t job t' os) (hn : n < t.next) :
    t'.parked[n]? = t.parked[n]? := by
  have hinsert : ∀ f : Frame, (t.parked.insert t.next f)[n]? = t.parked[n]? := fun f => by
    rw [Std.ExtTreeMap.getElem?_insert, if_neg]
    simpa using Nat.ne_of_gt hn
  cases h with
  | parked | parkedAsked _ => exact hinsert _
  | _ => rfl

/-- Who is watched for has just been parked. -/
theorem Transition.watch_cases (h : Transition env t job t' os) (ho : .watch d n ∈ os) :
    n = t.next ∧ t'.next = t.next + 1 ∧
      ∃ f : Frame, t'.parked = t.parked.insert n (f.awaiting d) := by
  cases h.leaves ho with
  | watch hparked hnext => exact ⟨rfl, hnext, _, hparked⟩

namespace Scene

/-- **A path of a later scene has a route**, if every path has one. -/
theorem Routed.reaches_step (hr : w.Routed) (h : Step w w') (hw : w.IsSound)
    (hf : w'.Walks f) : ∃ ds, w'.Reaches f ds := by
  have hkeep : ∀ {f'}, w.Walks f' → ∃ ds, w'.Reaches f' ds := fun hf' => by
    obtain ⟨ds, hreach⟩ := hr.reaches hf'
    exact ⟨ds, hreach.happens (.step h)⟩
  cases hf with
  | order ho hframe =>
    cases h.orderOrigin hw ho with
    | same ho => exact hkeep (.order ho hframe)
    | left horders ht ho =>
      have hfirst := horders ▸ List.mem_cons_self
      rcases ht.frame?_cases ho hframe with hsame | ⟨f', fs, rfl, he, hmem⟩ |
        ⟨f', k, c, rfl, hrest, hc, -, rfl⟩
      · exact hkeep (.order hfirst hsame)
      · obtain ⟨ds, p, hp, hroute⟩ := hkeep (.order hfirst rfl)
        rw [← Frame.search_of_mem_expand he hmem] at hp hroute
        exact ⟨ds, p, hp, hroute.matched he hmem⟩
      · obtain ⟨ds, p, hp, hroute⟩ := hkeep (.order hfirst rfl)
        exact ⟨ds, p, hp, hroute.clause _ hrest (List.mem_of_getElem? hc)⟩
    | resumed hn he =>
      subst he
      cases hframe
      exact hkeep (.parked hn)
    | discarded _ he =>
      subst he
      cases hframe
    | @launched config linked p _ htold he =>
      subst he
      cases hframe
      exact ⟨[], p, by simp [htold, Frame.enter], .refl⟩
  | parked hn =>
    rcases h.parked_cases hw hn with hn | ⟨f', d, asked, os, ho, rfl⟩
    · exact hkeep (.parked hn)
    · have hfirst : Order.job (.await f' d asked) ∈ w.orders := ho ▸ List.mem_cons_self
      obtain ⟨ds, p, hp, hroute⟩ := hkeep (.order hfirst rfl)
      obtain ⟨x, env, hd⟩ := hr.awaits hfirst
      exact ⟨ds ++ [d], p, hp, hroute.waited hd⟩

/-- A path that keeps its number is left alone by a step. -/
theorem Step.parked_of_lt (h : Step w w') (hw : w.IsSound) (hn : n < w.table.next)
    (hf : w'.table.parked[n]? = some f) : w.table.parked[n]? = some f := by
  cases h with
  | work state? => exact ((Sound.transition hw _).parked_of_lt hn).symm.trans hf
  | stop _ | cancel _ => simpa using hf
  | @resume g t os told ticket =>
    rcases t.resume_cases ticket with he | ⟨f', -, he⟩ <;> rw [he] at hf
    · exact hf
    · exact of_getElem?_erase hf
  | @discard g t os told ticket =>
    rcases t.discard_cases ticket with he | ⟨f', -, he⟩ <;> rw [he] at hf
    · exact hf
    · exact of_getElem?_erase hf
  | _ => exact hf

/-- **Whatever happens, every path has its route.** -/
theorem Routed.happens (hr : w.Routed) (h : Happens w w') (hw : w.IsSound) : w'.Routed := by
  cases h with
  | step h =>
    refine ⟨fun hf => hr.reaches_step h hw hf, fun {f d asked} ho => ?_, fun {d n} ho => ?_⟩
    · cases h.orderOrigin hw ho with
      | same ho => exact hr.awaits ho
      | left _ ht ho =>
        obtain ⟨x, -, hd⟩ := ht.nextFetch_of_await ho
        exact ⟨x, _, hd⟩
      | resumed _ he | discarded _ he | launched _ _ he => cases he
    · have hle := (h.before hw).table.next_le
      cases h.orderOrigin hw ho with
      | same ho =>
        obtain ⟨hn, hhead⟩ := hr.watches ho
        exact ⟨Nat.lt_of_lt_of_le hn hle, fun f hf => hhead f (h.parked_of_lt hw hn hf)⟩
      | left _ ht ho =>
        obtain ⟨rfl, hnext, f', hparked⟩ := ht.watch_cases ho
        refine ⟨hnext ▸ Nat.lt_succ_self _, fun f hf => ?_⟩
        rw [hparked, Std.ExtTreeMap.getElem?_insert_self] at hf
        cases hf
        rfl
      | resumed _ he | discarded _ he | launched _ _ he => cases he
  | @recheck g t f os told x d state? state'? hx hs hd =>
    obtain ⟨ht, ho⟩ := t.suspend_cases ⟨g, state'?⟩ f d
    have horders : ∀ {o}, o ∈ (t.suspend ⟨g, state'?⟩ f d).2 ++ os → o ∈ os ∨ o = .enterSource ∨
        o = .request d ∨ o = .leaveSource ∨ ∃ asked, o = .job (.await f d asked) := by
      intro o hmem
      rcases ho with ho | ho <;> rw [ho] at hmem <;>
        simp only [List.cons_append, List.nil_append, List.mem_cons] at hmem
      · rcases hmem with rfl | rfl | rfl | rfl | hmem <;> simp_all
      · rcases hmem with rfl | rfl | rfl | hmem <;> simp_all
    rw [ht]
    refine ⟨fun {f'} hf => ?_, fun {f' d' asked} hmem => ?_, fun {d' n} hmem => ?_⟩
    · cases hf with
      | order hmem hframe =>
        rcases horders hmem with hmem | rfl | rfl | rfl | ⟨asked, rfl⟩
        · exact hr.reaches (.order (List.mem_cons_of_mem _ hmem) hframe)
        · cases hframe
        · cases hframe
        · cases hframe
        · cases hframe
          exact hr.reaches (.order List.mem_cons_self rfl)
      | parked hn => exact hr.reaches (.parked hn)
    · rcases horders hmem with hmem | he | he | he | ⟨asked', he⟩
      · exact hr.awaits (List.mem_cons_of_mem _ hmem)
      · cases he
      · cases he
      · cases he
      · cases he
        exact ⟨x, _, hd⟩
    · rcases horders hmem with hmem | he | he | he | ⟨asked', he⟩
      · exact hr.watches (List.mem_cons_of_mem _ hmem)
      all_goals cases he

/-- **In whatever scene arises, every path has its route.** -/
theorem Arises.routed {g : Graph} (h : Arises g w) : w.Routed := by
  induction h with
  | refl =>
    refine ⟨fun hf => ?_, fun ho => ?_, fun ho => ?_⟩
    · cases hf with
      | order ho _ => cases ho
      | parked hn => simp at hn
    · cases ho
    · cases ho
  | tail hprev hnext ih => exact ih.happens hnext (Arises.inOrder hprev).sound

end Scene

end TripleQuery
