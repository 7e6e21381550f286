import TripleQuery.Proofs.Searching.Accounts
import TripleQuery.Proofs.Searching.Routes
/-!
# Requesting — which search has asked for a document

A path that has to wait for a document nobody has asked for leaves two orders, one
right behind the other: to ask for the document, and to note that its search has
done so and park it. Between the two the source may do anything, and other
searches may come to note requests of their own.

What is to be noted, the orders themselves say (`Noting`). The requests that were
made tally with what searches have noted and with what is still to be noted
(`Searches.Tallied`).
-/

namespace TripleQuery

variable {t t' : Searches} {os front rest : List Order} {o : Order} {job : Job}
  {env : Surroundings} {f : Frame} {d : String} {i n : Nat} {x : Search} {told : List Notice}
  {log notes : List (Frame × String)} {g : Graph}

/-! ## Requests -/

/-- The documents that one search has asked for, the first one first, out of those
that were asked for on behalf of paths. -/
def requestsOf (i : Id) (log : List (Frame × String)) : List String :=
  log.filterMap fun e => if e.1.search = i then some e.2 else none

@[simp] theorem requestsOf_nil (i : Id) : requestsOf i [] = [] := rfl

theorem mem_requestsOf : d ∈ requestsOf i log ↔ ∃ f, (f, d) ∈ log ∧ f.search = i := by
  simp only [requestsOf, List.mem_filterMap, Option.ite_none_right_eq_some, Option.some.injEq,
    Prod.exists]
  constructor
  · rintro ⟨f, d', hmem, hi, rfl⟩
    exact ⟨f, hmem, hi⟩
  · rintro ⟨f, hmem, hi⟩
    exact ⟨f, d, hmem, hi, rfl⟩

theorem requestsOf_append (i : Id) (log log' : List (Frame × String)) :
    requestsOf i (log ++ log') = requestsOf i log ++ requestsOf i log' :=
  List.filterMap_append

/-- A request is one of its own search. -/
theorem requestsOf_cons_self (f : Frame) (d : String) (log : List (Frame × String)) :
    requestsOf f.search ((f, d) :: log) = d :: requestsOf f.search log :=
  List.filterMap_cons_some (if_pos rfl)

/-- And of no other. -/
theorem requestsOf_cons_of_ne (h : f.search ≠ i) :
    requestsOf i ((f, d) :: log) = requestsOf i log :=
  List.filterMap_cons_none (if_neg h)

/-- Who has asked for nothing has no requests. -/
theorem requestsOf_eq_nil (h : ∀ e ∈ log, e.1.search ≠ i) : requestsOf i log = [] :=
  List.filterMap_eq_nil_iff.2 fun e he => if_neg (h e he)

/-! ## Requests that are still to be noted -/

/-- An order asks for a document, or notes that its search has asked for one. -/
def Order.asks : Order → Bool
  | .request _ => true
  | .job (.await _ _ asked) => asked
  | _ => false

/-- What orders are to note of requests that were made. Behind every request that
is still to be made stands the order that notes it. -/
inductive Noting : List Order → List (Frame × String) → Prop
  /-- Nothing is left. -/
  | nil : Noting [] []
  /-- A request is to be made, and noted when it is. -/
  | pair {f : Frame} {d : String} {os : List Order} {notes : List (Frame × String)} :
      Noting os notes → Noting (.request d :: .job (.await f d true) :: os) notes
  /-- A request was made, and is to be noted. -/
  | note {f : Frame} {d : String} {os : List Order} {notes : List (Frame × String)} :
      Noting os notes → Noting (.job (.await f d true) :: os) ((f, d) :: notes)
  /-- Something else is to be done. -/
  | other {o : Order} {os : List Order} {notes : List (Frame × String)} :
      o.asks = false → Noting os notes → Noting (o :: os) notes

namespace Noting

/-- An order that asks for nothing may be taken away. -/
theorem tail (h : Noting (o :: os) notes) (ho : o.asks = false) : Noting os notes := by
  cases h with
  | pair _ | note _ => cases ho
  | other _ h => exact h

/-- A request is noted right behind it. -/
theorem of_request (h : Noting (.request d :: os) notes) :
    ∃ f os', os = .job (.await f d true) :: os' ∧ Noting os' notes := by
  cases h with
  | pair h => exact ⟨_, _, rfl, h⟩
  | other ho _ => cases ho

/-- What the first order notes was asked for. -/
theorem of_note (h : Noting (.job (.await f d true) :: os) notes) :
    ∃ notes', notes = (f, d) :: notes' ∧ Noting os notes' := by
  cases h with
  | note h => exact ⟨_, rfl, h⟩
  | other ho _ => cases ho

/-- Orders that ask for nothing may be put in front. -/
theorem prepend (h : Noting os notes) (hfront : ∀ o ∈ front, o.asks = false) :
    Noting (front ++ os) notes := by
  induction front with
  | nil => exact h
  | cons o front ih =>
    have hrest := ih fun o' ho' => hfront o' (List.mem_cons_of_mem _ ho')
    exact .other (hfront o List.mem_cons_self) hrest

/-- What is to be noted, an order notes. -/
theorem mem_orders (h : Noting os notes) (hmem : (f, d) ∈ notes) :
    .job (.await f d true) ∈ os := by
  induction h with
  | nil => cases hmem
  | pair _ ih => exact List.mem_cons_of_mem _ (List.mem_cons_of_mem _ (ih hmem))
  | note _ ih =>
    rcases List.mem_cons.1 hmem with he | hmem
    · cases he
      exact List.mem_cons_self
    · exact List.mem_cons_of_mem _ (ih hmem)
  | other _ _ ih => exact List.mem_cons_of_mem _ (ih hmem)

/-- **What a job leaves is to note no more than before**: what it asks for is
still to be asked for. -/
theorem run (h : Noting rest notes) (ht : Transition env t job t' os) :
    Noting (os ++ rest) notes := by
  cases ht with
  | asked _ _ _ _ => exact .other rfl (.pair (.other rfl h))
  | split _ _ _ _ _ => exact h.prepend (Searches.forall_mem_split t _ fun _ => rfl)
  | expanded _ _ _ _ _ _ => exact h.prepend (forall_mem_steps (fun _ _ => rfl) rfl)
  | _ => exact h.prepend (by simp [Order.asks])

end Noting

/-- Searches have noted what they had noted before, and none was started. -/
def Searches.KeepsRequests (t t' : Searches) : Prop :=
  ∀ (i : Id) (x' : Search), t'.searches[i]? = some x' → ∃ x : Search,
    t.searches[i]? = some x ∧ x'.fetches = x.fetches ∧ x'.requested = x.requested

namespace Searches.KeepsRequests

theorem of_eq (h : t'.searches = t.searches) : t.KeepsRequests t' :=
  fun _ x' hx => ⟨x', h ▸ hx, rfl, rfl⟩

/-- One search is written again. -/
theorem insert {x' : Search} (h : t'.searches = t.searches.insert i x')
    (hx : t.searches[i]? = some x) (hf : x'.fetches = x.fetches)
    (hr : x'.requested = x.requested) : t.KeepsRequests t' := by
  intro k z hz
  rw [h] at hz
  rcases of_getElem?_insert hz with ⟨rfl, rfl⟩ | hz
  · exact ⟨x, hx, hf, hr⟩
  · exact ⟨z, hz, rfl, rfl⟩

/-- One search is stopped or cancelled. -/
theorem update (t : Searches) (i : Id) {change : Search → Search}
    (hf : ∀ x, (change x).fetches = x.fetches) (hr : ∀ x, (change x).requested = x.requested) :
    t.KeepsRequests (t.update i change) := by
  intro k z hz
  obtain ⟨x, hx, rfl | rfl⟩ := Searches.of_getElem?_update hz
  · exact ⟨z, hx, rfl, rfl⟩
  · exact ⟨x, hx, hf x, hr x⟩

end Searches.KeepsRequests

/-- **A job notes a request**, or leaves what searches have noted as it is. -/
theorem Transition.requests_cases (h : Transition env t job t' os) :
    (∃ f d x, job = .await f d true ∧ t.searches[f.search]? = some x ∧
      t'.searches = t.searches.insert f.search (x.noteRequest d)) ∨
    (Order.job job).asks = false ∧ t.KeepsRequests t' := by
  cases h with
  | parkedAsked hx => exact .inl ⟨_, _, _, rfl, hx, rfl⟩
  | failed hx _ _ _ _ | drained hx _ | delivered hx _ | finished _ _ _ hx =>
    exact .inr ⟨rfl, .insert rfl hx rfl rfl⟩
  | queued _ hx _ _ _ | announced _ hx _ _ _ =>
    exact .inr ⟨rfl, .insert rfl hx Search.fetches_take Search.requested_take⟩
  | _ => exact .inr ⟨rfl, .of_eq rfl⟩

/-- A document that somebody has asked for is waited for only if the search has noted
a request of its own. -/
theorem Search.requested_of_nextFetch (h : x.nextFetch env f = some d)
    (hu : env.isUnrequested d = false) : d ∈ x.requested := by
  unfold nextFetch at h
  split at h
  · obtain ⟨state, hstate, hd⟩ := Option.bind_eq_some_iff.1 h
    have hne : state d ≠ .unrequested := by simpa [Surroundings.isUnrequested, hstate] using hu
    unfold Frame.nextFetch at hd
    split at hd
    · have hworth := List.find?_some hd
      simp only [Bool.and_eq_true] at hworth
      cases hs : state d with
      | unrequested => exact absurd hs hne
      | requested => simpa [hs, Frame.isWorthWaiting] using hworth.2
      | fetched | failed _ => simp [hs, Frame.isWorthWaiting] at hworth
    · cases hd
  · cases h

/-- **Who waits without asking waits for what its search has noted.** -/
theorem Transition.requested_of_await (h : Transition env t job t' os)
    (ho : .job (.await f d false) ∈ os) :
    ∃ x, t.searches[f.search]? = some x ∧ d ∈ x.requested := by
  cases h.leaves ho with
  | await hx hd hu => exact ⟨_, hx, Search.requested_of_nextFetch hd hu⟩

/-! ## Requests that were made -/

/-- The requests that were made are those that searches have noted, and those that
are still to be noted. -/
structure Searches.Tallied (t : Searches) (log notes : List (Frame × String)) : Prop where
  /-- What is to be noted was asked for. -/
  made {e : Frame × String} : e ∈ notes → e ∈ log
  /-- Who has asked was started. -/
  known {e : Frame × String} : e ∈ log → e.1.search ∈ t.searches
  counted {i : Id} {x : Search} : t.searches[i]? = some x →
    (requestsOf i log).length = x.fetches + (requestsOf i notes).length
  remembered {i : Id} {x : Search} {d : String} : t.searches[i]? = some x →
    d ∈ x.requested → d ∈ requestsOf i log

namespace Searches.Tallied

/-- A search that was not started has asked for nothing. -/
theorem requestsOf_eq_nil (h : t.Tallied log notes) (hi : i ∉ t.searches) :
    requestsOf i log = [] ∧ requestsOf i notes = [] :=
  ⟨TripleQuery.requestsOf_eq_nil fun _ he hk => hi (hk ▸ h.known he),
    TripleQuery.requestsOf_eq_nil fun _ he hk => hi (hk ▸ h.known (h.made he))⟩

/-- Nobody notes anything. -/
theorem keep (h : t.Tallied log notes) (hk : t.KeepsRequests t')
    (hmem : ∀ i ∈ t.searches, i ∈ t'.searches) : t'.Tallied log notes := by
  refine ⟨h.made, fun he => hmem _ (h.known he), fun hx' => ?_, fun hx' hd => ?_⟩
  · obtain ⟨x, hx, hf, -⟩ := hk _ _ hx'
    rw [hf]
    exact h.counted hx
  · obtain ⟨x, hx, -, hr⟩ := hk _ _ hx'
    exact h.remembered hx (hr ▸ hd)

/-- A search is started. -/
theorem launch (h : t.Tallied log notes) (hnew : t.next ∉ t.searches) (config : SearchConfig)
    (linked : Bool) (p : Pattern) : (t.launch config linked p).1.Tallied log notes := by
  obtain ⟨hlog, hnotes⟩ := h.requestsOf_eq_nil hnew
  refine ⟨h.made, fun he => Std.ExtTreeMap.mem_insert.2 (.inr (h.known he)), fun hx => ?_,
    fun hx hd => ?_⟩
  · rcases of_getElem?_insert hx with ⟨rfl, rfl⟩ | hx
    · rw [hlog, hnotes]
      rfl
    · exact h.counted hx
  · rcases of_getElem?_insert hx with ⟨rfl, rfl⟩ | hx
    · cases hd
    · exact h.remembered hx hd

/-- A request is made. -/
theorem ask (h : t.Tallied log notes) (hf : f.search ∈ t.searches) :
    t.Tallied (log ++ [(f, d)]) ((f, d) :: notes) := by
  refine ⟨fun he => ?_, fun he => ?_, fun {i x} hx => ?_, fun hx hd => ?_⟩
  · rcases List.mem_cons.1 he with rfl | he
    · exact List.mem_append_right _ (List.mem_singleton_self _)
    · exact List.mem_append_left _ (h.made he)
  · rcases List.mem_append.1 he with he | he
    · exact h.known he
    · obtain rfl := List.mem_singleton.1 he
      exact hf
  · have hcount := h.counted hx
    rw [requestsOf_append, List.length_append]
    by_cases hi : f.search = i
    · subst hi
      simp only [requestsOf_cons_self, requestsOf_nil, List.length_cons, List.length_nil]
      omega
    · rw [requestsOf_cons_of_ne hi, requestsOf_cons_of_ne hi, hcount]
      rfl
  · rw [requestsOf_append]
    exact List.mem_append_left _ (h.remembered hx hd)

/-- **A request that was made is noted.** -/
theorem note (h : t.Tallied log ((f, d) :: notes)) (hx : t.searches[f.search]? = some x)
    (ht : t'.searches = t.searches.insert f.search (x.noteRequest d)) : t'.Tallied log notes := by
  refine ⟨fun he => h.made (List.mem_cons_of_mem _ he), fun he => ?_, fun {i x'} hx' => ?_,
    fun {i x' d'} hx' hd => ?_⟩
  · rw [ht]
    exact (mem_insert_of_getElem? hx _ _).2 (h.known he)
  · rw [ht, Std.ExtTreeMap.getElem?_insert] at hx'
    split at hx'
    · rename_i hi
      obtain rfl := Std.LawfulEqCmp.eq_of_compare hi
      cases hx'
      have hcount := h.counted hx
      rw [requestsOf_cons_self, List.length_cons] at hcount
      change (requestsOf f.search log).length = x.fetches + 1 + _
      omega
    · rename_i hi
      rw [h.counted hx', requestsOf_cons_of_ne fun he => hi (by simp [he])]
  · rw [ht] at hx'
    rcases of_getElem?_insert hx' with ⟨rfl, rfl⟩ | hx'
    · rcases List.mem_cons.1 hd with rfl | hd
      · exact mem_requestsOf.2 ⟨f, h.made List.mem_cons_self, rfl⟩
      · exact h.remembered hx hd
    · exact h.remembered hx' hd

/-- **Whatever a job does, the requests tally.** -/
theorem run (h : t.Tallied log notes) (hn : Noting (.job job :: rest) notes)
    (ht : Transition env t job t' os) :
    ∃ notes', Noting (os ++ rest) notes' ∧ t'.Tallied log notes' := by
  rcases ht.requests_cases with ⟨f, d, x, rfl, hx, hsearches⟩ | ⟨hjob, hkeep⟩
  · obtain ⟨notes', rfl, hrest⟩ := hn.of_note
    exact ⟨notes', hrest.run ht, h.note hx hsearches⟩
  · exact ⟨notes, (hn.tail hjob).run ht, h.keep hkeep fun i hi => (ht.mem_searches i).2 hi⟩

end Searches.Tallied

end TripleQuery
