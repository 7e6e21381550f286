import Mathlib
import TripleQuery.Proofs.Searching.Stopped
import TripleQuery.Proofs.Sessions.Ending
import TripleQuery.Proofs.Sessions.Prompt
/-!
# Cancelled searches

A search that was cancelled asks for no document any more, and its end says
that it was cancelled, unless it had met an error. No match is found for it any
more. What it had found before is told: a match that was taken while the caller
was being told of another one waits in the queue, and is told though the search
was cancelled meanwhile (`Moment.not_forall_quiet_of_cancelled`). So the caller
is told of what was queued, in its order, and of no other match
(`Moment.Leads.cancelled_for_good`).
-/

namespace TripleQuery

namespace Moment

variable {m m' : Moment} {g : Graph} {source : Option Source} {config : SearchConfig} {i : Id}
  {x : Search}

/-- The matches that a search has taken and its caller was not told of yet. -/
def unheard (m : Moment) (i : Id) : List Bindings :=
  deliveriesOf i (ordersOf m.stack) ++ m.session.searches.queueOf i

/-- The session is about to ask for a document, on behalf of a search. -/
def Asks (m : Moment) (i : Id) (d : String) : Prop :=
  ∃ f stack, m.stack = .order (.request d) :: .order (.job (.await f d true)) :: stack ∧
    f.search = i

/-- Only an order to do so tells a caller that his search is done. -/
theorem task_of_done {s : Session} {task : Task} {r : Except QueryError SearchSummary}
    (h : .done i r ∈ s.news task) : task = .order (.finish i r) := by
  obtain ⟨o, rfl, ho⟩ | ⟨c, p, -, -, he⟩ := Session.mem_news h
  · cases o with
    | finish k r' =>
      cases List.mem_singleton.1 ho
      rfl
    | deliver k b => cases List.mem_singleton.1 ho
    | _ => cases ho
  · cases he

/-- **A document is asked for on behalf of a search that goes on.** -/
theorem IsPrompt.asks (h : m.IsPrompt) {d : String} {stack : List Task}
    (hs : m.stack = .order (.request d) :: stack) :
    ∃ k z, m.Asks k d ∧ m.session.searches.searches[k]? = some z ∧ z.stopped = false := by
  unfold IsPrompt at h
  rw [hs] at h
  cases h with
  | calm hcalm =>
    refine absurd ?_ (hcalm (.request d) List.mem_cons_self)
    trivial
  | asking hx hgoes _ => exact ⟨_, _, ⟨_, _, hs, rfl⟩, hx, hgoes⟩

/-- **The end that is told is the end as things stand.** -/
theorem IsPrompt.finishes (h : m.IsPrompt) {r : Except QueryError SearchSummary}
    {stack : List Task} (hs : m.stack = .order (.finish i r) :: stack) :
    ∃ z, m.session.searches.searches[i]? = some z ∧ r = z.result := by
  unfold IsPrompt at h
  rw [hs] at h
  cases h with
  | calm hcalm =>
    refine absurd ?_ (hcalm (.finish i r) List.mem_cons_self)
    trivial
  | ending hx _ => exact ⟨_, hx, rfl⟩

/-- Nothing waits for a caller who is not being told of a match. -/
theorem IsSound.unheard_eq_nil (h : m.IsSound)
    (hl : AllInLine m.session.searches (ordersOf m.stack))
    (hx : m.session.searches.searches[i]? = some x) (hd : x.delivering = false) :
    m.unheard i = [] := by
  have hline := hl i x hx
  rw [hd] at hline
  have hqueue : x.queue = [] := by
    by_contra hne
    have hbusy := (h.faithful.paced hx).queued hne
    rw [hd] at hbusy
    cases hbusy
  rw [unheard, ← deliveriesOf_tellersOf, hline.eq_nil, Searches.queueOf_of_getElem? hx, hqueue]
  rfl

/-- What a caller is told of the end of a search that was cancelled. -/
def SaysCancelled (x : Search) (r : Except QueryError SearchSummary) : Prop :=
  (∃ e, x.error = some e ∧ r = .error e) ∨
    x.error = none ∧ ∃ sum, r = .ok sum ∧ sum.cancelled = true

/-- **From a stopped search on**, its caller is told of what was taken before,
and of its end as it is then. -/
theorem Leads.later_of_stopped (h : Leads m m') (hm : m.IsSound) (hp : m.IsPrompt)
    (hl : AllInLine m.session.searches (ordersOf m.stack))
    (hx : m.session.searches.searches[i]? = some x) (hs : x.stopped = true) :
    ∃ later x', m'.told = m.told ++ later ∧ m'.session.searches.searches[i]? = some x' ∧
      x.Halts x' ∧ matchesOf i later ++ m'.unheard i = m.unheard i ∧
      ∀ r, .done i r ∈ later → ∃ z, x.Halts z ∧ r = z.result := by
  have hlater : ∃ later, m'.told = m.told ++ later ∧
      ∀ r, .done i r ∈ later → ∃ z, x.Halts z ∧ r = z.result := by
    induction h with
    | refl => exact ⟨[], by simp, by simp⟩
    | @tail v v' hlead hnext ih =>
      obtain ⟨later, htold, hends⟩ := ih
      cases hnext with
      | command c => exact ⟨later, htold, hends⟩
      | @task s task stack told =>
        refine ⟨later ++ s.news task, ?_, fun r hr => ?_⟩
        · rw [← List.append_assoc, ← htold]
        rcases List.mem_append.1 hr with hr | hr
        · exact hends r hr
        · obtain rfl := task_of_done hr
          obtain ⟨hsteps, -⟩ := Leads.steps hlead hm
          obtain ⟨z, hz, hhalts, -⟩ := hsteps.taken_of_stopped hm.sound hl hx hs
          obtain ⟨z', hz', rfl⟩ := (Leads.prompt hlead hm hp).finishes rfl
          obtain rfl := Option.some.inj (hz.symm.trans hz')
          exact ⟨z, hhalts, rfl⟩
  obtain ⟨later, htold, hends⟩ := hlater
  obtain ⟨hsteps, -⟩ := h.steps hm
  obtain ⟨x', hx', hhalts, htaken⟩ := hsteps.taken_of_stopped hm.sound hl hx hs
  refine ⟨later, x', htold, hx', hhalts, ?_, hends⟩
  simp only [Scene.taken, scene, htold, matchesOf_append, List.append_assoc] at htaken
  exact List.append_cancel_left htaken

/-- **A search that was cancelled finds nothing any more.** Its caller is told
of the matches that had been taken before and were waiting for him, in their
order, and of no other; if he is not being told of a match at that moment, as
between two commands from outside, there are none. No document is asked for on
its behalf. And if its end is told, it says that the search was cancelled, unless
an error was recorded. -/
theorem Leads.cancelled_for_good (h : Leads (start g source config) m)
    (hx : m.session.searches.searches[i]? = some x) (hc : x.cancelled = true)
    (h' : Leads m m') :
    (∃ later, m'.told = m.told ++ later ∧
      matchesOf i later ++ m'.unheard i = m.unheard i ∧
      (m.stack = [] ∨ x.delivering = false → matchesOf i later = []) ∧
      ∀ r, .done i r ∈ later → SaysCancelled x r) ∧
    ∀ d stack, m'.stack = .order (.request d) :: stack → ∃ k, k ≠ i ∧ m'.Asks k d := by
  have hstart := isSound_start g source config
  have hm := h.isSound
  have hprompt := h.prompt hstart (isPrompt_start g source config)
  obtain ⟨hline, hhalted⟩ := (h.steps hstart).1.inLine
  have hs : x.stopped = true := hhalted i x hx hc
  obtain ⟨later, x', htold, hx', hhalts, htaken, hends⟩ :=
    h'.later_of_stopped hm hprompt hline hx hs
  refine ⟨⟨later, htold, htaken, fun hidle => ?_, fun r hr => ?_⟩, fun d stack hd => ?_⟩
  · have hnone : m.unheard i = [] := by
      refine hm.unheard_eq_nil hline hx (hidle.elim (fun hstack => ?_) id)
      by_contra hbusy
      have hdrain := (hm.faithful.paced hx).draining (by simpa using hbusy)
      simp [scene, hstack] at hdrain
    rw [hnone] at htaken
    exact (List.append_eq_nil_iff.1 htaken).1
  · obtain ⟨z, hz, rfl⟩ := hends r hr
    rw [SaysCancelled, ← hz.error]
    exact Search.result_of_cancelled (hz.cancelled hc)
  · obtain ⟨k, z, hasks, hz, hgoes⟩ := (h'.prompt hm hprompt).asks hd
    refine ⟨k, ?_, hasks⟩
    rintro rfl
    obtain rfl := Option.some.inj (hz.symm.trans hx')
    rw [hhalts.stopped] at hgoes
    cases hgoes

/-! ## A search that is cancelled while a match is queued -/

/-- Two acquaintances with an address each. -/
def correspondents : Graph :=
  .ofList
    [⟨.symbol "ann", .symbol "knows", .symbol "bob", none⟩,
      ⟨.symbol "ann", .symbol "knows", .symbol "cid", none⟩,
      ⟨.symbol "bob", .symbol "mail", .symbol "b", none⟩,
      ⟨.symbol "cid", .symbol "mail", .symbol "c", none⟩]

/-- The addresses of acquaintances. -/
def mails : Pattern where
  triples :=
    [⟨.symbol "ann", .symbol "knows", .var "y", none⟩, ⟨.var "y", .symbol "mail", .var "z", none⟩]

/-- What the caller does at the first match: he has the other path called, and
cancels the search. -/
def callThenCancel : List Command :=
  [.script (.fire 0 none), .cancel "mails"]

/-- The search waits for two documents. -/
def waitingTwice : Moment :=
  carryOutAll 60 [.search "mails" mails [callThenCancel] []]
    (start correspondents (some (.scripted { mode := .hold })) {})

/-- The first path was called and has found a match. Inside, the second one has
found another, and the search was cancelled. -/
def cancelledInside : Moment :=
  carryOutAll 20 [.script (.fire 0 none)] waitingTwice

/-- All is over. -/
def cancelledAfter : Moment :=
  carryOut 20 cancelledInside

/-- The match that was queued when the search was cancelled. -/
def queuedMail : Bindings :=
  .ofPairs [(.var "y", .symbol "cid"), (.var "z", .symbol "c")]

theorem leads_cancelledInside :
    Leads (start correspondents (some (.scripted { mode := .hold })) {}) cancelledInside :=
  (leads_carryOutAll 60 _ _).trans (leads_carryOutAll 20 _ _)

theorem leads_cancelledAfter : Leads cancelledInside cancelledAfter :=
  leads_carryOut 20 _

theorem cancelled_cancelledInside :
    (cancelledInside.session.searches.searches[0]?.map (·.cancelled)) = some true := by
  cbv

theorem matchesOf_cancelledInside : matchesOf 0 cancelledAfter.told =
    matchesOf 0 cancelledInside.told ++ [queuedMail] := by
  cbv

/-- **A caller may be told of a match after he has cancelled the search**: one
that was queued. -/
theorem not_forall_quiet_of_cancelled :
    ¬ ∀ (g : Graph) (source : Option Source) (config : SearchConfig) (m m' : Moment) (i : Id)
      (x : Search), Leads (start g source config) m →
        m.session.searches.searches[i]? = some x → x.cancelled = true → Leads m m' →
          matchesOf i m'.told = matchesOf i m.told := by
  intro hall
  obtain ⟨x, hx, hc⟩ := Option.map_eq_some_iff.1 cancelled_cancelledInside
  have hsame := hall _ _ _ _ _ 0 x leads_cancelledInside hx hc leads_cancelledAfter
  rw [matchesOf_cancelledInside] at hsame
  exact absurd (List.append_right_eq_self.1 hsame) (List.cons_ne_nil _ _)

/-- He is told of that one and of no other, and then of the end. -/
theorem cancelledInside_for_good : ∃ x,
    cancelledInside.session.searches.searches[0]? = some x ∧ x.cancelled = true ∧
      (∃ later, cancelledAfter.told = cancelledInside.told ++ later ∧
        matchesOf 0 later ++ cancelledAfter.unheard 0 = cancelledInside.unheard 0 ∧
        (cancelledInside.stack = [] ∨ x.delivering = false → matchesOf 0 later = []) ∧
        ∀ r, .done 0 r ∈ later → SaysCancelled x r) ∧
      ∀ d stack, cancelledAfter.stack = .order (.request d) :: stack →
        ∃ k, k ≠ 0 ∧ cancelledAfter.Asks k d := by
  obtain ⟨x, hx, hc⟩ := Option.map_eq_some_iff.1 cancelled_cancelledInside
  exact ⟨x, hx, hc, leads_cancelledInside.cancelled_for_good hx hc leads_cancelledAfter⟩

end Moment

end TripleQuery
