import TripleQuery.Proofs.Searching.Forecast
import TripleQuery.Proofs.Searching.Outcome
import TripleQuery.Proofs.Searching.Sparing
import TripleQuery.Proofs.Searching.Stopped
/-!
# Schedules — a search takes what was foreseen

The course of a search that reaches no documents is settled when it is started.
Whatever spares the search, it stays on this course (`Scene.OnSchedule`): what
it has taken and what is foreseen from there make up the course, until an error
ends it or the limit on matches cuts it short. So at any time the matches that
its caller was told are the first ones of the course, and in the end they are
all of them, unless the limit stopped the search (`Course.Ends`).
-/

namespace TripleQuery

open Std (ExtTreeMap)
open Relation (ReflTransGen)

variable {g : Graph} {t t' : Searches} {os os' rest : List Order} {o : Order} {job : Job}
  {told told' : List Notice} {env : Surroundings} {f : Frame} {x x' : Search} {C : Course}
  {b i k n : Nat} {p : Pattern}

/-- How a search stands that has taken some matches, if some others are foreseen.
-/
inductive Course.Reaches (C : Course) (taken : List Bindings) (ahead : Course) (x : Search) : Prop
  /-- It goes on. -/
  | going : x.stopped = false → x.error = none → x.truncated = false →
      .of taken + ahead = C → Reaches C taken ahead x
  /-- It has met the error at the end of its course. -/
  | failed {e : QueryError} : x.stopped = true → x.error = some e → x.truncated = false →
      C = ⟨taken, some e⟩ → Reaches C taken ahead x
  /-- The limit on matches has stopped it. -/
  | full : x.stopped = true → x.error = none → x.truncated = true →
      x.config.maxMatches ≠ none → taken <+: C.found → Reaches C taken ahead x

/-- How a search ends whose caller was told of some matches. -/
inductive Course.Ends (C : Course) (config : SearchConfig) (found : List Bindings) :
    Except QueryError SearchSummary → Prop
  /-- All matches were found. -/
  | complete : C = .of found → Ends C config found (.ok ⟨found.length, 0, false, false⟩)
  /-- An error was met. -/
  | failed {e : QueryError} : C = ⟨found, some e⟩ → Ends C config found (.error e)
  /-- The limit on matches was reached. -/
  | truncated {sum : SearchSummary} : sum.truncated = true → config.maxMatches ≠ none →
      Ends C config found (.ok sum)

namespace Course

variable {taken : List Bindings}

/-- What was taken are the first matches of the course. -/
theorem Reaches.prefix {ahead : Course} (h : C.Reaches taken ahead x) : taken <+: C.found := by
  cases h with
  | going _ _ _ h => exact prefix_of_add h
  | failed _ _ _ h => rw [h]
  | full _ _ _ _ h => exact h

/-- A search that goes on as it did stands as it did. -/
theorem Reaches.congr {ahead ahead' : Course} (h : C.Reaches taken ahead x) (hx : x.Abides x')
    (ha : x.stopped = false → ahead' = ahead) : C.Reaches taken ahead' x' := by
  cases h with
  | going hs he ht hc =>
    exact .going (by rw [hx.stopped, hs]) (by rw [hx.error, he]) (by rw [hx.truncated, ht])
      (by rw [ha hs, hc])
  | failed hs he ht hc =>
    exact .failed (by rw [hx.stopped, hs]) (by rw [hx.error, he]) (by rw [hx.truncated, ht]) hc
  | full hs he ht hl hp =>
    exact .full (by rw [hx.stopped, hs]) (by rw [hx.error, he]) (by rw [hx.truncated, ht])
      (by rw [hx.config]; exact hl) hp

/-- The first match that is foreseen may be taken. -/
theorem Reaches.take {ahead ahead' : Course} {m : Bindings} (h : C.Reaches taken ahead x)
    (hs : x.stopped = false) (hx : (x.take m).Abides x') (ha : ahead = .of [m] + ahead') :
    C.Reaches (taken ++ [m]) ahead' x' := by
  cases h with
  | going _ he ht hc =>
    have hnext : .of (taken ++ [m]) + ahead' = C := by
      rw [of_append, add_assoc, ← ha, hc]
    have herror : x'.error = none := by rw [hx.error, Search.error_take, he]
    have hstopped := hx.stopped
    have htruncated := hx.truncated
    unfold Search.take at hstopped htruncated
    simp only at hstopped htruncated
    split at hstopped
    · rename_i hfull
      rw [if_pos hfull] at htruncated
      refine .full hstopped herror htruncated (fun hnone => ?_) (prefix_of_add hnext)
      rw [hx.config, Search.config_take] at hnone
      simp [Search.isFull, hnone] at hfull
    · rename_i hnot
      rw [if_neg hnot] at htruncated
      exact .going (hstopped.trans hs) herror (htruncated.trans ht) hnext
  | failed hs' _ _ _ | full hs' _ _ _ _ => simp [hs] at hs'

/-- The error that is foreseen may be met. -/
theorem Reaches.fail {ahead ahead' : Course} {e : QueryError} (h : C.Reaches taken ahead x)
    (hs : x.stopped = false) (hx : (x.fail e).Abides x') (ha : ahead = .failing e) :
    C.Reaches taken ahead' x' := by
  cases h with
  | going _ he ht hc =>
    refine .failed (e := e) hx.stopped ?_ (hx.truncated.trans ht) ?_
    · rw [hx.error, Search.fail, he]
      rfl
    · rw [← hc, ha, of_add]
      simp [failing]
  | failed hs' _ _ _ | full hs' _ _ _ _ => simp [hs] at hs'

/-- A search ends with what it has taken. -/
theorem Reaches.ends (h : C.Reaches taken 0 x) (hm : x.matchCount = taken.length)
    (hf : x.fetches = 0) (hc : x.cancelled = false) : C.Ends x.config taken x.result := by
  cases h with
  | going _ he ht hcourse =>
    rw [add_zero] at hcourse
    rw [Search.result, he, hm, hf, ht, hc]
    exact .complete hcourse.symm
  | failed _ he _ hcourse =>
    rw [Search.result, he]
    exact .failed hcourse
  | full _ he ht hl _ =>
    rw [Search.result, he]
    exact .truncated ht hl

end Course

/-! ## What a job does -/

/-- A search that goes on as it did would end as it would. -/
theorem Search.Abides.result (h : x.Abides x') : x'.result = x.result := by
  simp only [Search.result, h.error, h.matchCount, h.fetches, h.truncated, h.cancelled]

/-- What no job changes of a search that reaches no documents. -/
theorem Outlook.keeps {L L' : Ledger} (h : Outlook g L L' x job x' os) :
    x'.config = x.config ∧ x'.linked = x.linked ∧ x'.fetches = x.fetches ∧
      x'.cancelled = x.cancelled := by
  cases h with
  | same h _ => exact ⟨h.config, h.linked, h.fetches, h.cancelled⟩
  | took _ _ h _ => simp [h.config, h.linked, h.fetches, h.cancelled]
  | failed _ h _ => exact ⟨h.config, h.linked, h.fetches, h.cancelled⟩

/-- Where nothing is foreseen, nothing happens. -/
theorem Outlook.result_of_none {L L' : Ledger} (h : Outlook g L L' x job x' os)
    (hnone : ∀ b, L.branch b = none) : x'.result = x.result := by
  have hquiet : L.carryOut g (fun _ => 0) (.job job) = 0 :=
    Ledger.carryOut_of_none (fun b _ => hnone b) _
  cases h with
  | same h _ => exact h.result
  | took _ _ _ h => cases hquiet.symm.trans (h _)
  | failed _ _ h => cases hquiet.symm.trans (h _)

/-- The ledger of a search whose root branch has gone is empty. -/
theorem Sound.ledger_eq_none (hs : Sound t os) (hgone : i + 1 ∉ t.branches) (b : Nat) :
    (t.ledger i).branch b = none := by
  refine Searches.branch_ledger_of_owner?_ne fun ho => hgone ?_
  obtain ⟨r, hr⟩ := Searches.owner?_eq_some_iff.1 ho
  exact Searches.mem_of_seat? (hs.root_of_seat hr)

/-- **What a job means to a forecast is what it means to the course.** -/
theorem Course.Reaches.outlook {g : Graph} {C : Course} {L L' : Ledger} {job : Job}
    {os : List Order} {x x' : Search} {taken taken' : List Bindings} {k : Ledger → Course}
    (h : C.Reaches taken (L.carryOut g k (.job job)) x) (hout : Outlook g L L' x job x' os)
    (htaken : (taken' = taken ∧ x'.matchCount = x.matchCount) ∨
      ∃ b m ms, job = .report b (m :: ms) ∧ taken' = taken ++ [m] ∧
        x'.matchCount = x.matchCount + 1) :
    C.Reaches taken' (foresee g os k L') x' := by
  cases hout with
  | same hsame hk =>
    have hm := hsame.matchCount
    rcases htaken with ⟨rfl, -⟩ | ⟨b, m, ms, -, -, hm'⟩
    · exact h.congr hsame fun hstop => (hk hstop _).symm
    · omega
  | took hjob hstop htake hk =>
    have hm := htake.matchCount
    rw [Search.matchCount_take] at hm
    rcases htaken with ⟨-, hm'⟩ | ⟨b, m, ms, hjob', rfl, -⟩
    · omega
    · obtain ⟨rfl, rfl, rfl⟩ : _ ∧ _ ∧ _ := by simpa using hjob.symm.trans hjob'
      exact h.take hstop htake (hk _)
  | failed hstop hfail hk =>
    have hm := hfail.matchCount
    rcases htaken with ⟨rfl, -⟩ | ⟨b, m, ms, -, -, hm'⟩
    · exact h.fail hstop hfail (hk _)
    · simp only [Search.fail] at hm
      omega

/-! ## On schedule -/

/-- A search that reaches no documents, on its course. -/
structure Scene.OnSchedule (w : Scene) (i : Nat) (C : Course) (x : Search) : Prop where
  started : w.table.searches[i]? = some x
  unlinked : x.linked = false
  fetches : x.fetches = 0
  cancelled : x.cancelled = false
  /-- No path of it is parked, or about to be. -/
  unparked {n : Nat} {f : Frame} : w.table.parked[n]? = some f → f.search ≠ i
  unasked {f : Frame} {d : String} {asked : Bool} :
    .job (.await f d asked) ∈ w.orders → f.search ≠ i
  reaches : C.Reaches (w.taken i)
    (foresee w.graph w.orders (fun _ => 0) (w.table.ledger i)) x
  counted : x.matchCount = (w.taken i).length
  /-- The end that is told is the end as it is. -/
  ending {r : Except QueryError SearchSummary} :
    r ∈ finishesOf i w.orders ∨ .done i r ∈ w.told → x.finished = true ∧ r = x.result

namespace Scene

variable {w w' : Scene} {config : SearchConfig}

namespace OnSchedule

/-- **Work keeps a search on schedule.** -/
theorem work {state? : Option (String → FetchState)}
    (h : OnSchedule ⟨g, t, .job job :: rest, told⟩ i C x) (hs : Sound t (.job job :: rest))
    (hw : IsFaithful ⟨g, t, .job job :: rest, told⟩) (hl : AllInLine t (.job job :: rest))
    (ht : Transition ⟨g, state?⟩ t job t' os) :
    ∃ x', x'.config = x.config ∧ OnSchedule ⟨g, t', os ++ rest, told⟩ i C x' := by
  have hx : t.searches[i]? = some x := h.started
  obtain ⟨x', hx', hout⟩ := ht.outlook hs hx h.unlinked fun f d asked he =>
    h.unasked (List.mem_cons.2 (.inl (congrArg Order.job he.symm)))
  obtain ⟨x'', hx'', hturn⟩ := ht.turn hs hx
  obtain rfl := Option.some.inj (hx'.symm.trans hx'')
  obtain ⟨hconfig, hlinked, hfetches, hcancelled⟩ := hout.keeps
  have htaken := taken_run hturn hx hx' hl g g told
  refine ⟨x', hconfig, hx', hlinked.trans h.unlinked, hfetches.trans h.fetches,
    hcancelled.trans h.cancelled, fun {n f} hf => ?_, fun {f d asked} ho => ?_, ?_, ?_,
    fun {r} hr => ?_⟩
  · rcases ht.parked_cases hf with hf | ⟨f', d, asked, rfl, rfl⟩
    · exact h.unparked hf
    · exact h.unasked (f := f') List.mem_cons_self
  · rcases List.mem_append.1 ho with ho | ho
    · rintro rfl
      obtain ⟨z, hz, hd⟩ := ht.nextFetch_of_await ho
      obtain rfl := Option.some.inj (hz.symm.trans hx)
      simp [Search.nextFetch, h.unlinked] at hd
    · exact h.unasked (List.mem_cons_of_mem _ ho)
  · change C.Reaches _ (foresee g (os ++ rest) (fun _ => 0) (t'.ledger i)) x'
    rw [foresee_append]
    exact Course.Reaches.outlook h.reaches hout htaken
  · have hcount : x.matchCount = (Scene.taken ⟨g, t, .job job :: rest, told⟩ i).length := h.counted
    rcases htaken with ⟨heq, hm⟩ | ⟨b, m, ms, -, heq, hm⟩
    · rw [heq, hm, hcount]
    · rw [heq, hm, hcount, List.length_append, List.length_singleton]
  · simp only [finishesOf_append, List.mem_append, or_assoc] at hr
    -- an end that was told before is still the end
    have hold : r ∈ finishesOf i rest ∨ .done i r ∈ told → x'.finished = true ∧ r = x'.result := by
      intro hr
      obtain ⟨hfin, hresult⟩ := h.ending (r := r) (by rwa [finishesOf_cons])
      have hnone := Sound.ledger_eq_none hs ((hw.paced hx).gone hfin)
      rw [hresult, hout.result_of_none hnone]
      rcases hturn.delivers.2 with ⟨-, hf⟩ | ⟨-, rfl, -⟩
      · exact ⟨hf.trans hfin, rfl⟩
      · exact ⟨rfl, rfl⟩
    rcases hr with hr | hr
    · rcases hturn.delivers.2 with ⟨hnil, -⟩ | ⟨hone, rfl, -⟩
      · rw [hnil] at hr
        cases hr
      · rw [hone, List.mem_singleton] at hr
        exact ⟨rfl, hr⟩
    · exact hold hr

/-- An order for somebody else may be handed over. -/
theorem handOver (h : OnSchedule ⟨g, t, o :: rest, told⟩ i C x) (hs : Sound t (o :: rest))
    (hl : AllInLine t (o :: rest)) (ho : ∀ job, o ≠ .job job) :
    OnSchedule ⟨g, t, rest, told ++ o.notices⟩ i C x := by
  have hx : t.searches[i]? = some x := h.started
  have htaken : taken ⟨g, t, rest, told ++ o.notices⟩ i = taken ⟨g, t, o :: rest, told⟩ i := by
    rcases Step.taken (.handOver ho) hs hl hx hx with ⟨heq, -⟩ | ⟨-, -, -, -, -, -, hm⟩
    · exact heq
    · omega
  have hquiet : (t.ledger i).carryOut g (foresee g rest fun _ => 0) o =
      foresee g rest (fun _ => 0) (t.ledger i) := by
    refine Ledger.carryOut_of_none (fun b hb => ?_) _
    cases o with
    | job job => exact absurd rfl (ho job)
    | _ => cases hb
  refine ⟨hx, h.unlinked, h.fetches, h.cancelled, h.unparked,
    fun ho => h.unasked (List.mem_cons_of_mem _ ho), ?_, ?_, fun {r} hr => h.ending ?_⟩
  · rw [htaken]
    exact h.reaches.congr (.refl x) fun _ => hquiet.symm
  · rw [htaken]
    exact h.counted
  · rcases hr with hr | hr
    · refine .inl ?_
      change r ∈ finishesOf i (o :: rest)
      rw [finishesOf_cons]
      exact List.mem_append_right _ hr
    · rcases List.mem_append.1 hr with hr | hr
      · exact .inr hr
      · exact .inl (mem_finishesOf_of_notices hr)

/-- What leaves the search and its forecast as they are keeps it on schedule. -/
theorem aside (h : OnSchedule ⟨g, t, os, told⟩ i C x)
    (hx : t'.searches[i]? = t.searches[i]?)
    (hparked : ∀ (n : Nat) (f : Frame), t'.parked[n]? = some f → t.parked[n]? = some f)
    (hasked : ∀ (f : Frame) d asked, .job (.await f d asked) ∈ os' → f.search = i →
      .job (.await f d asked) ∈ os)
    (htaken : taken ⟨g, t', os', told'⟩ i = taken ⟨g, t, os, told⟩ i)
    (hahead : foresee g os' (fun _ => 0) (t'.ledger i) = foresee g os (fun _ => 0) (t.ledger i))
    (hfin : finishesOf i os' = finishesOf i os)
    (hdone : ∀ r, .done i r ∈ told' → .done i r ∈ told) :
    OnSchedule ⟨g, t', os', told'⟩ i C x := by
  refine ⟨hx.trans h.started, h.unlinked, h.fetches, h.cancelled,
    fun hf => h.unparked (hparked _ _ hf), fun {f d asked} ho hi => ?_, ?_, ?_,
    fun {r} hr => h.ending ?_⟩
  · exact h.unasked (hasked f d asked ho hi) hi
  · rw [htaken]
    exact h.reaches.congr (.refl x) fun _ => hahead
  · rw [htaken]
    exact h.counted
  · exact hr.imp (fun hr => hfin ▸ hr) (hdone r)

/-- Another search may be changed. -/
theorem update (h : OnSchedule ⟨g, t, os, told⟩ i C x) (hk : k ≠ i) {change : Search → Search}
    (hq : ∀ x, (change x).queue = x.queue) : OnSchedule ⟨g, t.update k change, os, told⟩ i C x := by
  have hb : (t.update k change).branches = t.branches ∧
      (t.update k change).junctions = t.junctions ∧ (t.update k change).parked = t.parked := by
    unfold Searches.update
    split <;> exact ⟨rfl, rfl, rfl⟩
  obtain ⟨hb, hj, hp⟩ := hb
  refine h.aside ?_ (fun n f hf => by rwa [hp] at hf) (fun _ _ _ ho _ => ho) ?_ ?_ rfl
    fun _ hr => hr
  · unfold Searches.update
    split
    · rfl
    · rw [ExtTreeMap.getElem?_insert, if_neg (by simpa using hk)]
  · simp only [Scene.taken]
    rw [queueOf_update _ _ _ hq]
  · rw [Searches.ledger_congr hb hj]

/-- A path of another search may be resumed or given up. -/
theorem takeParked (h : OnSchedule ⟨g, t, os, told⟩ i C x) (hs : Sound t os)
    (hf : t.parked[n]? = some f) (hi : f.search ≠ i) (ho : o = .job (.step f) ∨
      o = .job (.release f.branch)) :
    OnSchedule ⟨g, { t with parked := t.parked.erase n }, o :: os, told⟩ i C x := by
  have hnone : (t.ledger i).branch f.branch = none := by
    obtain ⟨r, hr⟩ := hs.parked hf
    refine Searches.branch_ledger_of_owner?_ne fun ho => hi ?_
    obtain ⟨r', hr'⟩ := Searches.owner?_eq_some_iff.1 ho
    rw [hr] at hr'
    exact congrArg Prod.fst (Option.some.inj hr')
  refine h.aside rfl (fun n f hf => of_getElem?_erase hf) (fun f' d asked ho' _ => ?_) ?_ ?_ ?_
    fun _ hr => hr
  · rcases List.mem_cons.1 ho' with rfl | ho'
    · simp at ho
    · exact ho'
  · simp only [Scene.taken, deliveriesOf_cons]
    rcases ho with rfl | rfl <;> rfl
  · have hsame : Searches.ledger { t with parked := t.parked.erase n } i = t.ledger i :=
      Searches.ledger_congr rfl rfl
    rw [hsame, foresee_cons]
    refine Ledger.carryOut_of_none (fun b hb => ?_) _
    rcases ho with rfl | rfl <;> cases hb <;> exact hnone
  · rw [finishesOf_cons]
    rcases ho with rfl | rfl <;> rfl

/-- Another search may be started. -/
theorem launch (h : OnSchedule ⟨g, t, os, told⟩ i C x) (hs : Sound t os) (config : SearchConfig)
    (linked : Bool) (p : Pattern) :
    OnSchedule ⟨g, (t.launch config linked p).1, .job (t.launch config linked p).2.2 :: os,
      told ++ [.started t.next p]⟩ i C x := by
  have hl := hs.layout
  have hne : t.next ≠ i := by
    rintro rfl
    exact hl.next_not_mem_searches (mem_of_getElem? h.started)
  have hsearch : (t.launch config linked p).1.searches[i]? = t.searches[i]? := by
    change (t.searches.insert t.next _)[i]? = _
    rw [ExtTreeMap.getElem?_insert, if_neg (by simpa using hne)]
  have hledger : (t.launch config linked p).1.ledger i = t.ledger i :=
    Searches.ledger_launch hs config linked p hne.symm
  have hnone : (t.ledger i).branch (t.next + 1) = none :=
    Searches.branch_ledger_of_not_mem (hl.not_mem_branches (Nat.le_succ _))
  refine h.aside hsearch (fun _ _ hf => hf) (fun f d asked ho _ => ?_) ?_ ?_ ?_ fun r hr => ?_
  · simpa [Searches.launch] using ho
  · simp only [Scene.taken, matchesOf_append, deliveriesOf_cons, Searches.queueOf, hsearch]
    simp [matchesOf, Notice.match?, Order.delivery?]
  · rw [hledger, foresee_cons]
    refine Ledger.carryOut_of_none (fun b hb => ?_) _
    cases hb
    exact hnone
  · rw [finishesOf_cons]
    rfl
  · simpa using hr

/-- A path of another search may come to wait. -/
theorem suspend (h : OnSchedule ⟨g, t, .job (.step f) :: os, told⟩ i C x)
    (hs : Sound t (.job (.step f) :: os)) (hi : f.search ≠ i) (env : Surroundings) (d : String) :
    OnSchedule ⟨g, (t.suspend env f d).1, (t.suspend env f d).2 ++ os, told⟩ i C x := by
  obtain ⟨ht, ho⟩ := t.suspend_cases env f d
  have hnone : (t.ledger i).branch f.branch = none := by
    obtain ⟨r, hr⟩ : t.Seats f := hs.seated List.mem_cons_self rfl
    refine Searches.branch_ledger_of_owner?_ne fun ho => hi ?_
    obtain ⟨r', hr'⟩ := Searches.owner?_eq_some_iff.1 ho
    rw [hr] at hr'
    exact congrArg Prod.fst (Option.some.inj hr')
  rw [ht]
  refine h.aside rfl (fun _ _ hf => hf) (fun f' d' asked ho' hi' => ?_) ?_ ?_ ?_ fun _ hr => hr
  · rcases List.mem_append.1 ho' with ho' | ho'
    · rcases ho with ho | ho
      · obtain ⟨rfl, -⟩ : f' = f ∧ _ := by simpa [ho] using ho'
        exact absurd hi' hi
      · obtain ⟨rfl, -⟩ : f' = f ∧ _ := by simpa [ho] using ho'
        exact absurd hi' hi
    · exact List.mem_cons_of_mem _ ho'
  · simp only [Scene.taken, deliveriesOf_append, deliveriesOf_cons]
    rcases ho with ho | ho <;> rw [ho] <;> rfl
  · have hstep : (t.ledger i).carryOut g (foresee g os fun _ => 0) (.job (.step f)) =
        foresee g os (fun _ => 0) (t.ledger i) :=
      Ledger.carryOut_of_none (fun b hb => by cases hb; exact hnone) _
    rw [foresee_cons, hstep, foresee_append]
    refine foresee_of_ignores (fun o ho' b hb => ?_) _
    rcases ho with ho | ho <;> rw [ho] at ho' <;>
      simp only [List.mem_cons, List.not_mem_nil, or_false] at ho'
    · rcases ho' with rfl | rfl | rfl | rfl <;> cases hb
    · rcases ho' with rfl | rfl | rfl <;> cases hb
  · rw [finishesOf_append, finishesOf_cons]
    rcases ho with ho | ho <;> rw [ho] <;> rfl

end OnSchedule

/-- **What spares a search keeps it on schedule.** -/
theorem Spares.onSchedule (h : Spares i w w') (hw : w.InOrder) (hl : AllInLine w.table w.orders)
    (hc : OnSchedule w i C x) : ∃ x', x'.config = x.config ∧ OnSchedule w' i C x' := by
  cases h with
  | proceed h =>
    cases h with
    | work state? => exact hc.work hw.sound hw.faithful hl (Sound.transition hw.sound _)
    | handOver ho => exact ⟨x, rfl, hc.handOver hw.sound hl ho⟩
    | @recheck g t f os told z d state? state'? hz _ hd =>
      refine ⟨x, rfl, hc.suspend hw.sound ?_ _ d⟩
      rintro rfl
      -- a search without a source of documents has none to wait for
      obtain rfl := Option.some.inj (hz.symm.trans hc.started)
      simp [Search.nextFetch, hc.unlinked] at hd
    | @resume g t os told ticket hmem =>
      obtain ⟨f, hf⟩ := exists_getElem? hmem
      refine ⟨x, rfl, ?_⟩
      simp only [Searches.resume, hf]
      exact hc.takeParked hw.sound hf (hc.unparked hf) (.inl rfl)
  | launch config linked _ => exact ⟨x, rfl, hc.launch hw.sound config linked _⟩
  | stop hk => exact ⟨x, rfl, hc.update hk fun _ => rfl⟩
  | cancel hk => exact ⟨x, rfl, hc.update hk fun _ => rfl⟩
  | @discard g t os told ticket hother =>
    refine ⟨x, rfl, ?_⟩
    unfold Searches.discard
    cases hf : t.parked[ticket]? with
    | none => exact hc
    | some f => exact hc.takeParked hw.sound hf (hother f hf) (.inr rfl)

/-- **A search that reaches no documents starts on its course.** -/
theorem onSchedule_launch (hs : Sound t os) (hw : IsFaithful ⟨g, t, os, told⟩)
    (config : SearchConfig) (p : Pattern) :
    OnSchedule ⟨g, (t.launch config false p).1, .job (t.launch config false p).2.2 :: os,
        told ++ [.started t.next p]⟩
      t.next (TripleQuery.course g ∅ p p.initial) { config := config, linked := false } := by
  have hl := hs.layout
  have hnew := hl.next_not_mem_searches
  obtain ⟨-, hfin⟩ := hw.unheard hnew
  have howned : ∀ b, t.owner? b ≠ some t.next := fun b hb => by
    obtain ⟨r, hr⟩ := Searches.owner?_eq_some_iff.1 hb
    exact hnew (hl.launched hr)
  have htaken : taken ⟨g, (t.launch config false p).1, .job (t.launch config false p).2.2 :: os,
      told ++ [.started t.next p]⟩ t.next = [] := taken_launch hs hw config false p
  have hroot : ((t.launch config false p).1.ledger t.next).branch (t.next + 1) =
      some { search := t.next, role := .root } :=
    Searches.branch_ledger (by simp [Searches.launch]) rfl
  -- once the root branch has gone, nothing is left
  have hclosed : ∀ b, (((t.launch config false p).1.ledger t.next).close (t.next + 1)).branch b =
      none := fun b => by
    simp only [Ledger.close, Function.update_apply]
    split
    · rfl
    · rename_i hb
      refine Searches.branch_ledger_of_owner?_ne fun ho => howned b ?_
      rw [Searches.owner?, Sound.seat?_launch, if_neg (Ne.symm hb)] at ho
      exact ho
  have hahead : foresee g (.job (t.launch config false p).2.2 :: os) (fun _ => 0)
      ((t.launch config false p).1.ledger t.next) = TripleQuery.course g ∅ p p.initial := by
    rw [foresee_cons]
    refine (Ledger.carryOut_enter g _ _ _ _ ∅ p p.initial []).trans ?_
    rw [Ledger.add_of_root hroot rfl, Ledger.release_of_root hroot (Nat.le_refl 1) rfl,
      foresee_of_ignores fun _ _ b _ => hclosed b, add_zero]
  refine ⟨by simp [Searches.launch], rfl, rfl, rfl, fun {n f} hf => ?_, fun {f d asked} ho => ?_,
    ?_, ?_, fun {r} hr => ?_⟩
  · rintro hi
    obtain ⟨r, hr⟩ := hs.parked hf
    exact hnew (hi ▸ hl.launched hr)
  · rintro hi
    obtain ⟨r, hr⟩ : t.Seats f :=
      hs.seated ((List.mem_cons.1 ho).resolve_left (by simp [Searches.launch])) rfl
    exact hnew (hi ▸ hl.launched hr)
  · rw [htaken]
    exact .going rfl rfl rfl ((zero_add _).trans hahead)
  · rw [htaken]
    rfl
  · exfalso
    rcases hr with hr | hr
    · rw [finishesOf_cons, show finishesOf t.next os = [] from hfin] at hr
      cases hr
    · have htold : .done t.next r ∈ told := by simpa using hr
      exact hs.layout.next_not_mem_searches (hw.mem_of_told htold)

/-- **When the end of a search was told**, so was every match that it has taken,
and nothing is foreseen any more. -/
theorem OnSchedule.settled (h : OnSchedule w i C x) (hw : w.InOrder)
    {r : Except QueryError SearchSummary} (hr : .done i r ∈ w.told) :
    r = x.result ∧ C.Reaches (matchesOf i w.told) 0 x ∧
      x.matchCount = (matchesOf i w.told).length := by
  obtain ⟨hfin, hresult⟩ := h.ending (.inr hr)
  have hp := hw.faithful.paced h.started
  have hgone : i + 1 ∉ w.table.branches := hp.gone hfin
  -- nothing is queued or about to be told any more
  have hqueue : x.queue = [] := by
    by_contra hq
    exact Sound.tells?_ne hw.sound hgone (hp.draining (hp.queued hq)) rfl
  have htaken : w.taken i = matchesOf i w.told := by
    rw [Scene.taken, Sound.deliveriesOf_eq_nil hw.sound hgone,
      Searches.queueOf_of_getElem? h.started, hqueue, List.append_nil, List.append_nil]
  have hreach := h.reaches
  have hcount := h.counted
  rw [foresee_of_ignores fun _ _ b _ => Sound.ledger_eq_none hw.sound hgone b, htaken] at hreach
  rw [htaken] at hcount
  exact ⟨hresult, hreach, hcount⟩

/-- **The caller of a search on schedule is told of the first matches of its
course**, and in the end how it ends. -/
theorem OnSchedule.tells (h : OnSchedule w i C x) (hw : w.InOrder) :
    matchesOf i w.told <+: C.found ∧
      ∀ r, .done i r ∈ w.told → C.Ends x.config (matchesOf i w.told) r := by
  refine ⟨(List.prefix_append _ _).trans h.reaches.prefix, fun r hr => ?_⟩
  obtain ⟨rfl, hreach, hcount⟩ := h.settled hw hr
  exact hreach.ends hcount h.fetches h.cancelled

end Scene

namespace Course

variable {found found' : List Bindings} {config config' : SearchConfig}
  {result result' : Except QueryError SearchSummary}

/-- **A search that is not cut short finds all that any other finds**, and ends
as a search without a limit does. -/
theorem Ends.unique (h : C.Ends config found result)
    (hcut : ∀ sum, result = .ok sum → sum.truncated = false)
    (h' : C.Ends config' found' result') (hlimit : config'.maxMatches = none) :
    found = found' ∧ result = result' := by
  cases h with
  | complete hc =>
    cases h' with
    | complete hc' =>
      obtain rfl : found = found' := congrArg Course.found (hc.symm.trans hc')
      exact ⟨rfl, rfl⟩
    | failed hc' => cases hc.symm.trans hc'
    | truncated _ hl => exact absurd hlimit hl
  | failed hc =>
    cases h' with
    | complete hc' => cases hc.symm.trans hc'
    | failed hc' =>
      cases hc.symm.trans hc'
      exact ⟨rfl, rfl⟩
    | truncated _ hl => exact absurd hlimit hl
  | truncated ht _ =>
    rw [hcut _ rfl] at ht
    cases ht

/-- A search without a limit is told its whole course. -/
theorem Ends.found_eq (h : C.Ends config found result) (hlimit : config.maxMatches = none) :
    found = C.found := by
  cases h with
  | complete hc => rw [hc, found_of]
  | failed hc => rw [hc]
  | truncated _ hl => exact absurd hlimit hl

end Course

end TripleQuery
