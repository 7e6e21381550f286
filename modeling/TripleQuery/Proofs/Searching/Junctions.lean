import Mathlib.Algebra.BigOperators.Group.List.Basic
import Mathlib.Algebra.Order.BigOperators.GroupWithZero.List
import Mathlib.Algebra.Order.Ring.Nat
import TripleQuery.Proofs.Joining.Siblings
import TripleQuery.Proofs.Searching.Chronicle
/-!
# Junctions — what they report, and when

A junction reports nothing while a clause of it is at work. When the last one is
complete, every way to choose one result of each clause is to be reported, put
together with the trunk, the first clause varying slowest
(`Chronicle.product`). From then on this is what the junction has reported and
is still to report, as long as its search goes on; it has reported the first of
it in any case, and never anything else (`Chronicle.Reported`). It does not
matter when the clauses were complete, and in which order: what is reported is
settled by what was reported to the branch of each.
-/

namespace TripleQuery

open Std (ExtTreeMap)
open Relation (ReflTransGen)

variable {t t' : Searches} {os : List Order} {job : Job} {env : Surroundings}
  {mark : Option Id} {b i j k n : Nat} {y : Branch} {jn jn' : Junction} {x : Search}
  {trunk : Bindings} {rss : List (List Bindings)}

/-! ## Combinations -/

/-- All ways to choose one element of each list, the first list varying slowest.
-/
def selections {α : Type} : List (List α) → List (List α)
  | [] => [[]]
  | as :: rest => as.flatMap fun a => (selections rest).map (a :: ·)

theorem length_selections {α : Type} (l : List (List α)) :
    (selections l).length = (l.map List.length).prod := by
  induction l with
  | nil => rfl
  | cons as rest ih =>
    simp [selections, List.length_flatMap, ih, List.map_const']

/-- **A junction combines every choice of results with its trunk**, in their
order. -/
theorem Junction.combine_eq_map_selections (trunk : Bindings) (rss : List (List Bindings)) :
    combine trunk rss = (selections rss).map trunk.joined := by
  induction rss generalizing trunk with
  | nil => rfl
  | cons rs rss ih =>
    rw [combine_cons, selections, List.map_flatMap]
    refine List.flatMap_congr fun r _ => ?_
    rw [ih, List.map_map]
    rfl

/-! ## What jobs do -/

/-- Who reports goes on with the other matches; a stopped search takes none. -/
theorem Transition.report_cases {ms : List Bindings} (h : Transition env t (.report b ms) t' os) :
    ms = [] ∧ os = [] ∨ ∃ m rest y x, ms = m :: rest ∧ t.branches[b]? = some y ∧
      t.searches[y.search]? = some x ∧ (x.stopped = true → t' = t) ∧
      aheadIn (os.map fun o => (o, t.behalf (.report b ms) (some j) o)) j = rest := by
  have hgoes : ∀ {x : Search}, x.stopped = false → x.stopped = true → t' = t := by
    intro x hs hs'
    rw [hs] at hs'
    cases hs'
  cases h with
  | reported => exact .inl ⟨rfl, rfl⟩
  | refused hy hx hs =>
    exact .inr ⟨_, _, _, _, rfl, hy, hx, fun _ => rfl,
      by simp [aheadIn, Searches.behalf, Order.reported]⟩
  | kept hy hx hs _ | queued hy hx hs _ _ | announced hy hx hs _ _ =>
    exact .inr ⟨_, _, _, _, rfl, hy, hx, hgoes hs,
      by simp [aheadIn, Searches.behalf, Order.reported]⟩

/-- **A junction stays until its last clause is complete.** -/
theorem Transition.junction_stays (hl : Layout t) (h : Transition env t job t' os)
    (hj : t.junctions[j]? = some jn) :
    (∃ jn', t'.junctions[j]? = some jn' ∧ jn'.trunk = jn.trunk ∧ jn'.parent = jn.parent ∧
      jn'.slots.length = jn.slots.length) ∨
    ∃ b rss, job = .release b ∧ t.Completes b j jn rss t' ∧
      os = [.job (.report jn.parent (Junction.combine jn.trunk rss)),
        .job (.release jn.parent)] := by
  cases h with
  | split _ _ _ _ _ =>
    have hne : t.next ≠ j := fun he => hl.next_not_mem_junctions (he ▸ mem_of_getElem? hj)
    refine .inl ⟨jn, ?_, rfl, rfl, rfl⟩
    rw [Searches.getElem?_junctions_split, if_neg hne]
    exact hj
  | @filled c y j' slot jn' hy _ hr hj' _ =>
    by_cases hjj : j' = j
    · subst hjj
      obtain rfl := Option.some.inj (hj'.symm.trans hj)
      exact .inl ⟨_, ExtTreeMap.getElem?_insert_self, rfl, rfl, List.length_set⟩
    · refine .inl ⟨jn, ?_, rfl, rfl, rfl⟩
      rw [ExtTreeMap.getElem?_insert, if_neg (by simpa using hjj)]
      exact hj
  | @combined c y j' slot jn' combos hy _ hr hj' hc =>
    by_cases hjj : j' = j
    · subst hjj
      obtain rfl := Option.some.inj (hj'.symm.trans hj)
      obtain ⟨rss, hslots, rfl⟩ := Junction.combinations?_eq_some_iff.1 hc
      exact .inr ⟨c, rss, rfl, ⟨hj, ⟨y, slot, hy, hr, hslots⟩, rfl, rfl⟩, rfl⟩
    · refine .inl ⟨jn, ?_, rfl, rfl, rfl⟩
      rw [ExtTreeMap.getElem?_erase, if_neg (by simpa using hjj)]
      exact hj
  | _ => exact .inl ⟨jn, hj, rfl, rfl, rfl⟩

/-- Nobody has stopped a search. -/
def Searches.GoesOn (t : Searches) (i : Id) : Prop :=
  ∀ x : Search, t.searches[i]? = some x → x.stopped = false

namespace Chronicle

variable {c c' : Chronicle}

/-! ## The product -/

/-- What a junction is to report, by what was reported to its clauses: its trunk
with one result of each, the first clause varying slowest. -/
def product (c : Chronicle) (j : Id) (jn : Junction) : List Bindings :=
  (selections ((List.range jn.slots.length).map fun n => c.resultsOf (j + 1 + n))).map
    jn.trunk.joined

theorem length_resultsOf (c : Chronicle) (b : Id) :
    (c.resultsOf b).length = max 1 (c.reportedTo b).length := by
  unfold resultsOf
  cases c.reportedTo b with
  | nil => rfl
  | cons r rs => simp

/-- **Every clause multiplies what is reported by the number of its results, or
by one.** -/
theorem length_product (c : Chronicle) (j : Id) (jn : Junction) :
    (c.product j jn).length =
      ((List.range jn.slots.length).map fun n =>
        max 1 (c.reportedTo (j + 1 + n)).length).prod := by
  rw [product, List.length_map, length_selections, List.map_map]
  exact congrArg List.prod (List.map_congr_left fun n _ => c.length_resultsOf _)

/-- **Something is reported for every trunk.** -/
theorem product_ne_nil (c : Chronicle) (j : Id) (jn : Junction) : c.product j jn ≠ [] := by
  refine List.ne_nil_of_length_pos ?_
  rw [length_product]
  refine List.prod_pos fun a ha => ?_
  obtain ⟨n, -, rfl⟩ := List.mem_map.1 ha
  exact Nat.lt_of_lt_of_le Nat.one_pos (Nat.le_max_left _ _)

/-- It is settled by what was reported to the clauses. -/
theorem product_congr
    (h : ∀ n < jn.slots.length, c'.reportedTo (j + 1 + n) = c.reportedTo (j + 1 + n)) :
    c'.product j jn = c.product j jn := by
  have hresults : (List.range jn.slots.length).map (fun n => c'.resultsOf (j + 1 + n)) =
      (List.range jn.slots.length).map fun n => c.resultsOf (j + 1 + n) :=
    List.map_congr_left fun n hn => resultsOf_congr (h n (List.mem_range.1 hn))
  rw [product, product, hresults]

/-- When the last clause is complete, the branch of every clause was gone but
its own, and what is combined is the product. -/
theorem IsTrue.completes (h : c.IsTrue) (hc : c.table.Completes b j jn rss t') :
    Junction.combine jn.trunk rss = c.product j jn ∧
      ∃ slot < jn.slots.length, b = j + 1 + slot ∧ b ∈ c.table.branches ∧
        ∀ n < jn.slots.length, n ≠ slot → j + 1 + n ∉ c.table.branches := by
  obtain ⟨y, slot, hy, hr, hslots⟩ := hc.branch
  obtain ⟨hb, hopen, -⟩ := h.inOrder.sound.layout.waits_for hy hr hc.there
  obtain ⟨hslot, -⟩ := List.getElem?_eq_some_iff.1 hopen
  have hlen : rss.length = jn.slots.length := by
    rw [← List.length_map some, ← hslots]
    exact List.length_set
  have hfilled : ∀ n < jn.slots.length, n ≠ slot →
      ∃ rs, rss[n]? = some rs ∧ jn.slots[n]? = some (some rs) := by
    intro n hn hne
    have hrs := List.getElem?_eq_getElem (hlen ▸ hn : n < rss.length)
    refine ⟨_, hrs, ?_⟩
    rw [← Junction.getElem?_fill_of_ne (Ne.symm hne) y.results, hslots, List.getElem?_map, hrs]
    rfl
  refine ⟨?_, slot, hslot, hb, mem_of_getElem? hy, fun n hn hne => ?_⟩
  · have hresults : rss = (List.range jn.slots.length).map fun n => c.resultsOf (j + 1 + n) := by
      refine List.ext_getElem? fun n => ?_
      by_cases hn : n < jn.slots.length
      · rw [List.getElem?_map, List.getElem?_range hn, Option.map_some]
        by_cases hne : n = slot
        · subst hne
          have hown : (jn.fill n y.results).slots[n]? = some (some y.results) :=
            List.getElem?_set_self hslot
          rw [hslots, List.getElem?_map, Option.map_eq_some_iff] at hown
          obtain ⟨rs, hrs, he⟩ := hown
          rw [hrs, Option.some.inj he, h.results hy hr, hb]
        · obtain ⟨rs, hrs, hslot⟩ := hfilled n hn hne
          rw [hrs, (h.filled hc.there hslot).1]
      · rw [List.getElem?_eq_none (by omega), List.getElem?_eq_none (by simpa using hn)]
    rw [Junction.combine_eq_map_selections, product, ← hresults]
  · obtain ⟨rs, -, hslot⟩ := hfilled n hn hne
    exact (h.filled hc.there hslot).2

/-! ## What becomes of a junction -/

/-- A junction of search `i` is there: some clause of it is at work. -/
structure Waits (c : Chronicle) (j : Nat) (jn : Junction) (i : Nat) : Prop where
  there : ∃ jn', c.table.junctions[j]? = some jn' ∧ jn'.trunk = jn.trunk ∧
    jn'.parent = jn.parent ∧ jn'.slots.length = jn.slots.length
  parent {k : Nat} {r : BranchRole} : c.table.seat? jn.parent = some (k, r) → k = i

/-- All clauses of a junction of search `i` are complete. What was to be
reported is being reported. -/
structure Reported (c : Chronicle) (j : Nat) (jn : Junction) (i : Nat) : Prop where
  gone : j < c.table.next ∧ j ∉ c.table.junctions
  complete {n : Nat} : n < jn.slots.length →
    j + 1 + n < c.table.next ∧ j + 1 + n ∉ c.table.branches
  parent_lt : jn.parent < c.table.next
  parent {k : Nat} {r : BranchRole} : c.table.seat? jn.parent = some (k, r) → k = i
  /-- It is reported to the branch that had matched the trunk. -/
  orders {o : Order} : (o, some j) ∈ c.orders → ∃ ms, o = .job (.report jn.parent ms)
  entries {e : Entry} : e ∈ c.log → e.behalf = some j → e.branch = jn.parent
  /-- Nothing else is ever reported. -/
  heard : c.heardFrom j <+: c.product j jn
  /-- Nothing is left out unless the search is stopped. -/
  all : c.table.GoesOn i → c.heardFrom j ++ c.aheadOf j = c.product j jn

/-- A junction that is there has reported nothing. -/
theorem IsTrue.unheard (h : c.IsTrue) (hj : j ∈ c.table.junctions) :
    c.heardFrom j = [] ∧ c.aheadOf j = [] := by
  refine ⟨heardIn_eq_nil fun e he hbehalf => ?_, aheadIn_eq_nil fun o ho => ?_⟩
  · exact absurd hj (h.heard he hbehalf).2
  · exact absurd hj (h.marked ho).2

/-- A search that goes on went on before. -/
theorem Records.goesOn (h : Records c c') (hs : c.scene.IsSound) (hgoes : c'.table.GoesOn i) :
    c.table.GoesOn i := by
  intro x hx
  cases hstopped : x.stopped with
  | false => rfl
  | true =>
    obtain ⟨z, hz, hhalts⟩ := h.step.halts hs hx hstopped
    have hfalse := hgoes z hz
    rw [hhalts.stopped] at hfalse
    cases hfalse

/-- What is done on behalf of no junction, or of another one, is nothing that a
junction reports that is gone. -/
theorem Works.heard_of_ne {rest : List (Order × Option Id)}
    (h : c.Works c' env job mark os rest) (hj : j ∉ c.table.junctions) (hmark : mark ≠ some j) :
    c'.heardFrom j = c.heardFrom j ∧ c'.aheadOf j = c.aheadOf j := by
  have hentries : heardIn (c.table.entries job mark) j = [] :=
    heardIn_eq_nil fun e he hbehalf =>
      hmark ((Searches.mem_entries he).1.symm.trans hbehalf)
  have hnew : aheadIn (os.map fun o => (o, c.table.behalf job mark o)) j = [] := by
    refine aheadIn_eq_nil fun o ho => ?_
    obtain ⟨o', ho', he⟩ := List.mem_map.1 ho
    obtain ⟨rfl, hbehalf⟩ := Prod.mk.inj he
    rcases h.transition.behalf_cases ho' hbehalf with ⟨-, -, -, -, -, hm⟩ |
      ⟨b, jn, rss, -, hcompletes, -⟩
    · exact absurd hm hmark
    · exact absurd (mem_of_getElem? hcompletes.there) hj
  refine ⟨?_, ?_⟩
  · rw [heardFrom, h.log, heardIn_append, hentries, List.append_nil]
    rfl
  · rw [aheadOf, h.orders', aheadIn_append, hnew, aheadOf, h.orders, aheadIn_cons, if_neg hmark]

/-- **Who reports for a junction goes on with its combinations** while the search
goes on, and reports nothing any more once it is stopped. -/
theorem Reported.works {rest : List (Order × Option Id)} (h : c.Reported j jn i)
    (hw : c.Works c' env job (some j) os rest) :
    (∃ x, c.table.searches[i]? = some x ∧ x.stopped = true ∧ c'.table = c.table ∧
      c'.heardFrom j = c.heardFrom j) ∨
    c'.heardFrom j ++ c'.aheadOf j = c.heardFrom j ++ c.aheadOf j ∧
      (c'.heardFrom j = c.heardFrom j ∨ ∃ x, c.table.searches[i]? = some x ∧
        x.stopped = false) := by
  obtain ⟨ms, hjob⟩ := h.orders (o := .job job) (by rw [hw.orders]; exact List.mem_cons_self)
  obtain rfl : job = .report jn.parent ms := Order.job.inj hjob
  have hheard : c'.heardFrom j =
      c.heardFrom j ++ heardIn (c.table.entries (.report jn.parent ms) (some j)) j := by
    rw [heardFrom, hw.log, heardIn_append]
    rfl
  have hold : c.aheadOf j = ms ++ aheadIn rest j := by
    rw [aheadOf, hw.orders, aheadIn_cons, if_pos rfl]
    rfl
  have hnew : c'.aheadOf j =
      aheadIn (os.map fun o => (o, c.table.behalf (.report jn.parent ms) (some j) o)) j ++
        aheadIn rest j := by
    rw [aheadOf, hw.orders', aheadIn_append]
  rcases hw.transition.report_cases (j := j) with ⟨rfl, rfl⟩ | ⟨m, ms, y, x, rfl, hy, hx, hstop, ha⟩
  · have hsame : c'.heardFrom j = c.heardFrom j := hheard.trans (List.append_nil _)
    exact .inr ⟨by rw [hsame, hold, hnew]; rfl, .inl hsame⟩
  rw [ha] at hnew
  obtain rfl := h.parent (Searches.seat?_of_getElem? hy)
  cases hs : x.stopped with
  | true =>
    rw [Searches.entries_refused hy hx hs] at hheard
    exact .inl ⟨x, hx, hs, hstop hs, hheard.trans (List.append_nil _)⟩
  | false =>
    rw [Searches.entries_report hy hx hs] at hheard
    refine .inr ⟨?_, .inr ⟨x, hx, hs⟩⟩
    rw [hheard, hnew, hold]
    simp [heardIn]

/-- What is reported for a junction is reported to the branch that had matched
its trunk. -/
theorem Reported.orders_records (h : c.Reported j jn i) (hs : c.scene.IsSound)
    (hc : Records c c') {o : Order} (ho : (o, some j) ∈ c'.orders) :
    ∃ ms, o = .job (.report jn.parent ms) := by
  rcases hc.cases hs with ⟨env, job, mark, os, rest, hw⟩ | hrests
  · rw [hw.orders'] at ho
    rcases List.mem_append.1 ho with ho | ho
    · obtain ⟨o', ho', heq⟩ := List.mem_map.1 ho
      obtain ⟨rfl, hbehalf⟩ := Prod.mk.inj heq
      rcases hw.transition.behalf_cases ho' hbehalf with ⟨b, m, ms, rfl, rfl, rfl⟩ |
        ⟨b, jn', rss, -, hcompletes, -⟩
      · obtain ⟨ms', hms'⟩ := h.orders (o := .job (.report b (m :: ms)))
          (hw.orders ▸ List.mem_cons_self)
        cases hms'
        exact ⟨ms, rfl⟩
      · exact absurd (mem_of_getElem? hcompletes.there) h.gone.2
    · refine h.orders ?_
      rw [hw.orders]
      exact List.mem_cons_of_mem _ ho
  · exact h.orders (hrests.marked ho)

theorem Reported.entries_records (h : c.Reported j jn i) (hs : c.scene.IsSound)
    (hc : Records c c') {e : Entry} (he : e ∈ c'.log) (hb : e.behalf = some j) :
    e.branch = jn.parent := by
  rcases hc.cases hs with ⟨env, job, mark, os, rest, hw⟩ | hrests
  · rw [hw.log] at he
    rcases List.mem_append.1 he with he | he
    · exact h.entries he hb
    · obtain ⟨hmark, ms, y, x, rfl, -⟩ := Searches.mem_entries he
      obtain rfl : mark = some j := hmark.symm.trans hb
      obtain ⟨ms', hms'⟩ := h.orders (o := .job (.report e.branch (e.found :: ms)))
        (hw.orders ▸ List.mem_cons_self)
      exact (Job.report.inj (Order.job.inj hms')).1
  · exact h.entries (hrests.log ▸ he) hb

/-- What was reported and what is still to be reported make up the product. -/
theorem Reported.heard_records (h : c.Reported j jn i) (hs : c.scene.IsSound)
    (hc : Records c c') : c'.heardFrom j <+: c.product j jn ∧
      (c'.table.GoesOn i → c'.heardFrom j ++ c'.aheadOf j = c.product j jn) := by
  have hsame : c'.heardFrom j = c.heardFrom j → c'.aheadOf j = c.aheadOf j →
      c'.heardFrom j <+: c.product j jn ∧
      (c'.table.GoesOn i → c'.heardFrom j ++ c'.aheadOf j = c.product j jn) := by
    intro hheard hahead
    rw [hheard, hahead]
    exact ⟨h.heard, fun hgoes => h.all (hc.goesOn hs hgoes)⟩
  rcases hc.cases hs with ⟨env, job, mark, os, rest, hw⟩ | hrests
  · by_cases hmark : mark = some j
    · subst hmark
      rcases h.works hw with ⟨x, hx, hstop, htable, hheard⟩ | ⟨heq, hgoes⟩
      · refine ⟨hheard ▸ h.heard, fun hgoes => ?_⟩
        rw [htable] at hgoes
        rw [hgoes x hx] at hstop
        cases hstop
      · refine ⟨?_, fun hgoes' => heq.trans (h.all (hc.goesOn hs hgoes'))⟩
        rcases hgoes with hheard | ⟨x, hx, hstop⟩
        · exact hheard ▸ h.heard
        · have hgoes : c.table.GoesOn i := fun z hz => by
            obtain rfl := Option.some.inj (hz.symm.trans hx)
            exact hstop
          rw [← h.all hgoes, ← heq]
          exact List.prefix_append _ _
    · obtain ⟨hheard, hahead⟩ := hw.heard_of_ne h.gone.2 hmark
      exact hsame hheard hahead
  · refine hsame ?_ (hrests.ahead j)
    rw [heardFrom, hrests.log]
    rfl

/-- **What a junction that is gone reports is its product**, and stays so. -/
theorem Reported.records (h : c.Reported j jn i) (ht : c.IsTrue) (hc : Records c c') :
    c'.Reported j jn i := by
  have hs : c.scene.IsSound := ht.inOrder.sound
  have hbefore := (hc.step.before hs).table
  have hproduct : c'.product j jn = c.product j jn :=
    product_congr fun n hn => hc.reportedTo_eq (h.complete hn).2
  obtain ⟨hheard, hall⟩ := h.heard_records hs hc
  exact ⟨hc.junction_gone hs h.gone, fun hn => hc.branch_gone hs (h.complete hn),
    Nat.lt_of_lt_of_le h.parent_lt hbefore.next_le,
    fun hseat => h.parent (hbefore.seat h.parent_lt hseat), h.orders_records hs hc,
    h.entries_records hs hc, hproduct ▸ hheard, fun hgoes => (hall hgoes).trans hproduct.symm⟩

/-- The last clause of a junction is complete: the product is to be reported
next, at once. -/
structure Completes (c c' : Chronicle) (j : Nat) (jn : Junction) : Prop where
  /-- It is the last one. -/
  last : ∃ slot < jn.slots.length, ∃ mark rest,
    c.orders = (.job (.release (j + 1 + slot)), mark) :: rest ∧
    c'.orders = (.job (.report jn.parent (c'.product j jn)), some j) ::
      (.job (.release jn.parent), none) :: rest ∧
    ∀ n < jn.slots.length, j + 1 + n ∈ c.table.branches ↔ n = slot
  none_left {n : Nat} : n < jn.slots.length → j + 1 + n ∉ c'.table.branches
  /-- Nothing was reported before. -/
  unheard : c'.heardFrom j = []

/-- A junction that waits waits on, or its last clause is complete. -/
theorem Waits.cases (h : c.Waits j jn i) (ht : c.IsTrue) (hc : Records c c') :
    c'.Waits j jn i ∨ j ∉ c'.table.junctions ∧ c.Completes c' j jn := by
  obtain ⟨jn', hj, htrunk, hparent, hlen⟩ := h.there
  have hs : c.scene.IsSound := ht.inOrder.sound
  have hl : Layout c.table := hs.layout
  have hseats : ∀ {k : Nat} {r : BranchRole}, c'.table.seat? jn.parent = some (k, r) → k = i := by
    intro k r hseat
    have hlt : jn.parent < c.table.next :=
      hparent ▸ Nat.lt_trans (hl.parent_lt hj) (hl.junction_lt (mem_of_getElem? hj))
    exact h.parent ((hc.step.before hs).table.seat hlt hseat)
  rcases hc.cases hs with ⟨env, job, mark, os, rest, hw⟩ | hrests
  · rcases hw.transition.junction_stays hl hj with ⟨jn'', hj', ht', hp', hl'⟩ |
      ⟨b, rss, rfl, hcompletes, rfl⟩
    · exact .inl ⟨⟨jn'', hj', ht'.trans htrunk, hp'.trans hparent, hl'.trans hlen⟩, hseats⟩
    obtain ⟨hcombine, slot, hslot, rfl, hb, hothers⟩ := ht.completes hcompletes
    obtain ⟨y, slot', hy, hr, -⟩ := hcompletes.branch
    rw [hlen] at hslot hothers
    -- nothing is added to the log
    have hlog : c'.log = c.log := hw.log.trans (List.append_nil _)
    have hproduct : Junction.combine jn'.trunk rss = c'.product j jn := by
      have hsame : c'.product j jn = c.product j jn :=
        product_congr fun n _ => by rw [reportedTo, hlog]; rfl
      rw [hcombine, hsame, product, product, htrunk, hlen]
    refine .inr ⟨?_, ⟨slot, hslot, mark, rest, hw.orders, ?_, fun n hn => ?_⟩, fun {n} hn => ?_, ?_⟩
    · rw [hcompletes.junctions]
      simp
    · rw [hw.orders', hproduct, hparent]
      simp [Searches.behalf, hy, hr, BranchRole.junction?]
    · refine ⟨fun hm => ?_, fun he => he ▸ hb⟩
      by_contra hne
      exact hothers n hn hne hm
    · rw [hcompletes.branches]
      by_cases hne : n = slot
      · subst hne
        simp
      · exact fun hmem => hothers n hn hne (ExtTreeMap.mem_erase.1 hmem).2
    · rw [heardFrom, hlog]
      exact (ht.unheard (mem_of_getElem? hj)).1
  · refine .inl ⟨⟨jn', ?_, htrunk, hparent, hlen⟩, hseats⟩
    rw [hrests.junctions]
    exact hj

/-- When the last clause is complete nothing but the product is to be reported. -/
theorem Completes.reported (h : c.Completes c' j jn) (hwaits : c.Waits j jn i) (ht : c.IsTrue)
    (hc : Records c c') (hgone : j ∉ c'.table.junctions) : c'.Reported j jn i := by
  obtain ⟨jn', hj, -, hparent, hlen⟩ := hwaits.there
  obtain ⟨slot, -, mark, rest, hold, hnew, -⟩ := h.last
  have hs : c.scene.IsSound := ht.inOrder.sound
  have hl : Layout c.table := hs.layout
  have hbefore := (hc.step.before hs).table
  have hmem := mem_of_getElem? hj
  have hlt : jn.parent < c.table.next :=
    hparent ▸ Nat.lt_trans (hl.parent_lt hj) (hl.junction_lt hmem)
  have hrest : aheadIn rest j = [] := by
    have hahead := (ht.unheard hmem).2
    rw [aheadOf, hold, aheadIn_cons, List.append_eq_nil_iff] at hahead
    exact hahead.2
  refine ⟨⟨Nat.lt_of_lt_of_le (hl.junction_lt hmem) hbefore.next_le, hgone⟩,
    fun {n} hn => ⟨?_, h.none_left hn⟩, Nat.lt_of_lt_of_le hlt hbefore.next_le,
    fun hseat => hwaits.parent (hbefore.seat hlt hseat), fun {o} ho => ?_,
    fun {e} he hbehalf => ?_, h.unheard ▸ List.nil_prefix, fun _ => ?_⟩
  · refine Nat.lt_of_lt_of_le (Nat.lt_of_lt_of_le ?_ (hl.slots_le hj)) hbefore.next_le
    exact Nat.add_lt_add_left (hlen ▸ hn) (j + 1)
  · rw [hnew] at ho
    rcases List.mem_cons.1 ho with ho | ho
    · exact ⟨_, (Prod.mk.inj ho).1⟩
    rcases List.mem_cons.1 ho with ho | ho
    · cases ho
    · refine absurd hmem (ht.marked (o := o) ?_).2
      rw [hold]
      exact List.mem_cons_of_mem _ ho
  · have hnone := List.filter_eq_nil_iff.1 (List.map_eq_nil_iff.1 h.unheard) e he
    exact absurd (decide_eq_true hbehalf) hnone
  · rw [h.unheard, aheadOf, hnew, aheadIn_cons, aheadIn_cons, if_pos rfl, if_neg (by simp), hrest,
      List.nil_append, List.append_nil, List.append_nil]
    rfl

/-- **A junction waits until its last clause is complete**, and is about to
report its product then. -/
theorem Waits.records (h : c.Waits j jn i) (ht : c.IsTrue) (hc : Records c c') :
    c'.Waits j jn i ∨ c.Completes c' j jn ∧ c'.Reported j jn i := by
  rcases h.cases ht hc with hwaits | ⟨hgone, hcompletes⟩
  · exact .inl hwaits
  · exact .inr ⟨hcompletes, hcompletes.reported h ht hc hgone⟩

/-- A junction that is there waits for a branch that is there. -/
theorem Waits.exists_branch (h : c.Waits j jn i) (ht : c.IsTrue) :
    ∃ n < jn.slots.length, j + 1 + n ∈ c.table.branches := by
  obtain ⟨jn', hj, -, -, hlen⟩ := h.there
  obtain ⟨n, hn⟩ := ht.inOrder.attended.waits hj
  obtain ⟨i, hseat⟩ := ht.inOrder.attended.seated hj hn
  obtain ⟨hlt, -⟩ := List.getElem?_eq_some_iff.1 hn
  exact ⟨n, hlen ▸ hlt, Searches.mem_of_seat? hseat⟩

/-- A junction waits, or its product is reported, whatever happens. -/
theorem Recorded.stage (h : c.Waits j jn i) (ht : c.IsTrue) (hc : Recorded c c') :
    c'.IsTrue ∧ (c'.Waits j jn i ∨ c'.Reported j jn i) := by
  induction hc with
  | refl => exact ⟨ht, .inl h⟩
  | tail _ hstep ih =>
    obtain ⟨htrue, hwaits | hreported⟩ := ih
    · refine ⟨htrue.records hstep, ?_⟩
      exact (hwaits.records htrue hstep).imp_right And.right
    · exact ⟨htrue.records hstep, .inr (hreported.records htrue hstep)⟩

/-- **A junction of a search that was stopped reports nothing**, if it has
reported nothing by then. -/
theorem Recorded.silent (h : c.Waits j jn i) (ht : c.IsTrue) (hstop : ¬ c.table.GoesOn i)
    (hc : Recorded c c') : ¬ c'.table.GoesOn i ∧ c'.heardFrom j = [] := by
  obtain ⟨jn', hj, -⟩ := h.there
  induction hc with
  | refl => exact ⟨hstop, (ht.unheard (mem_of_getElem? hj)).1⟩
  | @tail c' c'' hrun hstep ih =>
    obtain ⟨hstop', hheard⟩ := ih
    obtain ⟨htrue, hstage⟩ := Recorded.stage h ht hrun
    have hs : c'.scene.IsSound := htrue.inOrder.sound
    refine ⟨fun hgoes => hstop' (hstep.goesOn hs hgoes), ?_⟩
    rcases hstage with hwaits | hreported
    · rcases hwaits.records htrue hstep with hwaits | ⟨hcompletes, -⟩
      · obtain ⟨jn'', hj', -⟩ := hwaits.there
        exact ((htrue.records hstep).unheard (mem_of_getElem? hj')).1
      · exact hcompletes.unheard
    rcases hstep.cases hs with ⟨env, job, mark, os, rest, hw⟩ | hrests
    · by_cases hmark : mark = some j
      · subst hmark
        rcases hreported.works hw with ⟨-, -, -, -, hsame⟩ | ⟨-, hsame | ⟨x, hx, hgoes⟩⟩
        · rw [hsame, hheard]
        · rw [hsame, hheard]
        · refine absurd (fun z hz => ?_) hstop'
          obtain rfl := Option.some.inj (hz.symm.trans hx)
          exact hgoes
      · rw [(hw.heard_of_ne hreported.gone.2 hmark).1, hheard]
    · rw [heardFrom, hrests.log]
      exact hheard

/-- What is to be reported does not change any more. -/
theorem Reported.product_eq (h : c.Reported j jn i) (ht : c.IsTrue) (hc : Recorded c c') :
    c'.product j jn = c.product j jn := by
  have hkeep : c'.IsTrue ∧ c'.Reported j jn i ∧ c'.product j jn = c.product j jn := by
    induction hc with
    | refl => exact ⟨ht, h, rfl⟩
    | tail _ hstep ih =>
      obtain ⟨htrue, hreported, heq⟩ := ih
      refine ⟨htrue.records hstep, hreported.records htrue hstep, ?_⟩
      rw [product_congr fun n hn => hstep.reportedTo_eq (hreported.complete hn).2, heq]
  exact hkeep.2.2

/-- **What a junction of search `i` reports**, from the time of `c₁`, when it is
there, to the time of `c₂`. -/
structure Joins (c₁ c₂ : Chronicle) (j : Nat) (jn : Junction) (i : Nat) : Prop where
  /-- As long as it is there some clause is at work, and nothing is reported. -/
  before : j ∈ c₂.table.junctions → c₂.heardFrom j = [] ∧ c₂.aheadOf j = [] ∧
    ∃ n < jn.slots.length, j + 1 + n ∈ c₂.table.branches
  /-- When the last clause is complete, the product is to be reported at once. -/
  completes {c₃ : Chronicle} : Records c₂ c₃ → j ∈ c₂.table.junctions →
    j ∉ c₃.table.junctions → c₂.Completes c₃ j jn
  /-- After that what is to be reported does not change; nothing else is ever
  reported, and that only to the branch which had matched the trunk. -/
  after : j ∉ c₂.table.junctions →
    (∀ c₃, Recorded c₂ c₃ → c₃.product j jn = c₂.product j jn) ∧
    c₂.heardFrom j <+: c₂.product j jn ∧
    ∀ e ∈ c₂.log, e.behalf = some j → e.branch = jn.parent
  /-- And all of it, unless the search is stopped: what was not reported yet is
  still to be reported. -/
  all : j ∉ c₂.table.junctions → c₂.table.GoesOn i →
    c₂.heardFrom j ++ c₂.aheadOf j = c₂.product j jn
  /-- So when no order is left, all of it was reported. -/
  settled : j ∉ c₂.table.junctions → c₂.table.GoesOn i → c₂.orders = [] →
    c₂.heardFrom j = c₂.product j jn
  /-- If the search was stopped before, nothing is reported. -/
  stopped : ¬ c₁.table.GoesOn i → c₂.heardFrom j = []
  /-- There is a match for every choice of results, and so for every trunk. -/
  length : (c₂.product j jn).length = ((List.range jn.slots.length).map fun n =>
    max 1 (c₂.reportedTo (j + 1 + n)).length).prod
  nonempty : c₂.product j jn ≠ []

/-- **A junction reports its product, once**, whatever happens and in whatever
order its clauses are complete. -/
theorem Recorded.joins {g : Graph} (h₁ : Recorded (start g) c)
    (hj : c.table.junctions[j]? = some jn) (h₂ : Recorded c c') :
    ∃ y, c.table.branches[jn.parent]? = some y ∧ c.Joins c' j jn y.search := by
  have ht : c.IsTrue := h₁.isTrue
  have hparent : jn.parent ∈ c.table.branches := ht.inOrder.sound.accounted.mem_of_junction hj
  obtain ⟨y, hy⟩ := exists_getElem? hparent
  have hwaits : c.Waits j jn y.search := by
    refine ⟨⟨jn, hj, rfl, rfl, rfl⟩, fun hseat => ?_⟩
    rw [Searches.seat?_of_getElem? hy] at hseat
    exact (congrArg Prod.fst (Option.some.inj hseat)).symm
  obtain ⟨ht', hstage⟩ := Recorded.stage hwaits ht h₂
  have hstill : j ∈ c'.table.junctions → c'.Waits j jn y.search := fun hm =>
    hstage.resolve_right fun hreported => hreported.gone.2 hm
  have hover : j ∉ c'.table.junctions → c'.Reported j jn y.search := fun hm =>
    hstage.resolve_left fun hwaits => by
      obtain ⟨jn', hj', -⟩ := hwaits.there
      exact hm (mem_of_getElem? hj')
  refine ⟨y, hy, fun hm => ?_, fun {c₃} hstep hm hgone => ?_, fun hm => ?_,
    fun hm => (hover hm).all, fun hm hgoes hidle => ?_,
    fun hstop => (Recorded.silent hwaits ht hstop h₂).2, c'.length_product j jn,
    c'.product_ne_nil j jn⟩
  · obtain ⟨hheard, hahead⟩ := ht'.unheard hm
    exact ⟨hheard, hahead, (hstill hm).exists_branch ht'⟩
  · refine (((hstill hm).records ht' hstep).resolve_left fun hwaits => ?_).1
    obtain ⟨jn', hj', -⟩ := hwaits.there
    exact hgone (mem_of_getElem? hj')
  · have hreported := hover hm
    exact ⟨fun c₃ h₃ => hreported.product_eq ht' h₃, hreported.heard,
      fun e he hb => hreported.entries he hb⟩
  · have hall := (hover hm).all hgoes
    rwa [aheadOf, hidle, show aheadIn [] j = [] from rfl, List.append_nil] at hall

end Chronicle

end TripleQuery
