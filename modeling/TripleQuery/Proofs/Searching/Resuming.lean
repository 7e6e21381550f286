import TripleQuery.Proofs.Searching.Outcome
import TripleQuery.Proofs.Searching.Sparing
/-!
# Resuming — the order of resumption does not matter

A search that amounts to something without an error, when it is started, is on
course to it (`Scene.OnCourse`), and whatever spares the search keeps it there
(`Scene.Spares.onCourse`): a path amounts to the same while it goes on, waits,
and is resumed, so it does not matter when and in which order paths are resumed.
An error that any of its paths could meet would already have shown in what the
search amounts to, since no clause contributes nothing (`Balanced.top_of_branch`).
Once no work of the search is left and no path of it is parked, its caller was
told just that (`Scene.OnCourse.done`).
-/

namespace TripleQuery

open Std (ExtTreeMap)
open Relation (ReflTransGen)

variable {g : Graph} {t t' : Searches} {os os' rest : List Order} {o : Order} {job : Job}
  {told told' : List Notice} {V : Nat → Yield} {Y : Yield} {f : Frame} {x : Search}
  {jn : Junction} {b i j k n : Nat} {r : BranchRole} {p : Pattern}

/-! ## Errors show in the end -/

/-- A path that meets an error amounts to one. -/
theorem Frame.yield_of_error {e : QueryError} (hne : f.remaining ≠ [])
    (h : f.expand g = .error e) : f.yield g = ⊤ := by
  rw [yield, trunks_of_error hne h, Yield.bind_top]

/-- A junction amounts to an error if one of the clauses that it waits for
does. -/
theorem Junction.yield_eq_top (hslot : jn.slots[k]? = some none) (hV : V (j + 1 + k) = ⊤)
    (hne : ∀ {n : Nat} {rs : List Bindings}, jn.slots[n]? = some (some rs) → rs ≠ []) :
    jn.yield V j = ⊤ := by
  refine Yield.combine_eq_top (fun y hy => ?_) ?_ _
  · obtain ⟨n, hn, rfl⟩ := List.mem_mapIdx.1 hy
    cases hs : jn.slots[n] with
    | none => exact Yield.orEmpty_ne_zero _
    | some rs =>
      intro hzero
      have hnothing : Yield.of rs = .of [] := hzero
      refine hne (List.getElem?_eq_some_iff.2 ⟨hn, hs⟩) ?_
      exact List.perm_nil.1 (Yield.perm_of_of_eq hnothing)
  · obtain ⟨hlt, hs⟩ := List.getElem?_eq_some_iff.1 hslot
    refine List.mem_mapIdx.2 ⟨k, hlt, ?_⟩
    rw [hs]
    change (V (j + 1 + k)).orEmpty = ⊤
    rw [hV, Yield.orEmpty_top]

/-- What a junction amounts to, it adds to the branch that it reports to. -/
theorem Searches.joining_eq_top (hj : t.junctions[j]? = some jn) (h : jn.yield V j = ⊤) :
    t.joining V jn.parent = ⊤ := by
  rw [joining, tally_erase hj, if_pos rfl, h, WithTop.top_add]

/-- **If any branch of a search will have an error, the search amounts to one.**
-/
theorem Balanced.top_of_branch (h : Balanced g t os told i V) (hs : Sound t os)
    (ha : t.Attended) (hb : t.seat? b = some (i, r)) (hV : V b = ⊤) : V (i + 1) = ⊤ := by
  -- by induction on the number of the branch, since junctions report to earlier ones
  induction b using Nat.strongRecOn generalizing r with
  | ind b ih =>
    cases r with
    | root =>
      obtain rfl := hs.layout.root hb
      exact hV
    | clause j k =>
      obtain ⟨hnum, jn, hj, hslot, r', hr'⟩ := hs.layout.clause hb
      have htop : jn.yield V j = ⊤ :=
        Junction.yield_eq_top hslot (hnum ▸ hV) (ha.nonempty hj)
      refine ih jn.parent (hs.layout.parent_lt_clause hb hj) hr' ?_
      have hparent := h jn.parent (.inl (Searches.owner?_eq_some_iff.2 ⟨r', hr'⟩))
      rw [hparent, Searches.pending, Searches.joining_eq_top hj htop, WithTop.add_top,
        WithTop.add_top]

/-- Nor does a path of it meet one otherwise. -/
theorem Balanced.top_of_path (h : Balanced g t (.job (.step f) :: rest) told i V)
    (hs : Sound t (.job (.step f) :: rest)) (ha : t.Attended) (hi : f.search = i)
    (hf : f.yield g = ⊤) : V (i + 1) = ⊤ := by
  obtain ⟨r, hr⟩ := hs.seated List.mem_cons_self rfl
  rw [hi] at hr
  refine h.top_of_branch hs ha hr ?_
  have hown := h f.branch (.inl (Searches.owner?_eq_some_iff.2 ⟨r, hr⟩))
  have hstep : Order.yield g f.branch (.job (.step f)) = ⊤ := by
    rw [Order.yield, if_pos rfl, hf]
  rw [hown, Searches.pending, List.map_cons, List.sum_cons, hstep]
  simp only [WithTop.top_add, WithTop.add_top]

/-! ## What else may happen -/

namespace Balanced

/-- What a branch has and will have depends on nothing else. -/
theorem congr (h : Balanced g t os told i V) (hin : ∀ b, t'.Concerns i b → t.Concerns i b)
    (hhas : ∀ b, t'.Concerns i b → t'.settled told' i b = t.settled told i b)
    (hwill : ∀ b, t'.Concerns i b → t'.pending g V os' b = t.pending g V os b) :
    Balanced g t' os' told' i V := by
  intro b hb
  rw [hhas b hb, hwill b hb, h b (hin b hb)]

/-- **A path amounts to the same once it is resumed.** -/
theorem resume (h : Balanced g t os told i V) (n : Nat) :
    Balanced g (t.resume n).1 ((t.resume n).2 ++ os) told i V := by
  unfold Searches.resume
  cases hf : t.parked[n]? with
  | none => exact h
  | some f =>
    refine h.congr (fun _ hb => hb) (fun _ _ => rfl) fun b _ => ?_
    have hwaiting : t.waiting g b = (if f.branch = b then f.yield g else 0) +
        { t with parked := t.parked.erase n }.waiting g b := tally_erase hf _
    simp only [Searches.pending, List.singleton_append, List.map_cons, List.sum_cons, Order.yield,
      hwaiting]
    change _ + _ + _ + t.joining V b = _
    ac_rfl

/-- A path of another search may be given up. -/
theorem discard (h : Balanced g t os told i V) (hs : Sound t os) (hp : Paced t os i x)
    (hother : ∀ f, t.parked[n]? = some f → f.search ≠ i) :
    Balanced g (t.discard n).1 ((t.discard n).2 ++ os) told i V := by
  unfold Searches.discard
  cases hf : t.parked[n]? with
  | none => exact h
  | some f =>
    refine h.congr (fun _ hb => hb) (fun _ _ => rfl) fun b hb => ?_
    have hin : t.Concerns i b := hb
    have hne : f.branch ≠ b := by
      rintro rfl
      obtain ⟨r, hr⟩ := hs.parked hf
      exact hother f hf (hin.search_eq hp hr)
    have hwaiting : t.waiting g b = (if f.branch = b then f.yield g else 0) +
        { t with parked := t.parked.erase n }.waiting g b := tally_erase hf _
    rw [if_neg hne, zero_add] at hwaiting
    simp only [Searches.pending, List.singleton_append, List.map_cons, List.sum_cons, Order.yield,
      hwaiting, zero_add]
    rfl

/-- Another search may be changed. -/
theorem update (h : Balanced g t os told i V) (hk : k ≠ i) (change : Search → Search) :
    Balanced g (t.update k change) os told i V := by
  cases hx : t.searches[k]? with
  | none => simpa only [Searches.update, hx] using h
  | some x =>
    rw [Searches.update_of_getElem? hx]
    refine h.congr (fun _ hb => hb) (fun b _ => ?_) fun _ _ => rfl
    refine Searches.settled_eq (fun _ => rfl) fun _ => ?_
    rw [Searches.queueOf_insert rfl, if_neg hk]

/-- Another search may be started. -/
theorem launch (h : Balanced g t os told i V) (hs : Sound t os) (hi : i ∈ t.searches)
    (config : SearchConfig) (linked : Bool) (p : Pattern) :
    Balanced g (t.launch config linked p).1 (.job (t.launch config linked p).2.2 :: os)
      (told ++ [.started t.next p]) i V := by
  have hl := hs.layout
  have hlt : i < t.next := Nat.lt_of_succ_lt (hl.search_lt hi)
  have hold : ∀ b, (t.launch config linked p).1.Concerns i b → t.Concerns i b ∧ t.next + 1 ≠ b := by
    rintro b (ho | rfl)
    · obtain ⟨r, hr⟩ := Searches.owner?_eq_some_iff.1 ho
      rw [Sound.seat?_launch] at hr
      split at hr
      · cases hr
        omega
      · rename_i hne
        exact ⟨.inl (Searches.owner?_eq_some_iff.2 ⟨r, hr⟩), hne⟩
    · exact ⟨.inr rfl, fun he => Nat.ne_of_gt hlt (Nat.succ.inj he)⟩
  refine h.congr (fun b hb => (hold b hb).1) (fun b hb => ?_) fun b hb => ?_
  · have hmatches : matchesOf i (told ++ [.started t.next p]) = matchesOf i told := by
      rw [matchesOf_append]
      exact List.append_nil _
    have hfound : (t.launch config linked p).1.foundAt b = t.foundAt b := by
      rw [Searches.foundAt_insert rfl, if_neg (hold b hb).2]
    have hqueue : (t.launch config linked p).1.queueOf i = t.queueOf i := by
      rw [Searches.queueOf_insert rfl, if_neg (Nat.ne_of_gt hlt)]
    rw [Searches.settled, hmatches]
    exact Searches.settled_eq (fun _ => hfound) fun _ => hqueue
  · have hstart : Order.yield g b (.job (t.launch config linked p).2.2) = 0 :=
      (Order.yield_enter g _ _ _ ∅ p p.initial []).trans (if_neg (hold b hb).2)
    rw [Searches.pending, List.map_cons, List.sum_cons, hstart, zero_add]
    rfl

/-- A path amounts to the same while it waits. -/
theorem suspend (h : Balanced g t (.job (.step f) :: rest) told i V) (env : Surroundings)
    (d : String) :
    Balanced g (t.suspend env f d).1 ((t.suspend env f d).2 ++ rest) told i V := by
  obtain ⟨ht, ho⟩ := t.suspend_cases env f d
  rw [ht]
  refine h.exchange_of_eq (fun _ ho => ho) rfl rfl (fun _ _ => rfl) rfl fun b _ => ?_
  rcases ho with ho | ho <;> simp [ho, Order.yield]

end Balanced

/-! ## On course -/

/-- A search that goes on, or is over, without an error, on the way to what it
amounts to. -/
structure Scene.OnCourse (w : Scene) (i : Nat) (Y : Yield) (x : Search) : Prop where
  started : w.table.searches[i]? = some x
  unlimited : x.config.maxMatches = none
  stopped : x.stopped = false
  error : x.error = none
  balanced : ∃ V : Nat → Yield, V (i + 1) = Y ∧
    Balanced w.graph w.table w.orders w.told i V
  /-- No error is about to be told in the end, or was told. -/
  flawless (e : QueryError) : .error e ∉ finishesOf i w.orders ∧ .done i (.error e) ∉ w.told

namespace Scene

variable {w w' : Scene} {config : SearchConfig} {linked : Bool}

/-- The orders that end a search, where others that end none go before. -/
theorem finishesOf_cons_of_none (h : o.finish? i = none) :
    finishesOf i (o :: os) = finishesOf i os := by
  rw [finishesOf_cons, h]
  rfl

/-- A search is on course when it is started. -/
theorem onCourse_launch (hs : Sound t os) (hw : IsFaithful ⟨g, t, os, told⟩)
    (hlimit : config.maxMatches = none) :
    OnCourse ⟨g, (t.launch config linked p).1, .job (t.launch config linked p).2.2 :: os,
        told ++ [.started t.next p]⟩
      t.next (answers g ∅ p p.initial) { config := config, linked := linked } := by
  obtain ⟨-, hfin⟩ := hw.unheard hs.layout.next_not_mem_searches
  refine ⟨?_, hlimit, rfl, rfl, ⟨_, rfl, balanced_launch hs hw config linked p⟩,
    fun e => ⟨?_, fun hdone => ?_⟩⟩
  · simp [Searches.launch]
  · rw [finishesOf_cons_of_none rfl, show finishesOf t.next os = [] from hfin]
    exact List.not_mem_nil
  · have htold : .done t.next (.error e) ∈ told := by simpa using hdone
    exact hs.layout.next_not_mem_searches (hw.mem_of_told htold)

namespace OnCourse

/-- **Work keeps a search on course**, whatever is said of the state of
documents. -/
theorem work {state? : Option (String → FetchState)}
    (h : OnCourse ⟨g, t, .job job :: rest, told⟩ i Y x) (hY : Y ≠ ⊤)
    (hs : Sound t (.job job :: rest)) (hw : IsFaithful ⟨g, t, .job job :: rest, told⟩)
    (ha : t.Attended) (ht : Transition ⟨g, state?⟩ t job t' os) :
    ∃ x', OnCourse ⟨g, t', os ++ rest, told⟩ i Y x' := by
  have hx : t.searches[i]? = some x := h.started
  obtain ⟨V, hV, hbal⟩ := h.balanced
  obtain ⟨x', hx', -, hconfig, ⟨he, hstop⟩ | ⟨-, f, e, rfl, hi, hr, hfail⟩⟩ := ht.course hx
  · have hnone : x'.error = none := by rw [he, h.error]
    obtain ⟨V', hV', hbal'⟩ := hbal.run hs (hw.paced hx) hx h.stopped ht hx' hnone
    refine ⟨x', hx', by rw [hconfig, h.unlimited], ?_, hnone, ⟨V', hV'.trans hV, hbal'⟩,
      fun e => ⟨fun hmem => ?_, (h.flawless e).2⟩⟩
    · rw [hstop h.unlimited, h.stopped]
    · obtain ⟨x'', hx'', hturn⟩ := ht.turn hs hx
      obtain rfl : x' = x'' := Option.some.inj (hx'.symm.trans hx'')
      simp only [finishesOf_append, List.mem_append] at hmem
      rcases hmem with hmem | hmem
      · -- a search without an error ends with a summary
        rcases hturn.delivers.2 with ⟨hnil, -⟩ | ⟨hone, -⟩
        · rw [hnil] at hmem
          cases hmem
        · rw [hone, List.mem_singleton, Search.result, h.error] at hmem
          cases hmem
      · refine (h.flawless e).1 ?_
        change _ ∈ finishesOf i (.job job :: rest)
        rwa [finishesOf_cons_of_none rfl]
  · -- the error would have shown in what the search amounts to
    exact absurd (hV.symm.trans (hbal.top_of_path hs ha hi (Frame.yield_of_error hr hfail))) hY

theorem handOver (h : OnCourse ⟨g, t, o :: rest, told⟩ i Y x) (hs : Sound t (o :: rest))
    (hw : IsFaithful ⟨g, t, o :: rest, told⟩) (ho : ∀ job, o ≠ .job job) :
    OnCourse ⟨g, t, rest, told ++ o.notices⟩ i Y x := by
  obtain ⟨V, hV, hbal⟩ := h.balanced
  refine ⟨h.started, h.unlimited, h.stopped, h.error,
    ⟨V, hV, hbal.handOver hs (hw.paced h.started) ho⟩, fun e => ⟨fun hfin => ?_, fun hdone => ?_⟩⟩
  · refine (h.flawless e).1 ?_
    change _ ∈ finishesOf i (o :: rest)
    rw [finishesOf_cons]
    exact List.mem_append_right _ hfin
  · rcases List.mem_append.1 hdone with hdone | hdone
    · exact (h.flawless e).2 hdone
    · exact (h.flawless e).1 (mem_finishesOf_of_notices hdone)

/-- So does everything that leaves the search and its balance as they are. -/
theorem aside (h : OnCourse ⟨g, t, os, told⟩ i Y x)
    (hx : t'.searches[i]? = t.searches[i]?) (hfin : finishesOf i os' = finishesOf i os)
    (hdone : ∀ r, .done i r ∈ told' → .done i r ∈ told)
    (hbal : ∀ V, Balanced g t os told i V → Balanced g t' os' told' i V) :
    OnCourse ⟨g, t', os', told'⟩ i Y x := by
  obtain ⟨V, hV, hV'⟩ := h.balanced
  refine ⟨hx.trans h.started, h.unlimited, h.stopped, h.error, ⟨V, hV, hbal V hV'⟩,
    fun e => ⟨?_, fun hd => (h.flawless e).2 (hdone _ hd)⟩⟩
  rw [show finishesOf i os' = _ from hfin]
  exact (h.flawless e).1

theorem update (h : OnCourse ⟨g, t, os, told⟩ i Y x) (hk : k ≠ i) (change : Search → Search) :
    OnCourse ⟨g, t.update k change, os, told⟩ i Y x := by
  refine h.aside ?_ rfl (fun _ h => h) fun V hV => hV.update hk change
  unfold Searches.update
  split
  · rfl
  · simp [ExtTreeMap.getElem?_insert, hk]

theorem launch (h : OnCourse ⟨g, t, os, told⟩ i Y x) (hs : Sound t os) (config : SearchConfig)
    (linked : Bool) (p : Pattern) :
    OnCourse ⟨g, (t.launch config linked p).1, .job (t.launch config linked p).2.2 :: os,
      told ++ [.started t.next p]⟩ i Y x := by
  have hi : i ∈ t.searches := mem_of_getElem? h.started
  refine h.aside ?_ (finishesOf_cons_of_none rfl) (fun r hr => by simpa using hr)
    fun V hV => hV.launch hs hi config linked p
  have hne : t.next ≠ i := by
    rintro rfl
    exact hs.layout.next_not_mem_searches hi
  change (t.searches.insert t.next _)[i]? = _
  simp [ExtTreeMap.getElem?_insert, hne]

theorem resume (h : OnCourse ⟨g, t, os, told⟩ i Y x) (n : Id) :
    OnCourse ⟨g, (t.resume n).1, (t.resume n).2 ++ os, told⟩ i Y x := by
  refine h.aside ?_ ?_ (fun _ h => h) fun V hV => hV.resume n
  · unfold Searches.resume
    split <;> rfl
  · unfold Searches.resume
    split <;> rfl

theorem discard (h : OnCourse ⟨g, t, os, told⟩ i Y x) (hs : Sound t os)
    (hw : IsFaithful ⟨g, t, os, told⟩) (hother : ∀ f, t.parked[n]? = some f → f.search ≠ i) :
    OnCourse ⟨g, (t.discard n).1, (t.discard n).2 ++ os, told⟩ i Y x := by
  refine h.aside ?_ ?_ (fun _ h => h) fun V hV => hV.discard hs (hw.paced h.started) hother
  · unfold Searches.discard
    split <;> rfl
  · unfold Searches.discard
    split <;> rfl

theorem suspend (h : OnCourse ⟨g, t, .job (.step f) :: os, told⟩ i Y x) (env : Surroundings)
    (d : String) :
    OnCourse ⟨g, (t.suspend env f d).1, (t.suspend env f d).2 ++ os, told⟩ i Y x := by
  obtain ⟨ht, ho⟩ := t.suspend_cases env f d
  refine h.aside (by rw [ht]) ?_ (fun _ h => h) fun V hV => hV.suspend env d
  rcases ho with ho | ho <;> rw [ho] <;> rfl

/-- **A search on course of which no work is left, and no path is parked, is
done**, and its caller was told what it amounts to. -/
theorem done {R : List Bindings} (h : OnCourse w i (.of R) x) (hw : w.InOrder)
    (hidle : ∀ o ∈ w.orders, w.table.worksFor? o ≠ some i)
    (hparked : ∀ (n : Nat) (f : Frame), w.table.parked[n]? = some f → f.search ≠ i) :
    ∃ sum, .done i (.ok sum) ∈ w.told ∧ (matchesOf i w.told).Perm R := by
  obtain ⟨hover, result, hdone⟩ :=
    done_of_idle hw.sound hw.faithful hw.attended h.started hidle hparked
  cases result with
  | error e => exact absurd hdone (h.flawless e).2
  | ok sum =>
    obtain ⟨V, hV, hbal⟩ := h.balanced
    have hall := hbal.eq_of_finished hw.sound (hw.faithful.paced h.started) h.started hover
    exact ⟨sum, hdone, Yield.perm_of_of_eq (hall.symm.trans hV)⟩

end OnCourse

/-- **A search stays on course while the scene goes on.** -/
theorem Proceeds.onCourse (h : Proceeds w w') (hY : Y ≠ ⊤) (hw : w.InOrder)
    (hc : OnCourse w i Y x) : ∃ x', OnCourse w' i Y x' := by
  cases h with
  | work state? =>
    exact hc.work hY hw.sound hw.faithful hw.attended (Sound.transition hw.sound _)
  | recheck state? state'? _ _ _ => exact ⟨x, hc.suspend _ _⟩
  | handOver ho => exact ⟨x, hc.handOver hw.sound hw.faithful ho⟩
  | resume _ => exact ⟨x, hc.resume _⟩

/-- **What spares a search keeps it on course.** -/
theorem Spares.onCourse (h : Spares i w w') (hY : Y ≠ ⊤) (hw : w.InOrder)
    (hc : OnCourse w i Y x) : ∃ x', OnCourse w' i Y x' := by
  cases h with
  | proceed h => exact h.onCourse hY hw hc
  | launch config linked _ => exact ⟨x, hc.launch hw.sound config linked _⟩
  | stop hk => exact ⟨x, hc.update hk _⟩
  | cancel hk => exact ⟨x, hc.update hk _⟩
  | discard hother => exact ⟨x, hc.discard hw.sound hw.faithful hother⟩

/-- A run that spares a search keeps it on course, and the scene in order. -/
theorem onCourse_of_spared (h : ReflTransGen (Spares i) w w') (hY : Y ≠ ⊤) (hw : w.InOrder)
    (hc : OnCourse w i Y x) : w'.InOrder ∧ ∃ x', OnCourse w' i Y x' := by
  induction h with
  | refl => exact ⟨hw, x, hc⟩
  | tail _ hstep ih =>
    obtain ⟨hw, x', hc⟩ := ih
    exact ⟨hstep.inOrder hw, hstep.onCourse hY hw hc⟩

end Scene

end TripleQuery
