import TripleQuery.Proofs.Sessions.Listening
import TripleQuery.Proofs.Sessions.Tame
/-!
# Toil — what tame tasks leave to be done

The toil before a session is what it is to do for callers and with its library
(`Session.toil`): the commands that listeners and watchers are yet to run, and the
documents that are yet to be delivered. As long as a session keeps within some
documents (`Session.IsTame`), a tame task leaves tame tasks, and with them no more
toil than there was (`Session.toils_exec`); where a command is run or a document
delivered, it leaves less (`Session.spends`).
-/

namespace TripleQuery

open Std (ExtTreeMap)

namespace Session

/-- A session keeps within these documents. -/
structure IsTame (D : Finset String) (s : Session) : Prop where
  mentioned : ∀ d ∈ s.graph.documents, d ∈ D
  source {src : Source} : s.source = some src → src.IsTame D

/-- The listener of a search runs tame commands only. -/
def TellsTamely (D : Finset String) (s : Session) (i : Id) : Prop :=
  ∀ l, s.listeners[i]? = some l → ∀ c ∈ l.commands, c.IsTame D

/-- The toil that is before a session, given which searches are over: what
listeners are yet to run, and what the source of documents has before it. -/
def toil (D : Finset String) (s : Session) (ended : Id → Bool) : ℕ :=
  (tally s.listeners fun i l => l.weight (ended i)) + s.source.elim 0 (Source.toil D)

/-- An outcome keeps within these documents, and with the tasks that it leaves is
worth no more than the session before with something that was given: some of it is
spent. -/
structure Toils (D : Finset String) (ended ended' : Id → Bool) (s : Session) (given : ℕ)
    (r : Session × List Task) (spent : ℕ) : Prop where
  tame : r.1.IsTame D
  tasks : ∀ task ∈ r.2, task.IsTame D
  listeners (i : Id) : s.TellsTamely D i → r.1.TellsTamely D i
  toil : r.1.toil D ended' + (r.2.map Task.weight).sum + spent ≤ s.toil D ended + given

variable {D : Finset String} {ended ended' : Id → Bool} {s s' : Session} {r : Session × List Task}
  {tasks : List Task} {given given' spent spent' : ℕ} {task : Task} {i : Id} {d : String}
  {cs : List Command}

theorem tellsTamely_of_eq (h : s'.listeners = s.listeners) (hs : s.TellsTamely D i) :
    s'.TellsTamely D i := fun l hl => hs l (h ▸ hl)

/-- A listener that is written is tame if the new one is. -/
theorem tellsTamely_insert {k : Id} {l : Listener} (h : s'.listeners = s.listeners.insert k l)
    (hl : k = i → ∀ c ∈ l.commands, c.IsTame D) (hs : s.TellsTamely D i) :
    s'.TellsTamely D i := by
  intro l' hl'
  rw [h] at hl'
  rcases of_getElem?_insert hl' with ⟨hk, rfl⟩ | hold
  · exact hl hk
  · exact hs l' hold

/-- Nothing is done for callers or with the source, and tame tasks are left. -/
theorem Toils.same (hs : s.IsTame D) (hg : ∀ d ∈ r.1.graph.documents, d ∈ D)
    (hsource : r.1.source = s.source) (hl : r.1.listeners = s.listeners)
    (ht : ∀ task ∈ r.2, task.IsTame D) (hle : (r.2.map Task.weight).sum + spent ≤ given) :
    Toils D ended ended s given r spent where
  tame := ⟨hg, fun h => hs.source (hsource ▸ h)⟩
  tasks := ht
  listeners _ := tellsTamely_of_eq hl
  toil := by
    rw [Session.toil, Session.toil, hsource, hl]
    omega

/-- Nothing at all is done, and nothing is left. -/
theorem Toils.idle (hs : s.IsTame D) (hg : r.1.graph = s.graph) (hsource : r.1.source = s.source)
    (hl : r.1.listeners = s.listeners) (ht : r.2 = []) (hle : spent ≤ given) :
    Toils D ended ended s given r spent :=
  .same hs (hg ▸ hs.mentioned) hsource hl (by simp [ht]) (by simpa [ht] using hle)

/-- More may be given than is needed. -/
theorem Toils.mono (h : Toils D ended ended' s given r spent)
    (hle : given + spent' ≤ given' + spent) : Toils D ended ended' s given' r spent' :=
  ⟨h.tame, h.tasks, h.listeners, by have := h.toil; omega⟩

/-- Tasks that are worth nothing may follow. -/
theorem Toils.andThen (h : Toils D ended ended' s given r spent)
    (ht : ∀ task ∈ tasks, task.IsTame D) (hw : (tasks.map Task.weight).sum = 0) :
    Toils D ended ended' s given (r.1, r.2 ++ tasks) spent where
  tame := h.tame
  tasks task htask := (List.mem_append.1 htask).elim (h.tasks task) (ht task)
  listeners := h.listeners
  toil := by
    have := h.toil
    rw [List.map_append, List.sum_append, hw]
    omega

/-- Only listeners and the source matter before. -/
theorem Toils.of_eq (h : Toils D ended ended' s' given r spent) (hl : s'.listeners = s.listeners)
    (hsource : s'.source = s.source) : Toils D ended ended' s given r spent where
  tame := h.tame
  tasks := h.tasks
  listeners _ hi := h.listeners _ (tellsTamely_of_eq hl hi)
  toil := by
    have := h.toil
    rwa [Session.toil, Session.toil, hl, hsource] at this

/-- The source may be in use meanwhile. -/
theorem Toils.inUse (h : Toils D ended ended' s given (s', tasks) spent) :
    Toils D ended ended' s given (s'.inUse tasks) spent :=
  have hleft : Toils D ended ended' s given (s', tasks ++ [.leave]) spent :=
    h.andThen (by simp [Task.IsTame]) rfl
  ⟨⟨hleft.tame.mentioned, hleft.tame.source⟩, hleft.tasks, hleft.listeners, hleft.toil⟩

/-! ## The source of documents -/

/-- Whoever waits is given up when the source goes away. -/
theorem toils_collect (hs : s.IsTame D) : Toils D ended ended s 0 s.collect 0 := by
  unfold collect
  split
  · exact .idle hs rfl rfl rfl rfl (Nat.le_refl 0)
  · rename_i source hsource
    split
    · exact .idle hs rfl rfl rfl rfl (Nat.le_refl 0)
    · have htame := hs.source hsource
      cases source with
      | scripted src => exact htame.elim
      | library eager l =>
        refine ⟨⟨hs.mentioned, fun h => by cases h⟩, fun task htask => ?_, fun _ => id, ?_⟩
        · obtain ⟨c, hc, rfl⟩ := List.mem_map.1 htask
          exact htame.watched hc
        · have hload := l.sum_allWatchers Callback.weight
          have hmap : (l.allWatchers.map Task.discard).map Task.weight =
              l.allWatchers.map Callback.weight := List.map_map
          simp only [Source.allWatchers, hmap, hload, Session.toil, hsource, Option.elim,
            Source.toil]
          omega

theorem toils_leaving (hs : s.IsTame D) : Toils D ended ended s 0 s.leaving 0 :=
  (toils_collect hs).andThen (by simp [Task.IsTame]) rfl

theorem toils_dropping (hs : s.IsTame D) (wasThere : Bool) :
    Toils D ended ended s 0 (s.dropping wasThere) 0 :=
  (toils_collect hs).andThen (by simp [Task.IsTame]) rfl

/-- One of these documents is asked for. -/
theorem toils_request (hs : s.IsTame D) (hd : documentPart d ∈ D) :
    Toils D ended ended s 0 (s.request d) 0 := by
  unfold request
  split
  · rename_i eager l hsource
    have htame : l.Within D (Callback.IsTame D) := hs.source hsource
    refine ⟨⟨hs.mentioned, fun h => ?_⟩, fun task htask => ?_, fun _ => id, ?_⟩
    · cases h
      exact htame.request hd
    · split at htask
      · obtain rfl := List.mem_singleton.1 htask
        trivial
      · cases htask
    · have hahead := Library.ahead_request_le (l := l) hd
      have hweight : ((if eager then [Task.pump 0 false] else []).map Task.weight).sum = 0 := by
        split <;> rfl
      simp only [hweight, Session.toil, hsource, Option.elim, Source.toil, l.load_request]
      omega
  · rename_i src hsource
    exact (hs.source hsource).elim
  · exact .idle hs rfl rfl rfl rfl (Nat.le_refl 0)

/-- A parked path comes to wait. -/
theorem toils_watch (hs : s.IsTame D) (d : String) (n : Id) :
    Toils D ended ended s 0 (s.watch d (.resume n)) 0 := by
  unfold watch
  split
  · rename_i eager l hsource
    have htame : l.Within D (Callback.IsTame D) := hs.source hsource
    have hwithin := htame.watch (d := d) (Callback.isTame_resume D n)
    have hload := l.load_watch_le Callback.weight d (.resume n)
    have hahead := l.ahead_watch (D := D) d (.resume n)
    obtain ⟨l', outcome, hw⟩ : ∃ l' outcome, l.watch d (.resume n) = (l', outcome) := ⟨_, _, rfl⟩
    rw [hw] at hwithin hload hahead ⊢
    refine ⟨⟨hs.mentioned, fun h => ?_⟩, fun task htask => ?_, fun _ => id, ?_⟩
    · cases h
      exact hwithin
    · cases outcome with
      | none => cases htask
      | some o =>
        obtain rfl := List.mem_singleton.1 htask
        exact Callback.isTame_resume D n
    · simp only [Callback.weight, Nat.zero_add] at hload hahead
      cases outcome <;>
        simp only [Session.toil, hsource, Option.elim, Source.toil, hahead, List.map_cons,
          List.map_nil, List.sum_cons, List.sum_nil, Task.weight, Callback.weight] <;> omega
  · rename_i src hsource
    exact (hs.source hsource).elim
  · exact .same hs hs.mentioned rfl rfl (by simp [Task.IsTame]) (Nat.le_refl 0)

/-- **A delivery leaves less to be done.** -/
theorem toils_deliverNext {o : FetchOutcome} (hs : s.IsTame D)
    (h : s.deliverNext = some (s', o, tasks)) : Toils D ended ended s 0 (s', tasks) 1 := by
  unfold deliverNext at h
  split at h
  · rename_i eager l hsource
    obtain ⟨dv, hdv, he⟩ := Option.map_eq_some_iff.1 h
    cases he
    obtain ⟨hwithin, hgraph, -, hcalled⟩ :=
      Library.Within.deliver (hs.source hsource) hdv hs.mentioned
    refine ⟨⟨hgraph, fun h => ?_⟩, fun task htask => ?_, fun _ => id, ?_⟩
    · cases h
      exact hwithin
    · obtain ⟨c, hc, rfl⟩ := List.mem_map.1 htask
      exact hcalled c hc
    · have hload := Library.load_deliver Callback.weight hdv
      have hahead := Library.ahead_deliver_lt (D := D) hdv
      have hmap : (dv.watchers.map fun c => Task.call c dv.outcome).map Task.weight =
          dv.watchers.map Callback.weight := List.map_map
      simp only [hmap, Session.toil, hsource, Option.elim, Source.toil]
      omega
  · cases h

theorem toils_pump (hs : s.IsTame D) (n : Nat) (announce : Bool) :
    Toils D ended ended s 0 (s.exec (.pump n announce))
      (if s.deliverNext.isSome then 1 else 0) := by
  simp only [exec]
  cases h : s.deliverNext with
  | none =>
    cases announce <;> exact .idle hs rfl rfl rfl rfl (Nat.le_refl 0)
  | some d =>
    obtain ⟨s', o, tasks⟩ := d
    exact (toils_deliverNext hs h).andThen (by simp [Task.IsTame]) rfl

/-! ## Listeners -/

/-- **A listener runs some of his commands**, and keeps the others. -/
theorem toils_write {l l' : Listener} (hs : s.IsTame D) (hl : s.listeners[i]? = some l)
    (hg : r.1.graph = s.graph) (hsource : r.1.source = s.source)
    (hnew : r.1.listeners = s.listeners.insert i l') (hcommands : l'.commands ⊆ l.commands)
    (hended : ∀ k, k ≠ i → ended' k = ended k) (ht : ∀ task ∈ r.2, task.IsTame D)
    (hle : l'.weight (ended' i) + (r.2.map Task.weight).sum ≤ l.weight (ended i)) :
    Toils D ended ended' s 0 r 0 where
  tame := ⟨hg ▸ hs.mentioned, fun h => hs.source (hsource ▸ h)⟩
  tasks := ht
  listeners k hk := tellsTamely_insert hnew
    (fun hik c hc => hk l (hik ▸ hl) c (hcommands hc)) hk
  toil := by
    have hothers : (tally (s.listeners.erase i) fun k l => l.weight (ended' k)) =
        tally (s.listeners.erase i) fun k l => l.weight (ended k) := by
      refine tally_congr fun k l hk => ?_
      rw [hended k]
      rintro rfl
      simp at hk
    simp only [Session.toil, hnew, hsource, tally_write, hothers]
    rw [tally_erase hl]
    omega

/-- A match is told. -/
theorem toils_tell (hs : s.IsTame D) (hi : s.TellsTamely D i) (m : Bindings) :
    Toils D ended ended s 0 (s.tell i m) 0 := by
  unfold tell
  split
  · rename_i name onMatch onDone hl
    have hsplit : onMatch.flatten = onMatch.head?.getD [] ++ onMatch.tail.flatten ∧
        Command.weightOfLists onMatch =
          Command.weightOfList (onMatch.head?.getD []) + Command.weightOfLists onMatch.tail := by
      cases onMatch <;> exact ⟨rfl, rfl⟩
    refine toils_write hs hl rfl rfl rfl ?_ (fun _ _ => rfl) (fun task htask => ?_) ?_
    · rw [Listener.commands, Listener.commands, hsplit.1, List.append_assoc]
      exact List.subset_append_right _ _
    · refine Task.isTame_of_mem_perform (fun c hc => hi _ hl c ?_) htask
      rw [Listener.commands, hsplit.1]
      exact List.mem_append_left _ (List.mem_append_left _ hc)
    · rw [Task.sum_weight_perform, Listener.weight, Listener.weight, hsplit.2]
      omega
  · rename_i hl
    exact toils_write hs hl rfl rfl rfl (List.Subset.refl _) (fun _ _ => rfl) (by simp)
      (Nat.le_refl 0)
  · rename_i hl
    exact toils_write hs hl rfl rfl rfl (List.Subset.refl _) (fun _ _ => rfl) (by simp)
      (Nat.le_refl 0)
  · exact .idle hs rfl rfl rfl rfl (Nat.le_refl 0)

/-- **The end is told**, which was not told before. -/
theorem toils_conclude (hs : s.IsTame D) (hi : s.TellsTamely D i)
    (hmem : i ∈ s.listeners) (hbefore : ended i = false) (hafter : ended' i = true)
    (hended : ∀ k, k ≠ i → ended' k = ended k) (result : Except QueryError SearchSummary) :
    Toils D ended ended' s 0 (s.conclude i result) 0 := by
  unfold conclude
  split
  · rename_i name onMatch onDone hl
    have hsame : s.listeners = s.listeners.insert i (.script name onMatch onDone) := by
      ext k : 1
      rw [ExtTreeMap.getElem?_insert]
      by_cases hk : i = k
      · simp [← hk, hl]
      · simp [hk]
    refine toils_write hs hl rfl rfl hsame (List.Subset.refl _) hended (fun task htask => ?_) ?_
    · refine Task.isTame_of_mem_perform (fun c hc => hi _ hl c ?_) htask
      exact List.mem_append_right _ hc
    · simp [Task.sum_weight_perform, Listener.weight, hbefore, hafter]
  · rename_i hl
    exact toils_write hs hl rfl rfl rfl (List.Subset.refl _) hended (by simp) (Nat.le_refl 0)
  · rename_i hl
    exact toils_write hs hl rfl rfl rfl (List.Subset.refl _) hended (by simp) (Nat.le_refl 0)
  · rename_i hnone
    obtain ⟨l, hl⟩ := exists_getElem? hmem
    rw [hnone] at hl
    cases hl

/-- **A search is started for a listener**, who adds what he is worth. -/
theorem toils_launch (hs : s.IsTame D) (p : Pattern) {listener : Listener} {after : Id → Task}
    (hl : ∀ c ∈ listener.commands, c.IsTame D) (hafter : ∀ i, (after i).IsTame D)
    (hweight : ∀ i, (after i).weight = 0) (hle : listener.weight false + 1 ≤ given) :
    Toils D ended ended s given (s.launch p listener after) 1 := by
  unfold launch
  split
  · exact .idle hs rfl rfl rfl rfl (by omega)
  · rename_i e _
    split
    · exact .idle hs rfl rfl rfl rfl (by omega)
    · have htally := tally_insert_le s.listeners s.searches.next listener
        fun i l => l.weight (ended i)
      have hlistener : listener.weight (ended s.searches.next) ≤ listener.weight false := by
        cases listener with
        | script name onMatch onDone =>
          simp only [Listener.weight, Bool.false_eq_true, if_false]
          split <;> omega
        | _ => exact Nat.le_refl _
      have hstarted : Toils D ended ended s given
          ({ s with
              searches := (s.searches.launch e.config e.linked p).1
              listeners := s.listeners.insert s.searches.next listener },
            [.order (.job (s.searches.launch e.config e.linked p).2.2),
              after s.searches.next]) 1 := by
        refine ⟨⟨hs.mentioned, hs.source⟩, fun task htask => ?_,
          fun k => tellsTamely_insert rfl fun _ => hl, ?_⟩
        · simp only [List.mem_cons, List.not_mem_nil, or_false] at htask
          rcases htask with rfl | rfl
          · trivial
          · exact hafter _
        · simp only [Session.toil, List.map_cons, List.map_nil, List.sum_cons, List.sum_nil,
            hweight, Task.weight_order]
          omega
      simp only
      split
      · exact hstarted.inUse
      · exact hstarted

/-- Whoever left matches for a receiver runs no commands. -/
theorem toils_receive (hs : s.IsTame D) (name : String) :
    Toils D ended ended s 1 (s.receive name, []) 1 := by
  unfold receive
  split
  · exact .idle hs rfl rfl rfl rfl (Nat.le_refl 1)
  · split
    · rename_i hl
      refine (toils_write hs hl rfl rfl rfl ?_ (fun _ _ => rfl) (by simp) ?_).mono (Nat.le_refl 1)
      · exact List.Subset.refl []
      · exact Nat.le_refl 0
    · exact .idle hs rfl rfl rfl rfl (Nat.le_refl 1)

/-! ## Commands -/

/-- The store comes to mention what is added. -/
theorem toils_edit (hs : s.IsTame D) {e : StoreEdit} (he : ∀ d ∈ e.documents, d ∈ D) :
    Toils D ended ended s 1 (s.edit e, []) 1 := by
  cases e with
  | add st =>
    refine .same hs (fun d hd => ?_) rfl rfl (by simp) (Nat.le_refl 1)
    have hadded : d ∈ (s.graph.addAll [st]).documents := hd
    rcases Graph.mem_documents_addAll hadded with hd | ⟨st', hst, hd⟩
    · exact hs.mentioned d hd
    · exact he d (List.mem_singleton.1 hst ▸ hd)
  | extend ss =>
    refine .same hs (fun d hd => ?_) rfl rfl (by simp) (Nat.le_refl 1)
    rcases Graph.mem_documents_addAll hd with hd | ⟨st, hst, hd⟩
    · exact hs.mentioned d hd
    · exact he d (List.mem_flatMap.2 ⟨st, hst, hd⟩)
  | equate a b =>
    simp only [edit]
    split
    · rename_i g keep h
      exact .same hs (Graph.documents_equate h ▸ hs.mentioned) rfl rfl (by simp) (Nat.le_refl 1)
    · exact .idle hs rfl rfl rfl rfl (Nat.le_refl 1)

theorem toils_withSearch (hs : s.IsTame D) (name : String) (change : Search → Search) :
    Toils D ended ended s 1 (s.withSearch name change, []) 1 := by
  unfold withSearch
  split <;> exact .idle hs rfl rfl rfl rfl (Nat.le_refl 1)

/-- **A tame command leaves less toil** than it was worth. -/
theorem toils_command (hs : s.IsTame D) {c : Command} (hc : c.IsTame D) :
    Toils D ended ended s c.weight (s.command c) 1 := by
  cases c with
  | edit e => exact toils_edit hs fun d => hc.mem_of_adds
  | search name p onMatch onDone =>
    exact toils_launch hs _ hc.of_listener (fun _ => trivial) (fun _ => rfl) (Nat.le_refl _)
  | searchAll p | searchChannel _ p =>
    exact toils_launch hs _ (by simp [Listener.commands]) (fun _ => trivial) (fun _ => rfl)
      (Nat.le_refl _)
  | receive name => exact toils_receive hs name
  | handle name => exact toils_withSearch hs name id
  | cancel name => exact toils_withSearch hs name .cancel
  | stop name => exact toils_withSearch hs name .stop
  | inspect _ | searchUnreadable | dropReceiver _ =>
    exact .idle hs rfl rfl rfl rfl (Nat.le_refl 1)
  | state _ =>
    simp only [command]
    split <;> exact .idle hs rfl rfl rfl rfl (Nat.le_refl 1)
  | library c =>
    cases c with
    | status =>
      simp only [command]
      split <;> exact .idle hs rfl rfl rfl rfl (Nat.le_refl 1)
    | _ => cases hc.isQuiet
  | script _ | request _ | onAvailable _ _ _ => cases hc.isQuiet
  | configure config =>
    have h : Toils D ended ended s 0
        (collect { s with engine := some ⟨config, s.owned⟩ }) 0 :=
      (toils_collect (s := { s with engine := some ⟨config, s.owned⟩ })
        ⟨hs.mentioned, hs.source⟩).of_eq rfl rfl
    exact (h.andThen (by simp [Task.IsTame]) rfl).mono (Nat.le_refl 1)
  | dropEngine =>
    have h : Toils D ended ended s 0 (dropping { s with engine := none } s.engine.isSome) 0 :=
      (toils_dropping (s := { s with engine := none }) ⟨hs.mentioned, hs.source⟩ _).of_eq rfl rfl
    exact h.mono (Nat.le_refl 1)
  | dropSource =>
    have h : Toils D ended ended s 0 (dropping { s with owned := false } s.owned) 0 :=
      (toils_dropping (s := { s with owned := false }) ⟨hs.mentioned, hs.source⟩ _).of_eq rfl rfl
    exact h.mono (Nat.le_refl 1)

/-! ## Tasks -/

/-- What a task spends of the toil: commands, answers and deliveries do. -/
def spends (s : Session) : Task → ℕ
  | .command _ | .acted | .call (.notify _ _) _ | .discard (.notify _ _) => 1
  | .pump _ _ => if s.deliverNext.isSome then 1 else 0
  | _ => 0

/-- The work of searches is taken over, which asks for these documents only. -/
theorem toils_proceed (hs : s.IsTame D) {p : Searches × List Order}
    (h : ∀ d, .request d ∈ p.2 → documentPart d ∈ D) :
    Toils D ended ended s 0 (s.proceed p) 0 := by
  refine .same hs hs.mentioned rfl rfl (fun task htask => ?_) ?_
  · obtain ⟨o, ho, rfl⟩ := List.mem_map.1 htask
    exact Task.isTame_order fun d hd => h d (hd ▸ ho)
  · have hmap : (p.2.map Task.order).map Task.weight = p.2.map fun _ => 0 := List.map_map
    simp [proceed, hmap]

/-- What surroundings make of parked paths asks for no document. -/
theorem request_not_mem_resume (t : Searches) (n : Id) : .request d ∉ (t.resume n).2 := by
  rcases t.resume_cases n with he | ⟨f, -, he⟩ <;> simp [he]

theorem request_not_mem_discard (t : Searches) (n : Id) : .request d ∉ (t.discard n).2 := by
  rcases t.discard_cases n with he | ⟨f, -, he⟩ <;> simp [he]

/-- **A tame order leaves no more toil**: a job asks for these documents only, and
those who are told of something are told by tame listeners, of an end once. -/
theorem toils_obey (hs : s.IsTame D) {o : Order} (ht : (Task.order o).IsTame D)
    (hjob : ∀ job d, o = .job job → .request d ∈ (s.searches.run s.surroundings job).2 →
      documentPart d ∈ D)
    (htells : ∀ i, o.speaksOf? = some i → i ∈ s.listeners ∧ s.TellsTamely D i)
    (hends : ∀ i, (Task.order o).ends? = some i → ended i = false ∧ ended' i = true)
    (hsame : ∀ i, (Task.order o).ends? ≠ some i → ended' i = ended i) :
    Toils D ended ended' s 0 (s.obey o) 0 := by
  have quiet : (Task.order o).ends? = none → ended' = ended := fun h =>
    funext fun i => hsame i (by simp [h])
  cases o with
  | job job => exact quiet rfl ▸ toils_proceed hs fun d => hjob job d rfl
  | enterSource => exact quiet rfl ▸ .idle hs rfl rfl rfl rfl (Nat.le_refl 0)
  | leaveSource =>
    exact quiet rfl ▸ .same hs hs.mentioned rfl rfl (by simp [obey, Task.IsTame]) (Nat.le_refl 0)
  | request d => exact quiet rfl ▸ toils_request hs ht
  | watch d n => exact quiet rfl ▸ toils_watch hs d n
  | deliver i m => exact quiet rfl ▸ toils_tell hs (htells i rfl).2 m
  | finish i result =>
    obtain ⟨hmem, hi⟩ := htells i rfl
    obtain ⟨hbefore, hafter⟩ := hends i rfl
    exact toils_conclude hs hi hmem hbefore hafter
      (fun k hk => hsame k fun he => hk (Option.some.inj he).symm) result

/-- **A tame task leaves no more toil** than there was and than it was worth, and
if it spends some, less. -/
theorem toils_exec (hs : s.IsTame D) (ht : task.IsTame D) (ho : task.order? = none) :
    Toils D ended ended s task.weight (s.exec task) (s.spends task) := by
  cases task with
  | order o => cases ho
  | command c => exact toils_command hs ht
  | acted => exact .idle hs rfl rfl rfl rfl (Nat.le_refl 1)
  | call c o =>
    cases c with
    | resume n => exact toils_proceed hs fun d hd => absurd hd (request_not_mem_resume _ n)
    | notify tag cs =>
      refine .same hs hs.mentioned rfl rfl (fun task htask => ?_) ?_
      · exact Task.isTame_of_mem_perform ht htask
      · simp [exec, call, Task.sum_weight_perform, Task.weight, Callback.weight, spends]
  | discard c =>
    cases c with
    | resume n => exact toils_proceed hs fun d hd => absurd hd (request_not_mem_discard _ n)
    | notify tag cs => exact .idle hs rfl rfl rfl rfl (Nat.le_add_left _ _)
  | pump n announce => exact toils_pump hs n announce
  | collected i =>
    refine .idle hs ?_ ?_ ?_ rfl (Nat.le_refl 0) <;>
      · simp only [exec, collected]
        split <;> rfl
  | configured =>
    simp only [exec]
    split <;> exact .idle hs rfl rfl rfl rfl (Nat.le_refl 0)
  | leave =>
    exact (toils_leaving (s := { s with users := s.users - 1 }) ⟨hs.mentioned, hs.source⟩).of_eq
      rfl rfl
  | leaveLibrary =>
    exact (toils_leaving (s := { s with deliverers := s.deliverers - 1 })
      ⟨hs.mentioned, hs.source⟩).of_eq rfl rfl
  | reply r | started name i | opened name i =>
    exact .idle hs rfl rfl rfl rfl (Nat.le_refl 0)

end Session

end TripleQuery
